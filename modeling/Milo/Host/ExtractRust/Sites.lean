import Milo.Host.ExtractRust

-- Where the pattern of a fence matches in a reply.
namespace Milo.Host

open Milo.Lib Milo.Lib.Regex

theorem isspace_tick : isspace tick = false := by decide

theorem isspace_newline : isspace '\n' = true := by decide

-- A tag as a block may have it.
def Plain (tag : List Char) : Prop := ∀ c ∈ tag, isspace c = false ∧ c ≠ tick

theorem plain_of_all {tag : List Char} (h : tag.all (fun c => !isspace c && c != tick) = true) :
    Plain tag := by
  intro c hmem
  simpa using List.all_eq_true.mp h c hmem

theorem Plain.tick_not_mem {tag : List Char} (h : Plain tag) : tick ∉ tag := fun hmem => (h tick hmem).2 rfl

theorem quiet_nil : Quiet [] := by
  rw [Quiet, List.infix_nil]
  exact List.cons_ne_nil tick [tick, tick]

theorem quiet_of_not_mem {text : List Char} (h : tick ∉ text) : Quiet text := fun hoccurs =>
  h (hoccurs.subset List.mem_cons_self)

section Group

-- The group behind the newline, up to the next fence.
def toFence : List Char → Option (List Char) :=
  lazyGroup (fun group => literal ticks fun _ => some group) []

theorem toFence_eq (text : List Char) : toFence text = upTo ticks text := by
  rw [toFence, lazyGroup_literal]
  cases upTo ticks text <;> rfl

theorem newline_toFence (c : Char) (text : List Char) :
    literal ['\n'] toFence (c :: text) = if c = '\n' then upTo ticks text else none := by
  unfold literal
  by_cases hc : c = '\n'
  · subst hc
    rw [if_pos (by simp), if_pos rfl, ← toFence_eq]
    rfl
  · rw [if_neg (by simpa [List.cons_prefix_cons] using Ne.symm hc), if_neg hc]

theorem upTo_cons_space {c : Char} (hc : isspace c = true) (text : List Char) :
    (upTo ticks (c :: text)).map strip = (upTo ticks text).map strip := by
  have hne : ¬ticks <+: c :: text := by
    intro h
    obtain ⟨rfl, -⟩ := List.cons_prefix_cons.mp (show tick :: [tick, tick] <+: c :: text from h)
    cases hc
  rw [upTo, if_neg hne, Option.map_map]
  cases upTo ticks text with
  | none => rfl
  | some group => exact congrArg some (strip_cons hc group)

-- Up to spaces, the group is all that stands between the tag and the next fence.
theorem greedy_toFence (text : List Char) :
    (greedy isspace (literal ['\n'] toFence) text).map strip =
      if '\n' ∈ text.takeWhile isspace then (upTo ticks text).map strip else none := by
  induction text with
  | nil => rfl
  | cons c text ih =>
      rw [greedy, newline_toFence]
      cases hc : isspace c with
      | false =>
          have hne : c ≠ '\n' := by
            rintro rfl
            cases hc
          rw [List.takeWhile_cons_of_neg (by simp [hc]), if_neg Bool.false_ne_true, if_neg hne,
            if_neg List.not_mem_nil]
          rfl
      | true =>
          rw [List.takeWhile_cons_of_pos hc, upTo_cons_space hc, if_pos rfl]
          by_cases hmore : '\n' ∈ text.takeWhile isspace
          · rw [if_pos hmore] at ih
            rw [if_pos (List.mem_cons_of_mem _ hmore), ← ih]
            cases hgroup : greedy isspace (literal ['\n'] toFence) text with
            | some group => rfl
            | none =>
                rw [hgroup, eq_comm, Option.map_none, Option.map_eq_none_iff] at ih
                rw [ih, ite_self]
                rfl
          · rw [if_neg hmore, Option.map_eq_none_iff] at ih
            rw [ih]
            by_cases hnewline : c = '\n'
            · rw [if_pos hnewline, if_pos (hnewline ▸ List.mem_cons_self)]
              rfl
            · rw [if_neg hnewline, if_neg]
              · rfl
              · rintro (_ | ⟨_, hmem⟩)
                · exact hnewline rfl
                · exact hmore hmem

end Group

section Fence

variable {tag : List Char}

theorem fenced_of_not_ticks {text : List Char} (h : ¬ticks <+: text) : fenced tag text = none :=
  if_neg fun hstarts => h ((List.prefix_append ticks tag).trans hstarts)

theorem fenced_of_not_tag {text : List Char} (h : ¬tag <+: text) : fenced tag (ticks ++ text) = none :=
  if_neg fun hstarts => h ((List.prefix_append_right_inj ticks).mp hstarts)

theorem fenced_map (tag text : List Char) :
    (fenced tag (ticks ++ (tag ++ text))).map strip =
      if '\n' ∈ text.takeWhile isspace then (upTo ticks text).map strip else none := by
  rw [← greedy_toFence]
  unfold fenced literal
  rw [← List.append_assoc, if_pos (List.prefix_append _ _), List.drop_left]
  rfl

-- A fence that a fourth tick follows opens nothing.
theorem fenced_tick (htag : Plain tag) (text : List Char) : fenced tag (ticks ++ tick :: text) = none := by
  cases tag with
  | nil =>
      have hmap := fenced_map [] (tick :: text)
      rw [List.takeWhile_cons_of_neg (by decide), if_neg List.not_mem_nil] at hmap
      exact Option.map_eq_none_iff.mp hmap
  | cons c tag =>
      refine fenced_of_not_tag fun h => (htag c List.mem_cons_self).2 ?_
      exact (List.cons_prefix_cons.mp h).1

end Fence

section Search

variable {tag : List Char} {back : List Char}

-- A front of up to three ticks before a fence is no fence itself.
theorem fenced_short {front : List Char} (htag : Plain tag) (hfront : front <+: ticks) (hne : front ≠ []) :
    fenced tag (front ++ (ticks ++ back)) = none := by
  have hcases : front = [tick] ∨ front = [tick, tick] ∨ front = [tick, tick, tick] := by
    rw [List.prefix_iff_eq_take] at hfront
    have hlen : front.length ≤ 3 := by
      rw [hfront, List.length_take]
      exact Nat.min_le_right _ _
    rcases hk : front.length with _ | _ | _ | _ | k
    · exact absurd (List.length_eq_zero_iff.mp hk) hne
    · rw [hk] at hfront
      exact .inl hfront
    · rw [hk] at hfront
      exact .inr (.inl hfront)
    · rw [hk] at hfront
      exact .inr (.inr hfront)
    · omega
  rcases hcases with rfl | rfl | rfl
  · exact fenced_tick htag back
  · exact fenced_tick htag (tick :: back)
  · exact fenced_tick htag (tick :: tick :: back)

theorem search_quiet {front : List Char} (htag : Plain tag) (hfront : Quiet front) :
    search (fenced tag) (front ++ (ticks ++ back)) = search (fenced tag) (ticks ++ back) := by
  refine search_append fun before after hsplit hne => ?_
  by_cases hstarts : ticks <+: after ++ (ticks ++ back)
  · have hafter : ¬ticks <+: after := by
      intro h
      refine hfront (h.isInfix.trans ?_)
      rw [hsplit]
      exact (List.suffix_append before after).isInfix
    rcases List.prefix_or_prefix_of_prefix hstarts (List.prefix_append after _) with h | h
    · exact absurd h hafter
    · exact fenced_short htag h hne
  · exact fenced_of_not_ticks hstarts

theorem search_ticks (htag : Plain tag) (n : ℕ) :
    search (fenced tag) (List.replicate n tick ++ (ticks ++ back)) =
      search (fenced tag) (ticks ++ back) := by
  induction n with
  | zero => rfl
  | succ n ih =>
      rw [List.replicate_succ, List.cons_append, search, ih]
      have hfour : ∃ text, tick :: (List.replicate n tick ++ (ticks ++ back)) = ticks ++ tick :: text := by
        rcases n with _ | _ | _ | n
        · exact ⟨back, rfl⟩
        · exact ⟨tick :: back, rfl⟩
        · exact ⟨tick :: tick :: back, rfl⟩
        · exact ⟨List.replicate n tick ++ (ticks ++ back), rfl⟩
      obtain ⟨text, htext⟩ := hfour
      rw [htext, fenced_tick htag]
      rfl

theorem search_of_quiet {text : List Char} (h : Quiet text) : search (fenced tag) text = none :=
  search_eq_none fun _ hrest => fenced_of_not_ticks fun hstarts =>
    h (hstarts.isInfix.trans hrest.isInfix)

-- The search goes on past a fence that does not match, to the next one.
theorem search_past {inside : List Char} (htag : Plain tag) (hquiet : Quiet inside)
    (hhead : ∃ c text, inside = c :: text ∧ c ≠ tick)
    (hnone : fenced tag (ticks ++ (inside ++ (ticks ++ back))) = none) :
    search (fenced tag) (ticks ++ (inside ++ (ticks ++ back))) = search (fenced tag) (ticks ++ back) := by
  obtain ⟨c, text, rfl, hc⟩ := hhead
  have hfront : Quiet (tick :: tick :: c :: text) := by
    have hone : ¬ticks <+: tick :: c :: text := fun h =>
      hc (List.cons_prefix_cons.mp (List.cons_prefix_cons.mp h).2).1.symm
    have htwo : ¬ticks <+: tick :: tick :: c :: text := fun h =>
      hc (List.cons_prefix_cons.mp (List.cons_prefix_cons.mp (List.cons_prefix_cons.mp h).2).2).1.symm
    intro hoccurs
    rcases List.infix_cons_iff.mp hoccurs with h | hoccurs
    · exact htwo h
    rcases List.infix_cons_iff.mp hoccurs with h | hoccurs
    · exact hone h
    · exact hquiet hoccurs
  have hsearch : search (fenced tag) (ticks ++ (c :: text ++ (ticks ++ back))) =
      (fenced tag (ticks ++ (c :: text ++ (ticks ++ back))) <|>
        search (fenced tag) (tick :: tick :: c :: text ++ (ticks ++ back))) := rfl
  rw [hsearch, hnone, search_quiet htag hfront]
  rfl

-- Behind the last fence there is nothing to find.
theorem search_last {prose : List Char} (hquiet : Quiet prose) :
    search (fenced tag) (ticks ++ prose) = none := by
  refine search_eq_none fun rest hrest => ?_
  by_cases hstarts : ticks ++ tag <+: rest
  swap
  · exact if_neg hstarts
  obtain ⟨text, rfl⟩ := hstarts
  rw [List.append_assoc] at hrest ⊢
  have htext : text <:+ prose := by
    have hbehind : tag ++ text <:+ ticks ++ prose := (List.suffix_append ticks (tag ++ text)).trans hrest
    have hlen : (tag ++ text).length ≤ prose.length := by
      have hle := hrest.length_le
      rw [List.length_append, List.length_append, List.length_append] at hle
      rw [List.length_append]
      omega
    exact (List.suffix_append tag text).trans
      (List.suffix_of_suffix_length_le hbehind (List.suffix_append ticks prose) hlen)
  have hnone : upTo ticks text = none :=
    (upTo_eq_none_iff ticks text).mpr fun hoccurs => hquiet (hoccurs.trans htext.isInfix)
  have hmap := fenced_map tag text
  rw [hnone, Option.map_none, ite_self] at hmap
  exact Option.map_eq_none_iff.mp hmap

end Search

-- A text without the ticks that it ends in.
def dropTicks (text : List Char) : List Char := text.rdropWhile (· = tick)

theorem dropTicks_cons (c : Char) (text : List Char) :
    dropTicks (c :: text) =
      if dropTicks text = [] then (if c = tick then [] else [c]) else c :: dropTicks text := by
  unfold dropTicks List.rdropWhile
  rw [List.reverse_cons, List.dropWhile_append]
  cases hfront : text.reverse.dropWhile (· = tick) with
  | nil =>
      by_cases hc : c = tick
      · simp [hc]
      · simp [hc]
  | cons d rest => simp

theorem dropTicks_eq_nil_iff (text : List Char) : dropTicks text = [] ↔ ∀ c ∈ text, c = tick := by
  unfold dropTicks
  rw [List.rdropWhile_eq_nil_iff]
  simp

-- The next fence takes the ticks before it along.
theorem upTo_quiet {text : List Char} (hquiet : Quiet text) (back : List Char) :
    upTo ticks (text ++ (ticks ++ back)) = some (dropTicks text) := by
  induction text with
  | nil => rfl
  | cons c text ih =>
      have hrest : Quiet text := fun h => hquiet (h.trans (List.suffix_cons c text).isInfix)
      rw [List.cons_append, upTo, ih hrest, dropTicks_cons]
      by_cases hall : ∀ d ∈ c :: text, d = tick
      · obtain ⟨rfl, htext⟩ := List.forall_mem_cons.mp hall
        have hstarts : ticks <+: tick :: (text ++ (ticks ++ back)) := by
          rw [List.eq_replicate_of_mem htext]
          rcases text.length with _ | _ | n
          · exact ⟨tick :: back, rfl⟩
          · exact ⟨tick :: tick :: back, rfl⟩
          · exact ⟨List.replicate n tick ++ (ticks ++ back), rfl⟩
        rw [if_pos hstarts, if_pos ((dropTicks_eq_nil_iff text).mpr htext), if_pos rfl]
      · have hstarts : ¬ticks <+: c :: (text ++ (ticks ++ back)) := by
          intro h
          rcases List.prefix_or_prefix_of_prefix h (List.prefix_append (c :: text) _) with h | h
          · exact hquiet h.isInfix
          · exact hall fun d hd => List.eq_of_mem_replicate (h.subset hd)
        rw [if_neg hstarts, Option.map_some]
        congr 1
        split_ifs with hnil hc
        · refine absurd (fun d hd => ?_) hall
          rcases List.mem_cons.mp hd with rfl | hd
          · exact hc
          · exact (dropTicks_eq_nil_iff text).mp hnil d hd
        · rw [hnil]
        · rfl

end Milo.Host
