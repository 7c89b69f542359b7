import Milo.Host.ExtractRust.Sites

-- Which part of a reply is taken for the code.
namespace Milo.Host

open Milo.Lib Milo.Lib.Regex

namespace Block

variable (b : Block)

-- The prose behind the ticks that it may begin with.
def unticked : List Char := b.prose.dropWhile (· = tick)

-- The closing fence and the prose read like the opening of a block with the tag.
def Resembles (tag : List Char) : Prop :=
  tag <+: b.unticked ∧ '\n' ∈ (b.unticked.drop tag.length).takeWhile isspace

instance (tag : List Char) : Decidable (b.Resembles tag) := inferInstanceAs (Decidable (_ ∧ _))

theorem unticked_quiet : Quiet b.unticked := fun h =>
  b.prose_quiet (h.trans (List.dropWhile_suffix _).isInfix)

theorem inside_quiet : Quiet b.inside := by
  intro h
  rw [inside, ← List.append_assoc] at h
  have hnewline : '\n' ∉ ticks := by decide
  rcases (infix_append_cons_iff hnewline).mp h with h | h
  · have hmem : tick ∈ b.tag ++ b.blanks := h.subset (by decide)
    rcases List.mem_append.mp hmem with hmem | hmem
    · exact (b.tag_plain tick hmem).2 rfl
    · cases (b.blanks_space tick hmem).1
  · exact b.body_quiet h

-- Behind the tag there is a space.
theorem inside_tail : ∃ c text, b.blanks ++ '\n' :: b.body = c :: text ∧ isspace c = true := by
  cases hblanks : b.blanks with
  | nil => exact ⟨'\n', b.body, rfl, isspace_newline⟩
  | cons c blanks => exact ⟨c, _, rfl, (b.blanks_space c (by rw [hblanks]; exact List.mem_cons_self)).1⟩

theorem inside_head : ∃ c text, b.inside = c :: text ∧ c ≠ tick := by
  unfold inside
  cases htag : b.tag with
  | nil =>
      obtain ⟨c, text, htext, hc⟩ := b.inside_tail
      refine ⟨c, text, htext, ?_⟩
      rintro rfl
      cases hc
  | cons c tag =>
      exact ⟨c, _, rfl, (b.tag_plain c (by rw [htag]; exact List.mem_cons_self)).2⟩

end Block

section Opening

variable {tag : List Char} (htag : Plain tag) (b : Block) (back : List Char)

include htag in
theorem fenced_other (hne : b.tag ≠ tag) : fenced tag (ticks ++ (b.inside ++ back)) = none := by
  by_cases hstarts : tag <+: b.inside ++ back
  swap
  · exact fenced_of_not_tag hstarts
  unfold Block.inside at hstarts ⊢
  rw [List.append_assoc] at hstarts ⊢
  rcases List.prefix_or_prefix_of_prefix hstarts (List.prefix_append b.tag _) with
    ⟨rest, hrest⟩ | ⟨rest, hrest⟩
  · -- a longer tag goes on with a letter
    cases rest with
    | nil => exact absurd (hrest.symm.trans (List.append_nil tag)) hne
    | cons c rest =>
        have hc := (b.tag_plain c (by rw [← hrest]; simp)).1
        have hmap := fenced_map tag (c :: (rest ++ (b.blanks ++ '\n' :: b.body ++ back)))
        rw [List.takeWhile_cons_of_neg (by simp [hc]), if_neg List.not_mem_nil] at hmap
        rw [← hrest, List.append_assoc]
        exact Option.map_eq_none_iff.mp hmap
  · -- behind a shorter one there is a space
    cases rest with
    | nil => exact absurd ((List.append_nil b.tag).symm.trans hrest) hne
    | cons c rest =>
        obtain ⟨d, text, htext, hd⟩ := b.inside_tail
        rw [← hrest, htext, List.prefix_append_right_inj] at hstarts
        obtain ⟨rfl, -⟩ := List.cons_prefix_cons.mp hstarts
        rw [(htag c (by rw [← hrest]; simp)).1] at hd
        cases hd

theorem newline_mem_takeWhile {spaces : List Char} (h : ∀ c ∈ spaces, isspace c = true) (text : List Char) :
    '\n' ∈ (spaces ++ '\n' :: text).takeWhile isspace := by
  rw [List.takeWhile_append_of_pos h, List.takeWhile_cons_of_pos isspace_newline]
  simp

theorem upTo_append_spaces {spaces : List Char} (h : ∀ c ∈ spaces, isspace c = true) (text : List Char) :
    (upTo ticks (spaces ++ text)).map strip = (upTo ticks text).map strip := by
  induction spaces with
  | nil => rfl
  | cons c spaces ih =>
      obtain ⟨hc, hrest⟩ := List.forall_mem_cons.mp h
      rw [List.cons_append, upTo_cons_space hc, ih hrest]

theorem search_own (hown : b.tag = tag) :
    (search (fenced tag) (ticks ++ (b.inside ++ (ticks ++ back)))).map strip =
      some (strip (dropTicks b.body)) := by
  have hspaces : ∀ c ∈ b.blanks, isspace c = true := fun c hc => (b.blanks_space c hc).1
  have hmap := fenced_map tag (b.blanks ++ ('\n' :: (b.body ++ (ticks ++ back))))
  rw [if_pos (newline_mem_takeWhile hspaces _), upTo_append_spaces hspaces,
    upTo_cons_space isspace_newline, upTo_quiet b.body_quiet] at hmap
  have htext : ticks ++ (b.inside ++ (ticks ++ back)) =
      ticks ++ (tag ++ (b.blanks ++ ('\n' :: (b.body ++ (ticks ++ back))))) := by
    rw [Block.inside, hown]
    simp only [List.append_assoc, List.cons_append]
  rw [htext]
  obtain ⟨group, hgroup, hstrip⟩ := Option.map_eq_some_iff.mp hmap
  rw [search_of_some hgroup]
  exact congrArg some hstrip

end Opening

section Closing

variable {tag : List Char} (htag : Plain tag) (b : Block) (back : List Char)

theorem takeWhile_append_ticks (text : List Char) :
    (text ++ (ticks ++ back)).takeWhile isspace = text.takeWhile isspace := by
  induction text with
  | nil => rfl
  | cons c text ih =>
      rw [List.cons_append, List.takeWhile_cons, List.takeWhile_cons, ih]

include htag in
theorem search_unticked :
    search (fenced tag) (ticks ++ (b.prose ++ (ticks ++ back))) =
      search (fenced tag) (ticks ++ (b.unticked ++ (ticks ++ back))) := by
  have hprose : b.prose = List.replicate (b.prose.takeWhile (· = tick)).length tick ++ b.unticked := by
    have hall : ∀ c ∈ b.prose.takeWhile (· = tick), c = tick := fun c hc => by
      simpa using List.mem_takeWhile_imp hc
    rw [← List.eq_replicate_of_mem hall]
    exact List.takeWhile_append_dropWhile.symm
  have hcomm : ∀ n text,
      ticks ++ (List.replicate n tick ++ text) = List.replicate n tick ++ (ticks ++ text) := by
    intro n text
    rw [← List.append_assoc, ← List.append_assoc, ticks, List.replicate_append_replicate,
      List.replicate_append_replicate, Nat.add_comm]
  rw [hprose, List.append_assoc, hcomm, search_ticks htag]

include htag in
-- A closing fence that reads like an opening one: the prose behind it is taken.
theorem search_resembling (h : b.Resembles tag) :
    (search (fenced tag) (ticks ++ (b.prose ++ (ticks ++ back)))).map strip =
      some (strip (dropTicks (b.unticked.drop tag.length))) := by
  obtain ⟨⟨rest, hrest⟩, hnewline⟩ := h
  have hdrop : b.unticked.drop tag.length = rest := by rw [← hrest, List.drop_left]
  have hquiet : Quiet rest := by
    intro hoccurs
    refine b.unticked_quiet (hoccurs.trans ?_)
    rw [← hrest]
    exact (List.suffix_append tag rest).isInfix
  rw [hdrop] at hnewline ⊢
  have hmap := fenced_map tag (rest ++ (ticks ++ back))
  rw [takeWhile_append_ticks, if_pos hnewline, upTo_quiet hquiet] at hmap
  rw [search_unticked htag, ← hrest, List.append_assoc]
  obtain ⟨group, hgroup, hstrip⟩ := Option.map_eq_some_iff.mp hmap
  rw [search_of_some hgroup]
  exact congrArg some hstrip

include htag in
theorem search_closing (h : ¬b.Resembles tag) :
    search (fenced tag) (ticks ++ (b.prose ++ (ticks ++ back))) = search (fenced tag) (ticks ++ back) := by
  rw [search_unticked htag]
  cases hhead : b.unticked with
  | nil => exact search_ticks htag 3
  | cons c text =>
      have hc : c ≠ tick := by
        have hne := List.head?_dropWhile_not (· = tick) b.prose
        rw [show b.prose.dropWhile (· = tick) = c :: text from hhead] at hne
        exact of_decide_eq_false hne
      rw [← hhead]
      refine search_past htag b.unticked_quiet ⟨c, text, hhead, hc⟩ ?_
      by_cases hstarts : tag <+: b.unticked ++ (ticks ++ back)
      swap
      · exact fenced_of_not_tag hstarts
      obtain ⟨rest, hrest⟩ := (prefix_append_cons_iff htag.tick_not_mem).mp
        (show tag <+: b.unticked ++ tick :: (tick :: tick :: back) from hstarts)
      have hmap := fenced_map tag (rest ++ (ticks ++ back))
      rw [takeWhile_append_ticks, if_neg] at hmap
      · rw [← hrest, List.append_assoc]
        exact Option.map_eq_none_iff.mp hmap
      · refine fun hnewline => h ⟨⟨rest, hrest⟩, ?_⟩
        rw [← hrest, List.drop_left]
        exact hnewline

end Closing

-- What reads like a block from its opening fence on, less the fences and the tag.
inductive Site where
  | body (text : List Char)
  | prose (text : List Char)

def Site.text : Site → List Char
  | body text => text
  | prose text => text

def firstSite (tag : List Char) : List Block → Option Site
  | [] => none
  | b :: rest =>
      if b.tag = tag then some (.body b.body)
      else if rest ≠ [] ∧ b.Resembles tag then some (.prose (b.unticked.drop tag.length))
      else firstSite tag rest

theorem firstSite_cases (tag : List Char) (blocks : List Block) :
    (firstSite tag blocks = none ∧ blocks.find? (·.tag = tag) = none) ∨
      (∃ b, firstSite tag blocks = some (.body b.body) ∧ blocks.find? (·.tag = tag) = some b) ∨
      ∃ b ∈ blocks, ∃ text, firstSite tag blocks = some (.prose text) ∧ text <:+ b.prose := by
  induction blocks with
  | nil => exact .inl ⟨rfl, rfl⟩
  | cons b rest ih =>
      by_cases hown : b.tag = tag
      · exact .inr (.inl ⟨b, if_pos hown, List.find?_cons_of_pos (decide_eq_true hown)⟩)
      rw [List.find?_cons_of_neg (by simpa using hown), firstSite, if_neg hown]
      split_ifs with hprose
      · have hsuffix : b.unticked.drop tag.length <:+ b.prose :=
          (List.drop_suffix _ _).trans (List.dropWhile_suffix _)
        exact .inr (.inr ⟨b, List.mem_cons_self, _, rfl, hsuffix⟩)
      · rcases ih with h | h | ⟨found, hmem, h⟩
        · exact .inl h
        · exact .inr (.inl h)
        · exact .inr (.inr ⟨found, List.mem_cons_of_mem b hmem, h⟩)

theorem search_blocks {tag : List Char} (htag : Plain tag) (blocks : List Block) :
    (search (fenced tag) (blocks.flatMap Block.text)).map strip =
      (firstSite tag blocks).map fun site => strip (dropTicks site.text) := by
  induction blocks with
  | nil =>
      rw [List.flatMap_nil, search_of_quiet quiet_nil]
      rfl
  | cons b rest ih =>
      have htext : (b :: rest).flatMap Block.text =
          ticks ++ (b.inside ++ (ticks ++ (b.prose ++ rest.flatMap Block.text))) := by
        rw [List.flatMap_cons, Block.text, List.append_assoc, List.append_assoc, List.append_assoc]
      rw [htext, firstSite]
      by_cases hown : b.tag = tag
      · rw [search_own b _ hown, if_pos hown]
        rfl
      rw [search_past htag b.inside_quiet b.inside_head (fenced_other htag b _ hown), if_neg hown]
      cases rest with
      | nil =>
          rw [List.flatMap_nil, List.append_nil, search_last b.prose_quiet, if_neg fun h => h.1 rfl]
          rfl
      | cons next rest =>
          have hnext : ∃ back, (next :: rest).flatMap Block.text = ticks ++ back := by
            rw [List.flatMap_cons, Block.text, List.append_assoc]
            exact ⟨_, rfl⟩
          obtain ⟨back, hback⟩ := hnext
          rw [hback] at ih ⊢
          by_cases hprose : b.Resembles tag
          · rw [search_resembling htag b back hprose, if_pos ⟨List.cons_ne_nil next rest, hprose⟩]
            rfl
          · rw [search_closing htag b back hprose, if_neg fun h => hprose h.2, ih]

section DropTicks

theorem count_dropTicks_le (text : List Char) : (dropTicks text).count tick ≤ text.count tick :=
  (List.rdropWhile_prefix _ text).sublist.count_le tick

-- A body keeps all of its text if no tick stands right before its closing fence.
theorem strip_dropTicks_eq_iff (text : List Char) :
    strip (dropTicks text) = strip text ↔ text.getLast? ≠ some tick := by
  constructor
  · intro h hlast
    obtain ⟨init, rfl⟩ := List.getLast?_eq_some_iff.mp hlast
    have hdrop : dropTicks (init ++ [tick]) = dropTicks init := List.rdropWhile_concat_pos _ _ _ (by decide)
    have hcount := congrArg (List.count tick) h
    rw [hdrop, count_strip isspace_tick, count_strip isspace_tick, List.count_append,
      List.count_singleton_self] at hcount
    have hle := count_dropTicks_le init
    omega
  · intro h
    have hself : dropTicks text = text := by
      refine List.rdropWhile_eq_self_iff.mpr fun hne htick => h ?_
      rw [List.getLast?_eq_some_getLast hne, of_decide_eq_true htick]
    rw [hself]

end DropTicks

theorem plain_nil : Plain [] := plain_of_all rfl

theorem plain_rust : Plain rust := plain_of_all rfl

theorem extractRust_ofList (text : List Char) :
    extractRust (.ofList text) = .ofList ((((search (fenced rust) text).map strip).or
      ((search (fenced []) text).map strip)).getD (strip text)) := by
  rw [extractRust, String.toList_ofList]
  cases search (fenced rust) text with
  | some group => rfl
  | none =>
      cases search (fenced []) text with
      | some group => rfl
      | none => rfl

namespace Reply

variable (reply : Reply)

def site : Option Site := (firstSite rust reply.blocks).or (firstSite [] reply.blocks)

def wantedBlock : Option Block := (reply.blocks.find? (·.tag = rust)).or (reply.blocks.find? (·.tag = []))

-- The code is what stands first in the reply, or reads the same.
def Clear : Prop :=
  match reply.site with
  | some (.body text) => text.getLast? ≠ some tick
  | some (.prose text) => ∃ b, reply.wantedBlock = some b ∧ strip (dropTicks text) = strip b.body
  | none => True

theorem wanted_eq : reply.wanted = (reply.wantedBlock.map fun b => strip b.body).getD (strip reply.text) := by
  unfold wanted wantedBlock
  cases reply.blocks.find? fun b => b.tag = rust with
  | some b => rfl
  | none =>
      cases reply.blocks.find? fun b => b.tag = [] with
      | some b => rfl
      | none => rfl

theorem search_text {tag : List Char} (htag : Plain tag) :
    (search (fenced tag) reply.text).map strip =
      (firstSite tag reply.blocks).map fun site => strip (dropTicks site.text) := by
  rw [← search_blocks htag, text]
  cases reply.blocks with
  | nil =>
      rw [List.flatMap_nil, List.append_nil, search_of_quiet reply.prose_quiet, search_of_quiet quiet_nil]
  | cons b rest =>
      rw [List.flatMap_cons, Block.text, List.append_assoc, search_quiet htag reply.prose_quiet]

theorem extractRust_text :
    extractRust (.ofList reply.text) =
      .ofList ((reply.site.map fun site => strip (dropTicks site.text)).getD (strip reply.text)) := by
  rw [extractRust_ofList, reply.search_text plain_rust, reply.search_text plain_nil, site, Option.map_or]

theorem site_cases :
    (reply.site = none ∧ reply.wantedBlock = none) ∨
      (∃ b, reply.site = some (.body b.body) ∧ reply.wantedBlock = some b) ∨
      ∃ b ∈ reply.blocks, ∃ text, reply.site = some (.prose text) ∧ text <:+ b.prose := by
  unfold site wantedBlock
  rcases firstSite_cases rust reply.blocks with ⟨hsite, hfind⟩ | ⟨b, hsite, hfind⟩ | ⟨b, hmem, text, hsite, h⟩
  · rw [hsite, hfind, Option.none_or, Option.none_or]
    exact firstSite_cases [] reply.blocks
  · rw [hsite, hfind]
    exact .inr (.inl ⟨b, rfl, rfl⟩)
  · rw [hsite]
    exact .inr (.inr ⟨b, hmem, text, rfl, h⟩)

-- Prose is never all of the reply, for it has no fence.
theorem strip_prose_ne {b : Block} {text : List Char} (hmem : b ∈ reply.blocks) (h : text <:+ b.prose) :
    strip (dropTicks text) ≠ strip reply.text := by
  intro heq
  have hcount := congrArg (List.count tick) heq
  rw [count_strip isspace_tick, count_strip isspace_tick] at hcount
  have hgroup := (count_dropTicks_le text).trans (h.sublist.count_le tick)
  have hblocks : List.Sublist b.text (reply.blocks.flatMap Block.text) :=
    List.sublist_flatten_of_mem (List.mem_map_of_mem hmem)
  have hblock : b.text.count tick ≤ reply.text.count tick :=
    (hblocks.trans (List.sublist_append_right reply.prose _)).count_le tick
  have hticks : ticks.count tick = 3 := rfl
  rw [Block.text, List.count_append, List.count_append, List.count_append, hticks] at hblock
  omega

-- The code is found exactly if no prose reads like a block before it, up to a tick at its end.
theorem extractRust_eq_wanted_iff :
    extractRust (.ofList reply.text) = .ofList reply.wanted ↔ reply.Clear := by
  rw [extractRust_text, String.ofList_inj, wanted_eq, Clear]
  rcases reply.site_cases with ⟨hsite, hwanted⟩ | ⟨b, hsite, hwanted⟩ | ⟨b, hmem, text, hsite, hsuffix⟩
  · rw [hsite, hwanted]
    exact iff_of_true rfl trivial
  · rw [hsite, hwanted]
    exact strip_dropTicks_eq_iff b.body
  · rw [hsite]
    cases hwanted : reply.wantedBlock with
    | none =>
        refine iff_of_false (reply.strip_prose_ne hmem hsuffix) ?_
        rintro ⟨b, hnone, -⟩
        cases hnone
    | some b =>
        constructor
        · intro h
          exact ⟨b, rfl, h⟩
        · rintro ⟨b, ⟨⟩, h⟩
          exact h

end Reply

-- A manifest, the word "then", and the code.
def tomlFirst : Reply where
  prose := []
  blocks := [
    { tag := ['t', 'o', 'm', 'l']
      blanks := []
      body := ['[', ']', '\n']
      prose := ['\n', 't', 'h', 'e', 'n', '\n']
      tag_plain := plain_of_all rfl
      blanks_space := List.forall_mem_nil _
      body_quiet := quiet_of_not_mem (by decide)
      prose_quiet := quiet_of_not_mem (by decide) },
    { tag := []
      blanks := []
      body := ['f', 'n', '\n']
      prose := []
      tag_plain := plain_of_all rfl
      blanks_space := List.forall_mem_nil _
      body_quiet := quiet_of_not_mem (by decide)
      prose_quiet := quiet_of_not_mem (by decide) }]
  prose_quiet := quiet_of_not_mem (by decide)

theorem tomlFirst_prose :
    extractRust (.ofList tomlFirst.text) = .ofList ['t', 'h', 'e', 'n'] ∧
      extractRust (.ofList tomlFirst.text) ≠ .ofList tomlFirst.wanted := by
  have hthen : extractRust (.ofList tomlFirst.text) = .ofList ['t', 'h', 'e', 'n'] := by
    rw [extractRust_ofList]
    exact congrArg String.ofList (by decide)
  have hwanted : tomlFirst.wanted = ['f', 'n'] := by decide
  rw [hthen, hwanted, Ne, String.ofList_inj]
  exact ⟨rfl, by decide⟩

end Milo.Host
