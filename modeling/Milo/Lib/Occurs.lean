import Mathlib.Data.List.Infix

-- Where a word occurs in a text that is put together from pieces.
namespace Milo.Lib

variable {α : Type}

theorem prefix_append_cons_iff {word left right : List α} {mark : α} (hmark : mark ∉ word) :
    word <+: left ++ mark :: right ↔ word <+: left := by
  induction left generalizing word with
  | nil =>
      cases word with
      | nil => simp
      | cons letter word =>
          refine iff_of_false (fun h => hmark ?_) fun h => ?_
          · rw [(List.cons_prefix_cons.mp h).1]
            exact List.mem_cons_self
          · simp at h
  | cons first left ih =>
      cases word with
      | nil => simp
      | cons letter word =>
          rw [List.cons_append, List.cons_prefix_cons, List.cons_prefix_cons,
            ih fun h => hmark (List.mem_cons_of_mem _ h)]

-- A word occurs on one side of a letter that it does not have.
theorem infix_append_cons_iff {word left right : List α} {mark : α} (hmark : mark ∉ word) :
    word <:+: left ++ mark :: right ↔ word <:+: left ∨ word <:+: right := by
  induction left with
  | nil =>
      have hprefix : word <+: [] ++ mark :: right ↔ word <+: [] := prefix_append_cons_iff hmark
      rw [List.nil_append] at hprefix ⊢
      rw [List.infix_cons_iff, hprefix, List.infix_nil, List.prefix_nil]
  | cons first left ih =>
      have hprefix : word <+: (first :: left) ++ mark :: right ↔ word <+: first :: left :=
        prefix_append_cons_iff hmark
      rw [List.cons_append] at hprefix ⊢
      rw [List.infix_cons_iff, List.infix_cons_iff, hprefix, ih, or_assoc]

-- Nor does it occur across a seam beside which such a letter stands.
theorem infix_append_iff_of_head {word left right : List α} (h : ∀ mark ∈ right.head?, mark ∉ word) :
    word <:+: left ++ right ↔ word <:+: left ∨ word <:+: right := by
  cases right with
  | nil =>
      rw [List.append_nil, List.infix_nil]
      refine ⟨.inl, ?_⟩
      rintro (hleft | rfl)
      · exact hleft
      · exact List.nil_infix
  | cons mark right =>
      have hmark := h mark rfl
      have hright : word <:+: [] ++ mark :: right ↔ word <:+: [] ∨ word <:+: right :=
        infix_append_cons_iff hmark
      rw [List.nil_append, List.infix_nil] at hright
      rw [infix_append_cons_iff hmark, hright]
      refine or_congr_right ⟨.inr, ?_⟩
      rintro (rfl | hlater)
      · exact List.nil_infix
      · exact hlater

theorem infix_append_iff_of_last {word left right : List α}
    (h : ∀ mark ∈ left.getLast?, mark ∉ word) :
    word <:+: left ++ right ↔ word <:+: left ∨ word <:+: right := by
  have hflip : ∀ mark ∈ left.reverse.head?, mark ∉ word.reverse := by
    intro mark hmem
    rw [List.mem_reverse]
    exact h mark (List.head?_reverse ▸ hmem)
  rw [← List.reverse_infix, List.reverse_append, infix_append_iff_of_head hflip,
    List.reverse_infix, List.reverse_infix, or_comm]

-- Two letters do not follow each other in the text, nor where the first goes before it.
def Apart (first second : α) (text : List α) : Prop := ¬[first, second] <:+: first :: text

instance [DecidableEq α] (first second : α) (text : List α) : Decidable (Apart first second text) :=
  inferInstanceAs (Decidable (¬_))

namespace Apart

variable {first second : α} {left right text : List α}

theorem infix_or (head : α) (h : [first, second] <:+: head :: (left ++ right)) :
    [first, second] <:+: head :: left ∨ [first, second] <:+: first :: right := by
  induction left generalizing head with
  | nil =>
      rcases List.infix_cons_iff.mp h with hhere | hlater
      · obtain ⟨rfl, hsecond⟩ := List.cons_prefix_cons.mp hhere
        exact .inr (List.infix_cons_iff.mpr (.inl hhere))
      · exact .inr (List.infix_cons_iff.mpr (.inr hlater))
  | cons next left ih =>
      rcases List.infix_cons_iff.mp h with hhere | hlater
      · obtain ⟨rfl, hnext⟩ := List.cons_prefix_cons.mp hhere
        obtain ⟨rfl, -⟩ := List.cons_prefix_cons.mp hnext
        exact .inl ⟨[], left, rfl⟩
      · rcases ih next hlater with hleft | hright
        · exact .inl (List.infix_cons_iff.mpr (.inr hleft))
        · exact .inr hright

theorem append (hleft : Apart first second left) (hright : Apart first second right) :
    Apart first second (left ++ right) := by
  intro h
  rcases infix_or first h with h | h
  · exact hleft h
  · exact hright h

theorem of_not_mem (h : second ∉ text) (hne : first ≠ second) : Apart first second text := by
  intro hoccurs
  have hmem : second ∈ first :: text := hoccurs.subset (by simp)
  rcases List.mem_cons.mp hmem with heq | hmem
  · exact hne heq.symm
  · exact h hmem

-- A word that begins with the two letters does not occur in it.
theorem not_infix (h : Apart first second text) (word : List α) :
    ¬first :: second :: word <:+: text := by
  intro hword
  have htwo : [first, second] <:+: first :: second :: word := ⟨[], word, rfl⟩
  exact h (List.infix_cons_iff.mpr (.inr (htwo.trans hword)))

end Apart

end Milo.Lib
