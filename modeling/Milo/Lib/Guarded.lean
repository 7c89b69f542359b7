import Mathlib.Data.List.Basic

namespace Milo.Lib

-- Runs whose actions meet a condition on the state they find.
section Guarded

variable {σ α : Type} (step : σ → α → σ) (allowed : σ → α → Prop)

def AllMeet : σ → List α → Prop
  | _, [] => True
  | s, a :: as => allowed s a ∧ AllMeet (step s a) as

variable {step allowed} {s : σ}

theorem AllMeet.left {as bs : List α} (h : AllMeet step allowed s (as ++ bs)) :
    AllMeet step allowed s as := by
  induction as generalizing s with
  | nil => trivial
  | cons a as ih => exact ⟨h.1, ih h.2⟩

theorem AllMeet.append {as bs : List α} (h : AllMeet step allowed s as)
    (h' : AllMeet step allowed (as.foldl step s) bs) : AllMeet step allowed s (as ++ bs) := by
  induction as generalizing s with
  | nil => exact h'
  | cons a as ih => exact ⟨h.1, ih h.2 h'⟩

-- What every such action keeps holds in the end.
theorem AllMeet.invariant {motive : σ → Prop}
    (hstep : ∀ s a, motive s → allowed s a → motive (step s a)) {as : List α}
    (h : AllMeet step allowed s as) (h0 : motive s) : motive (as.foldl step s) := by
  induction as generalizing s with
  | nil => exact h0
  | cons a as ih => exact ih h.2 (hstep s a h0 h.1)

-- Where an action keeps a good state good just when it is allowed, all the states on the way
-- are good just when every action is allowed.
theorem prefixes_good_iff {motive good : σ → Prop} (hstep : ∀ s a, motive s → motive (step s a))
    (hallowed : ∀ s a, motive s → good s → (good (step s a) ↔ allowed s a)) {as : List α}
    (h0 : motive s) (hgood : good s) :
    (∀ pre, pre <+: as → good (pre.foldl step s)) ↔ AllMeet step allowed s as := by
  induction as generalizing s with
  | nil =>
      refine iff_of_true (fun pre hpre => ?_) trivial
      rw [List.prefix_nil.mp hpre]
      exact hgood
  | cons a as ih =>
      constructor
      · intro h
        have hnext : good (step s a) := h [a] ⟨as, rfl⟩
        refine ⟨(hallowed s a h0 hgood).mp hnext, (ih (hstep s a h0) hnext).mp fun pre hpre => ?_⟩
        exact h (a :: pre) (List.cons_prefix_cons.mpr ⟨rfl, hpre⟩)
      · rintro ⟨hfirst, hrest⟩ pre hpre
        have hnext := (hallowed s a h0 hgood).mpr hfirst
        obtain rfl | ⟨tail, rfl, htail⟩ := List.prefix_cons_iff.mp hpre
        · exact hgood
        · exact (ih (hstep s a h0) hnext).mpr hrest tail htail

end Guarded

end Milo.Lib
