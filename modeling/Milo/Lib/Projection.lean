import Mathlib.Data.List.Basic

namespace Milo.Lib

-- Machines that answer each action. One of them may take actions that another knows
-- nothing of.
section Projection

variable {α γ β σ τ : Type}

-- The answers to the actions that a view shows, in their order.
def observed (step : σ → α → β × σ) (view : α → Option γ) : σ → List α → List β
  | _, [] => []
  | s, a :: as =>
      match view a with
      | some _ => (step s a).1 :: observed step view (step s a).2 as
      | none => observed step view (step s a).2 as

def answers (step : σ → α → β × σ) (s : σ) (as : List α) : List β := observed step some s as

def finalState (step : σ → α → β × σ) (s : σ) (as : List α) : σ :=
  as.foldl (fun s a => (step s a).2) s

-- What the view shows is answered alike, and a relation between the states is kept by
-- every action.
structure Projects (step : σ → α → β × σ) (step' : τ → γ → β × τ) (view : α → Option γ)
    (Rel : σ → τ → Prop) : Prop where
  shown : ∀ s t a c, Rel s t → view a = some c →
    (step s a).1 = (step' t c).1 ∧ Rel (step s a).2 (step' t c).2
  hidden : ∀ s t a, Rel s t → view a = none → Rel (step s a).2 t

variable {step : σ → α → β × σ} {step' : τ → γ → β × τ} {view : α → Option γ} {Rel : σ → τ → Prop}

-- A run looks like the run of what the view shows of it.
theorem Projects.observed_eq (h : Projects step step' view Rel) {s : σ} {t : τ} (hrel : Rel s t)
    (as : List α) : observed step view s as = answers step' t (as.filterMap view) := by
  induction as generalizing s t with
  | nil => rfl
  | cons a as ih =>
      cases hview : view a with
      | none =>
          rw [List.filterMap_cons_none hview, ← ih (h.hidden s t a hrel hview)]
          simp only [observed, hview]
      | some c =>
          obtain ⟨hanswer, hnext⟩ := h.shown s t a c hrel hview
          rw [List.filterMap_cons_some hview]
          simp only [observed, hview, answers, hanswer, ih hnext]

theorem Projects.finalState_rel (h : Projects step step' view Rel) {s : σ} {t : τ} (hrel : Rel s t)
    (as : List α) : Rel (finalState step s as) (finalState step' t (as.filterMap view)) := by
  induction as generalizing s t with
  | nil => exact hrel
  | cons a as ih =>
      cases hview : view a with
      | none =>
          rw [List.filterMap_cons_none hview]
          exact ih (h.hidden s t a hrel hview)
      | some c =>
          rw [List.filterMap_cons_some hview]
          exact ih (h.shown s t a c hrel hview).2

end Projection

end Milo.Lib
