import Mathlib.Data.List.Basic

namespace Milo.Lib

-- One action on each item of a list in turn. It changes the item and may raise; then the
-- items behind it are left as they are.
section Sweep

variable {σ ε ρ : Type} (act : σ → Except ε ρ × σ)

def sweep : List σ → Except ε (List ρ) × List σ
  | [] => (.ok [], [])
  | item :: items =>
      match act item with
      | (.error e, item) => (.error e, item :: items)
      | (.ok r, item) =>
          match sweep items with
          | (.error e, items) => (.error e, item :: items)
          | (.ok rs, items) => (.ok (r :: rs), item :: items)

-- The action under a handler, which answers with what was raised.
def caught (item : σ) : Except ε (Except ε ρ) × σ := (.ok (act item).1, (act item).2)

variable {act}

theorem sweep_cons_ok {item : σ} {r : ρ} (h : (act item).1 = .ok r) (items : List σ) :
    sweep act (item :: items) =
      ((sweep act items).1.map (r :: ·), (act item).2 :: (sweep act items).2) := by
  rcases hact : act item with ⟨outcome, after⟩
  rw [hact] at h
  obtain rfl : outcome = .ok r := h
  simp only [sweep, hact]
  rcases sweep act items with ⟨_ | _, rest⟩
  · rfl
  · rfl

theorem sweep_cons_error {item : σ} {e : ε} (h : (act item).1 = .error e) (items : List σ) :
    sweep act (item :: items) = (.error e, (act item).2 :: items) := by
  rcases hact : act item with ⟨outcome, after⟩
  rw [hact] at h
  obtain rfl : outcome = .error e := h
  simp only [sweep, hact]

-- A sweep comes to its end just when no action raises, and has then been at each item once.
theorem sweep_ok_iff (items : List σ) :
    (∃ rs, (sweep act items).1 = .ok rs) ↔ ∀ item ∈ items, ∃ r, (act item).1 = .ok r := by
  induction items with
  | nil => exact iff_of_true ⟨[], rfl⟩ fun item hitem => absurd hitem List.not_mem_nil
  | cons item items ih =>
      rw [List.forall_mem_cons, ← ih]
      cases hact : (act item).1 with
      | error e =>
          rw [sweep_cons_error hact]
          constructor
          · rintro ⟨rs, h⟩
            cases h
          · rintro ⟨⟨r, h⟩, -⟩
            cases h
      | ok r =>
          rw [sweep_cons_ok hact, and_iff_right ⟨r, rfl⟩]
          cases (sweep act items).1 with
          | error e =>
              constructor
              · rintro ⟨rs, h⟩
                cases h
              · rintro ⟨rs, h⟩
                cases h
          | ok rs => exact iff_of_true ⟨_, rfl⟩ ⟨_, rfl⟩

theorem sweep_of_ok {items : List σ} (h : ∀ item ∈ items, ∃ r, (act item).1 = .ok r) :
    (sweep act items).2 = items.map fun item => (act item).2 := by
  induction items with
  | nil => rfl
  | cons item items ih =>
      rw [List.forall_mem_cons] at h
      obtain ⟨⟨r, hr⟩, hrest⟩ := h
      rw [sweep_cons_ok hr, ih hrest, List.map_cons]

-- A sweep that raises has been at the items in front of the one that raised, and at that.
theorem sweep_raised {items : List σ} {e : ε} (h : (sweep act items).1 = .error e) :
    ∃ front item back, items = front ++ item :: back ∧ (act item).1 = .error e ∧
      (∀ item ∈ front, ∃ r, (act item).1 = .ok r) ∧
      (sweep act items).2 = front.map (fun item => (act item).2) ++ (act item).2 :: back := by
  induction items with
  | nil => cases h
  | cons item items ih =>
      cases hact : (act item).1 with
      | error e' =>
          rw [sweep_cons_error hact] at h ⊢
          obtain rfl := Except.error.inj h
          exact ⟨[], item, items, rfl, hact, fun item hitem => absurd hitem List.not_mem_nil, rfl⟩
      | ok r =>
          rw [sweep_cons_ok hact] at h ⊢
          have hrest : (sweep act items).1 = .error e := by
            cases hsweep : (sweep act items).1 with
            | error e' =>
                rw [hsweep] at h
                exact congrArg _ (Except.error.inj h)
            | ok rs =>
                rw [hsweep] at h
                cases h
          obtain ⟨front, raiser, back, rfl, hraiser, hfront, hitems⟩ := ih hrest
          refine ⟨item :: front, raiser, back, rfl, hraiser, ?_, congrArg ((act item).2 :: ·) hitems⟩
          exact List.forall_mem_cons.mpr ⟨⟨r, hact⟩, hfront⟩

-- What an action leaves alone in an item, a sweep leaves alone in the list.
theorem map_sweep {β : Type} {f : σ → β} (hf : ∀ item, f (act item).2 = f item) (items : List σ) :
    (sweep act items).2.map f = items.map f := by
  induction items with
  | nil => rfl
  | cons item items ih =>
      cases hact : (act item).1 with
      | error e => rw [sweep_cons_error hact, List.map_cons, hf, List.map_cons]
      | ok r => rw [sweep_cons_ok hact, List.map_cons, hf, ih, List.map_cons]

end Sweep

end Milo.Lib
