import Mathlib.Data.Fintype.Card
import Mathlib.Data.Finset.Range

namespace Milo.Lib

-- What one iteration of a loop does: carry on from a state, or leave with a
-- result.
inductive Flow (σ ρ : Type) where
  | next (state : σ)
  | done (result : ρ)
deriving DecidableEq, Repr

section Loop

variable {σ ρ : Type} (body : σ → Flow σ ρ)

def loopFuel : Nat → σ → Option ρ
  | 0, _ => none
  | fuel + 1, s =>
      match body s with
      | .next s' => loopFuel fuel s'
      | .done r => some r

def Halts (s : σ) : Prop := ∃ fuel r, loopFuel body fuel s = some r

-- The state at the head of each iteration, none once the loop has been left.
def visit (s : σ) : Nat → Option σ
  | 0 => some s
  | k + 1 =>
      match visit s k with
      | none => none
      | some s' =>
          match body s' with
          | .next s'' => some s''
          | .done _ => none

theorem loopFuel_succ_of_next {s s' : σ} (h : body s = .next s') (fuel : Nat) :
    loopFuel body (fuel + 1) s = loopFuel body fuel s' := by
  simp only [loopFuel, h]

theorem loopFuel_succ_of_done {s : σ} {r : ρ} (h : body s = .done r) (fuel : Nat) :
    loopFuel body (fuel + 1) s = some r := by
  simp only [loopFuel, h]

theorem loopFuel_mono {fuel fuel' : Nat} {s : σ} {r : ρ} (hle : fuel ≤ fuel')
    (h : loopFuel body fuel s = some r) : loopFuel body fuel' s = some r := by
  induction fuel generalizing fuel' s with
  | zero => cases h
  | succ fuel ih =>
      obtain ⟨fuel', rfl⟩ : ∃ n, fuel' = n + 1 := ⟨fuel' - 1, by omega⟩
      cases hb : body s with
      | next s' =>
          rw [loopFuel_succ_of_next body hb] at h ⊢
          exact ih (by omega) h
      | done r' =>
          rw [loopFuel_succ_of_done body hb] at h ⊢
          exact h

theorem halts_of_done {s : σ} {r : ρ} (h : body s = .done r) : Halts body s :=
  ⟨1, r, loopFuel_succ_of_done body h 0⟩

theorem halts_of_next {s s' : σ} (h : body s = .next s') (hs' : Halts body s') : Halts body s := by
  obtain ⟨fuel, r, hr⟩ := hs'
  exact ⟨fuel + 1, r, by rw [loopFuel_succ_of_next body h, hr]⟩

theorem next_of_not_halts {s : σ} (h : ¬Halts body s) :
    ∃ s', body s = .next s' ∧ ¬Halts body s' := by
  cases hb : body s with
  | next s' => exact ⟨s', rfl, fun hs' => h (halts_of_next body hb hs')⟩
  | done r => exact absurd (halts_of_done body hb) h

-- What a loop leaves with is what one of its iterations leaves with.
theorem done_of_loopFuel {fuel : Nat} {s : σ} {r : ρ} (h : loopFuel body fuel s = some r) :
    ∃ s', body s' = .done r := by
  induction fuel generalizing s with
  | zero => cases h
  | succ fuel ih =>
      cases hb : body s with
      | next s' =>
          rw [loopFuel_succ_of_next body hb] at h
          exact ih h
      | done r' =>
          rw [loopFuel_succ_of_done body hb] at h
          exact ⟨s, hb.trans (congrArg Flow.done (Option.some.inj h))⟩

-- A loop that from every state of a set goes on to a state of the set is never left.
theorem not_halts_of_recurrent (recurrent : Set σ)
    (hnext : ∀ s ∈ recurrent, ∃ s' ∈ recurrent, body s = .next s') {s : σ} (hs : s ∈ recurrent) :
    ¬Halts body s := by
  rintro ⟨fuel, r, hr⟩
  induction fuel generalizing s with
  | zero => cases hr
  | succ fuel ih =>
      obtain ⟨s', hs', hb⟩ := hnext s hs
      rw [loopFuel_succ_of_next body hb] at hr
      exact ih hs' hr

-- A measure that every repeated iteration decreases bounds the fuel.
theorem loopFuel_isSome_of_measure (measure : σ → Nat)
    (hdec : ∀ s s', body s = .next s' → measure s' < measure s) (fuel : Nat) (s : σ)
    (hf : measure s < fuel) : ∃ r, loopFuel body fuel s = some r := by
  induction fuel generalizing s with
  | zero => omega
  | succ fuel ih =>
      cases hb : body s with
      | next s' =>
          rw [loopFuel_succ_of_next body hb]
          exact ih s' (by have := hdec s s' hb; omega)
      | done r => exact ⟨r, loopFuel_succ_of_done body hb fuel⟩

theorem visit_succ_left {s s' : σ} (h : body s = .next s') (k : Nat) :
    visit body s (k + 1) = visit body s' k := by
  induction k with
  | zero => simp only [visit, h]
  | succ k ih =>
      rw [visit, ih, visit]

theorem visit_succ_of_done {s : σ} {r : ρ} (h : body s = .done r) (k : Nat) :
    visit body s (k + 1) = none := by
  induction k with
  | zero => simp only [visit, h]
  | succ k ih => rw [visit, ih]

-- Running out of fuel means exactly that the fuel-th iteration is entered.
theorem loopFuel_eq_none_iff (fuel : Nat) (s : σ) :
    loopFuel body fuel s = none ↔ ∃ s', visit body s fuel = some s' := by
  induction fuel generalizing s with
  | zero => simp [loopFuel, visit]
  | succ fuel ih =>
      cases hb : body s with
      | next s' => rw [loopFuel_succ_of_next body hb, visit_succ_left body hb, ih]
      | done r => simp [loopFuel_succ_of_done body hb, visit_succ_of_done body hb]

theorem not_halts_iff (s : σ) : ¬Halts body s ↔ ∀ k, ∃ s', visit body s k = some s' := by
  simp only [Halts, not_exists, ← Option.eq_none_iff_forall_ne_some, ← loopFuel_eq_none_iff]

theorem visit_add {s a : σ} {i : Nat} (h : visit body s i = some a) (k : Nat) :
    visit body s (i + k) = visit body a k := by
  induction k with
  | zero => simpa [visit] using h
  | succ k ih => rw [← Nat.add_assoc, visit, ih, visit]

theorem visit_of_le {s : σ} {i j : Nat} (hle : i ≤ j) {b : σ} (h : visit body s j = some b) :
    ∃ a, visit body s i = some a := by
  cases hi : visit body s i with
  | some a => exact ⟨a, rfl⟩
  | none =>
      have hnone : ∀ k, visit body s (i + k) = none := by
        intro k
        induction k with
        | zero => simpa using hi
        | succ k ih => rw [← Nat.add_assoc, visit, ih]
      have := hnone (j - i)
      rw [Nat.add_sub_of_le hle, h] at this
      cases this

-- A state met twice is met again and again.
theorem visit_of_revisit {s a : σ} {i j : Nat} (hij : i < j) (hi : visit body s i = some a)
    (hj : visit body s j = some a) (n : Nat) : visit body s (i + n * (j - i)) = some a := by
  induction n with
  | zero => simpa using hi
  | succ n ih =>
      have hperiod : visit body a (j - i) = some a := by
        rw [← visit_add body hi, Nat.add_sub_of_le (Nat.le_of_lt hij)]
        exact hj
      rw [Nat.succ_mul, ← Nat.add_assoc, visit_add body ih, hperiod]

theorem not_halts_of_revisit {s a : σ} {i j : Nat} (hij : i < j)
    (hi : visit body s i = some a) (hj : visit body s j = some a) : ¬Halts body s := by
  rw [not_halts_iff]
  intro k
  have hk := visit_of_revisit body hij hi hj k
  have hle : k ≤ i + k * (j - i) := by
    have := Nat.le_mul_of_pos_right k (show 0 < j - i by omega)
    omega
  exact visit_of_le body hle hk

-- With at most bound states to go on from, a loop that outlasts them has met one of
-- them twice.
theorem exists_revisit {s b : σ} (rank : σ → Nat) (hinj : Function.Injective rank) (bound : Nat)
    (hbound : ∀ a a', body a = .next a' → rank a < bound) (hb : visit body s (bound + 1) = some b) :
    ∃ i j a, i < j ∧ visit body s i = some a ∧ visit body s j = some a := by
  have : Nonempty σ := ⟨s⟩
  have hvisit : ∀ k < bound + 1, ∃ a, visit body s k = some a ∧ rank a < bound := by
    intro k hk
    obtain ⟨a, ha⟩ := visit_of_le body (Nat.le_of_lt hk) hb
    obtain ⟨a', ha'⟩ := visit_of_le body (show k + 1 ≤ bound + 1 by omega) hb
    refine ⟨a, ha, ?_⟩
    cases hba : body a with
    | next b' => exact hbound a b' hba
    | done r => simp [visit, ha, hba] at ha'
  choose! at_ hat using hvisit
  obtain ⟨i, hi, j, hj, hne, he⟩ := Finset.exists_ne_map_eq_of_card_lt_of_maps_to
    (s := Finset.range (bound + 1)) (t := Finset.range bound) (by simp)
    (f := fun k => rank (at_ k))
    (fun k hk => Finset.mem_coe.mpr (Finset.mem_range.mpr
      (hat k (Finset.mem_range.mp (Finset.mem_coe.mp hk))).2))
  have hi' := (hat i (Finset.mem_range.mp hi)).1
  have hj' := (hat j (Finset.mem_range.mp hj)).1
  rw [← hinj he] at hj'
  rcases Nat.lt_or_gt_of_ne hne with h | h
  · exact ⟨i, j, at_ i, h, hi', hj'⟩
  · exact ⟨j, i, at_ i, h, hj', hi'⟩

-- So one iteration more than that decides whether it ever ends.
theorem halts_iff_loopFuel (rank : σ → Nat) (hinj : Function.Injective rank) (bound : Nat)
    (hbound : ∀ a a', body a = .next a' → rank a < bound) (s : σ) :
    Halts body s ↔ ∃ r, loopFuel body (bound + 1) s = some r := by
  constructor
  · intro hh
    by_contra hnone
    obtain ⟨b, hb⟩ := (loopFuel_eq_none_iff body (bound + 1) s).mp
      (Option.eq_none_iff_forall_ne_some.mpr fun r hr => hnone ⟨r, hr⟩)
    obtain ⟨i, j, a, hij, hi, hj⟩ := exists_revisit body rank hinj bound hbound hb
    exact not_halts_of_revisit body hij hi hj hh
  · rintro ⟨r, hr⟩
    exact ⟨_, r, hr⟩

end Loop

end Milo.Lib
