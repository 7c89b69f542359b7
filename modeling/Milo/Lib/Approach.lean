import Mathlib.Analysis.Convex.Basic
import Mathlib.Tactic.Linarith

-- Values that approach a target from step to step: behind a lag, or at a bounded rate.
namespace Milo.Lib

def clamp {α : Type} [LinearOrder α] (lo hi x : α) : α :=
  if x < lo then lo else if hi < x then hi else x

theorem clamp_cases {α : Type} [LinearOrder α] (lo hi x : α) :
    (x < lo ∧ clamp lo hi x = lo) ∨ (lo ≤ x ∧ hi < x ∧ clamp lo hi x = hi) ∨
      (lo ≤ x ∧ x ≤ hi ∧ clamp lo hi x = x) := by
  unfold clamp
  split_ifs with hlo hhi
  · exact .inl ⟨hlo, rfl⟩
  · exact .inr (.inl ⟨not_lt.mp hlo, hhi, rfl⟩)
  · exact .inr (.inr ⟨not_lt.mp hlo, not_lt.mp hhi, rfl⟩)

theorem clamp_mem_Icc {α : Type} [LinearOrder α] {lo hi : α} (h : lo ≤ hi) (x : α) :
    clamp lo hi x ∈ Set.Icc lo hi := by
  rcases clamp_cases lo hi x with ⟨-, hx⟩ | ⟨-, -, hx⟩ | ⟨hlo, hhi, hx⟩
  · rw [hx]
    exact ⟨le_rfl, h⟩
  · rw [hx]
    exact ⟨h, le_rfl⟩
  · rw [hx]
    exact ⟨hlo, hhi⟩

variable {α : Type} [Field α] [LinearOrder α]

-- A step of a first-order lag goes a part k of the way.
def lag (x target k : α) : α := x + (target - x) * k

-- A step at a bounded rate goes as far as it may.
def slew (x target most : α) : α := x + clamp (-most) most (target - x)

variable [IsStrictOrderedRing α] {a b k most target x : α}

theorem lag_mem_Icc (hx : x ∈ Set.Icc a b) (htarget : target ∈ Set.Icc a b) (hk : k ∈ Set.Icc 0 1) :
    lag x target k ∈ Set.Icc a b := by
  have hconvex : Convex α (Set.Icc a b) := convex_Icc a b
  have hmem := hconvex.add_smul_sub_mem hx htarget hk
  rwa [smul_eq_mul, mul_comm] at hmem

-- And what is left of it shrinks by that part, from below the target.
theorem sub_lag_le (hk : k ≤ 1) (h : target - x ≤ a) : target - lag x target k ≤ (1 - k) * a := by
  have hrest : target - lag x target k = (1 - k) * (target - x) := by
    unfold lag
    ring
  rw [hrest]
  exact mul_le_mul_of_nonneg_left h (sub_nonneg.mpr hk)

theorem abs_slew_sub_le (hmost : 0 ≤ most) : |slew x target most - x| ≤ most := by
  unfold slew
  rw [add_sub_cancel_left, abs_le]
  rcases clamp_cases (-most) most (target - x) with ⟨-, h⟩ | ⟨-, -, h⟩ | ⟨hlo, hhi, h⟩
  · rw [h]
    exact ⟨le_rfl, neg_le_self hmost⟩
  · rw [h]
    exact ⟨neg_le_self hmost, le_rfl⟩
  · rw [h]
    exact ⟨hlo, hhi⟩

-- It does not overshoot.
theorem slew_mem_uIcc (hmost : 0 ≤ most) : slew x target most ∈ Set.uIcc x target := by
  unfold slew
  rw [Set.mem_uIcc]
  rcases clamp_cases (-most) most (target - x) with ⟨hlo, h⟩ | ⟨-, hhi, h⟩ | ⟨-, -, h⟩
  · rw [h]
    exact .inr ⟨by linarith, by linarith⟩
  · rw [h]
    exact .inl ⟨by linarith, by linarith⟩
  · rw [h, add_sub_cancel]
    rcases le_total x target with hle | hle
    · exact .inl ⟨hle, le_rfl⟩
    · exact .inr ⟨le_rfl, hle⟩

-- It comes nearer by as much as it may, or gets there.
theorem abs_sub_slew_le (hmost : 0 ≤ most) : |target - slew x target most| ≤ max 0 (|target - x| - most) := by
  have hrest : target - slew x target most = target - x - clamp (-most) most (target - x) := by
    unfold slew
    ring
  rw [hrest]
  rcases clamp_cases (-most) most (target - x) with ⟨hlo, h⟩ | ⟨-, hhi, h⟩ | ⟨-, -, h⟩
  · rw [h, abs_of_nonpos (by linarith), abs_of_neg (by linarith)]
    exact le_max_of_le_right (by linarith)
  · rw [h, abs_of_nonneg (by linarith), abs_of_pos (by linarith)]
    exact le_max_of_le_right le_rfl
  · rw [h, sub_self, abs_zero]
    exact le_max_left _ _

theorem slew_mem_Icc (hmost : 0 ≤ most) (hx : x ∈ Set.Icc a b) (htarget : target ∈ Set.Icc a b) :
    slew x target most ∈ Set.Icc a b :=
  Set.uIcc_subset_Icc hx htarget (slew_mem_uIcc hmost)

end Milo.Lib
