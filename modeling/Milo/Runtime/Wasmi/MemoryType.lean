import Milo.Runtime.WasmiError

namespace Milo.Runtime.Wasmi

open Milo.Rust

-- What wasmi is compiled for: a usize of at most 64 bits.
structure Arch extends Build where
  narrow : width ≤ 64

namespace Arch

variable (arch : Arch)

-- The call usize::try_from of a value that is not negative.
def tryUsize (n : Nat) : Option Nat := if n < 2 ^ arch.width then some n else none

-- The cast of a u64 to usize.
def asUsize (n : Nat) : Nat := n % 2 ^ arch.width

-- The answer of try_reserve to a vector of so many bytes: the allocator's, unless they are
-- more than an allocation may have.
def reserves (allocs : Bool) (bytes : Nat) : Prop := allocs = true ∧ bytes < 2 ^ (arch.width - 1)

instance (allocs : Bool) (bytes : Nat) : Decidable (arch.reserves allocs bytes) :=
  inferInstanceAs (Decidable (_ ∧ _))

theorem pow_width_le : 2 ^ arch.width ≤ 2 ^ 64 := Nat.pow_le_pow_right (by decide) arch.narrow

theorem half_lt : 2 ^ (arch.width - 1) ≤ 2 ^ 63 := by
  have := arch.narrow
  exact Nat.pow_le_pow_right (by decide) (by omega)

theorem pow_half : 2 ^ arch.width = 2 * 2 ^ (arch.width - 1) := by
  have hwide := arch.wide
  rw [← Nat.pow_succ']
  congr 1
  omega

end Arch

theorem width32_wide : 32 ≤ 32 := Nat.le_refl _

theorem width32_narrow : 32 ≤ 64 := by decide

-- The boards have a usize of 32 bits.
def arch32 : Arch where
  width := 32
  wide := width32_wide
  overflowChecks := false
  narrow := width32_narrow

-- u64::checked_add and u64::checked_mul.
def checkedAdd64 (a b : Nat) : Option Nat := if a + b < 2 ^ 64 then some (a + b) else none

def checkedMul64 (a b : Nat) : Option Nat := if a * b < 2 ^ 64 then some (a * b) else none

deriving instance DecidableEq for IndexType

namespace IndexType

def is64 : IndexType → Bool
  | .i32 => false
  | .i64 => true

def maxSize : IndexType → Nat
  | .i32 => 2 ^ 32
  | .i64 => 2 ^ 64

end IndexType

namespace MemoryType

def defaultPageSizeLog2 : UInt8 := 16

variable (ty : MemoryType)

def absoluteMax : Nat := ty.indexType.maxSize >>> ty.pageSizeLog2.toNat

def minimumByteSize : Option Nat :=
  if ty.minimum.toNat > ty.absoluteMax then none
  else some (ty.minimum.toNat <<< ty.pageSizeLog2.toNat)

def maximumByteSize : Option Nat :=
  match ty.maximum with
  | some max =>
      if max.toNat > ty.absoluteMax then none else some (max.toNat <<< ty.pageSizeLog2.toNat)
  | none => some ty.indexType.maxSize

def pageSize : Nat := 1 <<< ty.pageSizeLog2.toNat

-- The checks of MemoryTypeBuilder::build.
def validate : Except MemoryError Unit :=
  if ty.pageSizeLog2 ≠ 0 ∧ ty.pageSizeLog2 ≠ defaultPageSizeLog2 then .error .invalidMemoryType
  else if ty.minimumByteSize = none then .error .invalidMemoryType
  else
    match ty.maximum with
    | some max =>
        if ty.maximumByteSize = none then .error .invalidMemoryType
        else if ty.minimum > max then .error .invalidMemoryType
        else .ok ()
    | none => .ok ()

-- What a type is of which there may be a memory.
structure Valid : Prop where
  pageSizeLog2 : ty.pageSizeLog2 = 0 ∨ ty.pageSizeLog2 = defaultPageSizeLog2
  minimum_le : ty.minimum.toNat ≤ ty.absoluteMax
  maximum_le : ∀ max ∈ ty.maximum, ty.minimum ≤ max ∧ max.toNat ≤ ty.absoluteMax

variable {ty}

theorem minimumByteSize_eq_none_iff : ty.minimumByteSize = none ↔ ¬ty.minimum.toNat ≤ ty.absoluteMax := by
  unfold minimumByteSize
  split_ifs with h
  · exact iff_of_true rfl (by omega)
  · exact iff_of_false (by simp) (by omega)

theorem maximumByteSize_eq_none_iff {max : UInt64} (hmax : ty.maximum = some max) :
    ty.maximumByteSize = none ↔ ¬max.toNat ≤ ty.absoluteMax := by
  unfold maximumByteSize
  rw [hmax]
  dsimp only
  split_ifs with h
  · exact iff_of_true rfl (by omega)
  · exact iff_of_false (by simp) (by omega)

theorem validate_eq_ok_iff : ty.validate = .ok () ↔ ty.Valid := by
  unfold validate
  by_cases hpage : ty.pageSizeLog2 ≠ 0 ∧ ty.pageSizeLog2 ≠ defaultPageSizeLog2
  · rw [if_pos hpage]
    refine iff_of_false (by simp) fun h => ?_
    rcases h.pageSizeLog2 with hzero | hdefault
    · exact hpage.1 hzero
    · exact hpage.2 hdefault
  rw [if_neg hpage]
  have hpages : ty.pageSizeLog2 = 0 ∨ ty.pageSizeLog2 = defaultPageSizeLog2 := by
    by_contra hnot
    exact hpage (not_or.mp hnot)
  by_cases hle : ty.minimum.toNat ≤ ty.absoluteMax
  swap
  · rw [if_pos (minimumByteSize_eq_none_iff.mpr hle)]
    exact iff_of_false (by simp) fun h => hle h.minimum_le
  rw [if_neg fun h => minimumByteSize_eq_none_iff.mp h hle]
  cases hmax : ty.maximum with
  | none => exact iff_of_true rfl ⟨hpages, hle, fun max h => by rw [hmax] at h; cases h⟩
  | some max =>
      have hmem : max ∈ ty.maximum := by rw [hmax]; rfl
      dsimp only
      by_cases hover : max.toNat ≤ ty.absoluteMax
      swap
      · rw [if_pos ((maximumByteSize_eq_none_iff hmax).mpr hover)]
        exact iff_of_false (by simp) fun h => hover (h.maximum_le max hmem).2
      rw [if_neg fun h => (maximumByteSize_eq_none_iff hmax).mp h hover]
      by_cases hbelow : ty.minimum > max
      · rw [if_pos hbelow]
        exact iff_of_false (by simp) fun h => UInt64.not_le.mpr hbelow (h.maximum_le max hmem).1
      rw [if_neg hbelow]
      refine iff_of_true rfl ⟨hpages, hle, fun max' h => ?_⟩
      rw [hmax] at h
      obtain rfl := Option.some.inj h
      exact ⟨UInt64.not_lt.mp hbelow, hover⟩

-- MemoryTypeBuilder::build.
def build (ty : MemoryType) : Except MemoryError { ty : MemoryType // ty.Valid } :=
  match h : ty.validate with
  | .ok () => .ok ⟨ty, validate_eq_ok_iff.mp h⟩
  | .error error => .error error

theorem pageSize_pos (ty : MemoryType) : 0 < ty.pageSize := by
  unfold pageSize
  rw [Nat.one_shiftLeft]
  exact Nat.two_pow_pos _

theorem Valid.pageSize_eq (h : ty.Valid) : ty.pageSize = 1 ∨ ty.pageSize = 65536 := by
  unfold pageSize
  rcases h.pageSizeLog2 with hzero | hdefault
  · rw [hzero]
    exact .inl rfl
  · rw [hdefault]
    exact .inr rfl

theorem shiftLeft_eq (ty : MemoryType) (n : Nat) : n <<< ty.pageSizeLog2.toNat = n * ty.pageSize := by
  unfold pageSize
  rw [Nat.shiftLeft_eq, Nat.one_shiftLeft]

theorem shiftRight_eq (ty : MemoryType) (n : Nat) : n >>> ty.pageSizeLog2.toNat = n / ty.pageSize := by
  unfold pageSize
  rw [Nat.shiftRight_eq_div_pow, Nat.one_shiftLeft]

theorem absoluteMax_eq (ty : MemoryType) : ty.absoluteMax = ty.indexType.maxSize / ty.pageSize :=
  ty.shiftRight_eq _

-- As many pages as a type may have are at most what its index addresses.
theorem absoluteMax_mul_le (ty : MemoryType) : ty.absoluteMax * ty.pageSize ≤ ty.indexType.maxSize := by
  rw [absoluteMax_eq]
  exact Nat.div_mul_le_self _ _

end MemoryType

end Milo.Runtime.Wasmi
