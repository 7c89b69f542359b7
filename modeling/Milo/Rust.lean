import Mathlib.Data.List.Basic
import Mathlib.Data.Nat.Bitwise

namespace Milo

abbrev Bytes := List UInt8

-- How a computation of the receiver can fail to return a value.
inductive Fault where
  -- a slice or index out of range, or a failing expect
  | panic
  -- a loop that is never left
  | diverges
deriving DecidableEq, Repr

namespace Rust

theorem bind_eq_ok {ε α β : Type} {x : Except ε α} {f : α → Except ε β} {b : β} :
    x >>= f = .ok b ↔ ∃ a, x = .ok a ∧ f a = .ok b := by
  cases x with
  | error e =>
      constructor
      · intro h; cases h
      · rintro ⟨a, h, _⟩; cases h
  | ok a =>
      constructor
      · intro h; exact ⟨a, rfl, h⟩
      · rintro ⟨a', h, hf⟩
        cases h
        exact hf

-- A sequence of steps that all end or panic ends or panics.
theorem bind_ne_diverges {α β : Type} {x : Except Fault α} {f : α → Except Fault β}
    (hx : x ≠ .error .diverges) (hf : ∀ a, f a ≠ .error .diverges) :
    x >>= f ≠ .error .diverges := by
  cases x with
  | error fault =>
      intro h
      cases h
      exact hx rfl
  | ok a => exact hf a

theorem map_eq_ok {ε α β : Type} {x : Except ε α} {f : α → β} {b : β} :
    x.map f = .ok b ↔ ∃ a, x = .ok a ∧ f a = b := by
  cases x with
  | error e => simp [Except.map]
  | ok a => simp [Except.map]

theorem map_eq_ok_of_injective {ε α β : Type} {f : α → β} (hf : Function.Injective f)
    {x : Except ε α} {a : α} : x.map f = .ok (f a) ↔ x = .ok a := by
  rw [map_eq_ok]
  constructor
  · rintro ⟨b, hb, heq⟩
    rw [hb, hf heq]
  · intro h
    exact ⟨a, h, rfl⟩

-- Release-mode addition on a usize of width bits.
def add (width a b : Nat) : Nat := (a + b) % 2 ^ width

theorem add_eq_of_lt {width a b : Nat} (h : a + b < 2 ^ width) : add width a b = a + b :=
  Nat.mod_eq_of_lt h

-- The expression bytes[start..].
def sliceFrom (bytes : Bytes) (start : Nat) : Except Fault Bytes :=
  if start ≤ bytes.length then .ok (bytes.drop start) else .error .panic

-- The expression bytes[start..stop].
def slice (bytes : Bytes) (start stop : Nat) : Except Fault Bytes :=
  if start ≤ stop ∧ stop ≤ bytes.length then .ok ((bytes.take stop).drop start) else .error .panic

-- The expression bytes[i].
def index (bytes : Bytes) (i : Nat) : Except Fault UInt8 :=
  match bytes[i]? with
  | some byte => .ok byte
  | none => .error .panic

theorem index_eq_ok {bytes : Bytes} {i : Nat} {byte : UInt8} :
    index bytes i = .ok byte ↔ bytes[i]? = some byte := by
  unfold index
  cases bytes[i]? <;> simp

-- The statement dst[start..stop].copy_from_slice(src).
def copyFromSlice (dst : Bytes) (start stop : Nat) (src : Bytes) : Except Fault Bytes :=
  if start ≤ stop ∧ stop ≤ dst.length ∧ src.length = stop - start then
    .ok (dst.take start ++ src ++ dst.drop stop)
  else .error .panic

-- What a receiver is compiled for: the width of usize, at least that of u32, and
-- whether an overflowing addition panics (as in a debug build) or wraps.
structure Build where
  width : Nat
  wide : 32 ≤ width
  overflowChecks : Bool

namespace Build

variable (build : Build)

def checkedAdd (bits a b : Nat) : Except Fault Nat :=
  if a + b < 2 ^ bits then .ok (a + b)
  else if build.overflowChecks then .error .panic
  else .ok (Rust.add bits a b)

-- The sum of two u32 values and of two usize values.
def addU32 (a b : UInt32) : Except Fault Nat := build.checkedAdd 32 a.toNat b.toNat

def addUsize (a b : Nat) : Except Fault Nat := build.checkedAdd build.width a b

-- The expression vec![0u8; n]: no allocation may exceed isize::MAX bytes.
def zeroes (n : Nat) : Except Fault (Vector UInt8 n) :=
  if n < 2 ^ (build.width - 1) then .ok (Vector.replicate n 0) else .error .panic

-- An overflowing sum is never the end of a range that begins at one of its terms.
theorem checkedAdd_eq_ok {bits a b n : Nat} (ha : a < 2 ^ bits) (hb : b < 2 ^ bits)
    (h : build.checkedAdd bits a b = .ok n) (hn : a ≤ n) : n = a + b ∧ a + b < 2 ^ bits := by
  unfold checkedAdd at h
  split_ifs at h with hlt hchecks
  · exact ⟨(Except.ok.inj h).symm, hlt⟩
  · have hmod : (a + b) % 2 ^ bits = n := Except.ok.inj h
    rw [Nat.mod_eq_sub_mod (by omega), Nat.mod_eq_of_lt (by omega)] at hmod
    omega

theorem checkedAdd_le {bits a b n : Nat} (h : build.checkedAdd bits a b = .ok n) : n ≤ a + b := by
  unfold checkedAdd at h
  split_ifs at h
  · exact Nat.le_of_eq (Except.ok.inj h).symm
  · exact Except.ok.inj h ▸ Nat.mod_le _ _

theorem checkedAdd_of_lt {bits a b : Nat} (h : a + b < 2 ^ bits) :
    build.checkedAdd bits a b = .ok (a + b) := if_pos h

theorem toNat_lt (a : UInt32) : a.toNat < 2 ^ build.width :=
  Nat.lt_of_lt_of_le a.toNat_lt (Nat.pow_le_pow_right (by decide) build.wide)

end Build

-- The call core::str::from_utf8(bytes).ok().
def fromUtf8 (bytes : Bytes) : Option String := String.fromUTF8? ⟨bytes.toArray⟩

-- The bytes of a string, as str::as_bytes and String::into_bytes give them.
def intoBytes (s : String) : Bytes := s.toByteArray.data.toList

theorem fromUtf8_intoBytes (s : String) : fromUtf8 (intoBytes s) = some s := by
  have hv : (ByteArray.mk s.toByteArray.data).IsValidUTF8 := s.isValidUTF8
  simp only [fromUtf8, intoBytes, Array.toArray_toList]
  exact dif_pos hv

end Rust

end Milo
