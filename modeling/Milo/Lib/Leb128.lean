import Mathlib.Data.Nat.Bitwise
import Mathlib.Data.List.Basic

namespace Milo.Lib.Leb128

-- The unsigned LEB128 numbers of at most width bits: seven bits a byte, lowest
-- first, the high bit set on every byte but the last. Padding is accepted as
-- long as it stays within the width.
def decode (width : Nat) : List UInt8 → Option (Nat × List UInt8)
  | [] => none
  | byte :: rest =>
      if byte.toNat < 128 then
        if byte.toNat < 2 ^ width then some (byte.toNat, rest) else none
      else if 7 < width then
        match decode (width - 7) rest with
        | none => none
        | some (high, tail) => some (byte.toNat - 128 + 128 * high, tail)
      else none

def Encodes (width value : Nat) (bytes : List UInt8) : Prop :=
  decode width bytes = some (value, [])

theorem decode_cons_eq_some {width : Nat} {byte : UInt8} {rest : List UInt8} {value : Nat}
    {tail : List UInt8} (h : decode width (byte :: rest) = some (value, tail)) :
    (byte.toNat < 128 ∧ byte.toNat < 2 ^ width ∧ value = byte.toNat ∧ tail = rest) ∨
    (128 ≤ byte.toNat ∧ 7 < width ∧
      ∃ high, decode (width - 7) rest = some (high, tail) ∧
        value = byte.toNat - 128 + 128 * high) := by
  simp only [decode] at h
  split_ifs at h with hlast hfit hmore
  · obtain ⟨rfl, rfl⟩ : byte.toNat = value ∧ rest = tail := by simpa using h
    exact .inl ⟨hlast, hfit, rfl, rfl⟩
  · cases hd : decode (width - 7) rest with
    | none => simp [hd] at h
    | some pair =>
        obtain ⟨high, tail'⟩ := pair
        obtain ⟨rfl, rfl⟩ : byte.toNat - 128 + 128 * high = value ∧ tail' = tail := by
          simpa [hd] using h
        exact .inr ⟨by omega, hmore, high, rfl, rfl⟩

theorem decode_lt {width : Nat} {bytes : List UInt8} {value : Nat} {tail : List UInt8}
    (h : decode width bytes = some (value, tail)) : value < 2 ^ width := by
  induction bytes generalizing width value with
  | nil => cases h
  | cons byte rest ih =>
      rcases decode_cons_eq_some h with ⟨_, hfit, rfl, _⟩ | ⟨hbig, hw, high, hd, rfl⟩
      · exact hfit
      · have hhigh := ih hd
        have hbyte := byte.toNat_lt
        have hpow : 2 ^ width = 128 * 2 ^ (width - 7) := by
          rw [show (128 : Nat) = 2 ^ 7 from rfl, ← Nat.pow_add, Nat.add_sub_of_le (by omega)]
        omega

-- A decoded number is a prefix of its input.
theorem decode_split {width : Nat} {bytes : List UInt8} {value : Nat} {tail : List UInt8}
    (h : decode width bytes = some (value, tail)) :
    ∃ used, bytes = used ++ tail ∧ Encodes width value used := by
  induction bytes generalizing width value with
  | nil => cases h
  | cons byte rest ih =>
      rcases decode_cons_eq_some h with ⟨hlast, hfit, rfl, rfl⟩ | ⟨hbig, hw, high, hd, rfl⟩
      · exact ⟨[byte], rfl, by simp [Encodes, decode, hlast, hfit]⟩
      · obtain ⟨used, rfl, hu⟩ := ih hd
        refine ⟨byte :: used, rfl, ?_⟩
        have hu' : decode (width - 7) used = some (high, []) := hu
        simp [Encodes, decode, hu', hw, Nat.not_lt.mpr hbig]

theorem decode_append {width : Nat} {bytes : List UInt8} {value : Nat} {tail : List UInt8}
    (h : decode width bytes = some (value, tail)) (more : List UInt8) :
    decode width (bytes ++ more) = some (value, tail ++ more) := by
  induction bytes generalizing width value with
  | nil => cases h
  | cons byte rest ih =>
      rcases decode_cons_eq_some h with ⟨hlast, hfit, rfl, rfl⟩ | ⟨hbig, hw, high, hd, rfl⟩
      · simp [decode, hlast, hfit]
      · simp [decode, ih hd, hw, Nat.not_lt.mpr hbig]

theorem Encodes.decode_append {width value : Nat} {bytes : List UInt8}
    (h : Encodes width value bytes) (more : List UInt8) :
    decode width (bytes ++ more) = some (value, more) := by
  simpa using Leb128.decode_append h more

end Milo.Lib.Leb128
