import Milo.Engine.Validation
import Milo.Lib.Leb128
import Mathlib.Tactic.Ring

namespace Milo.Engine.Validation

open Milo.Lib Milo.Rust

theorem continuation_iff (byte : UInt8) : byte &&& 0x80 = 0 ↔ byte.toNat < 128 := by
  rw [← UInt8.toNat_inj, UInt8.toNat_and]
  have hbits : ∀ n : Fin 256, n.val &&& 128 = 0 ↔ n.val < 128 := by decide +kernel
  exact hbits ⟨byte.toNat, byte.toNat_lt⟩

theorem payload_toNat (byte : UInt8) : (byte &&& 0x7F).toUInt32.toNat = byte.toNat % 128 := by
  rw [UInt8.toNat_toUInt32, UInt8.toNat_and]
  exact Nat.and_two_pow_sub_one_eq_mod byte.toNat 7

-- While the accumulated value lies below the shift, the bitwise or is an addition.
theorem accumulate_toNat (result : UInt32) (byte : UInt8) (shift : Nat) (hs : shift < 32)
    (hr : result.toNat < 2 ^ shift) (hfit : byte.toNat % 128 * 2 ^ shift < 2 ^ 32) :
    (result ||| ((byte &&& 0x7F).toUInt32 <<< UInt32.ofNat shift)).toNat =
      result.toNat + byte.toNat % 128 * 2 ^ shift := by
  have hshift : (UInt32.ofNat shift).toNat % 32 = shift := by
    rw [UInt32.toNat_ofNat', Nat.mod_eq_of_lt (show shift < 2 ^ 32 by omega), Nat.mod_eq_of_lt hs]
  rw [UInt32.toNat_or, UInt32.toNat_shiftLeft, payload_toNat, hshift, Nat.shiftLeft_eq,
    Nat.mod_eq_of_lt hfit, Nat.or_comm, ← Nat.shiftLeft_eq,
    ← Nat.shiftLeft_add_eq_or_of_lt hr, Nat.add_comm]

theorem accumulate_lt {result : UInt32} {shift : Nat} (hr : result.toNat < 2 ^ shift) (byte : UInt8) :
    result.toNat + byte.toNat % 128 * 2 ^ shift < 2 ^ (shift + 7) := by
  calc
    result.toNat + byte.toNat % 128 * 2 ^ shift < 2 ^ shift + byte.toNat % 128 * 2 ^ shift :=
      Nat.add_lt_add_right hr _
    _ = (byte.toNat % 128 + 1) * 2 ^ shift := by ring
    _ ≤ 2 ^ 7 * 2 ^ shift := Nat.mul_le_mul_right _ (by omega)
    _ = 2 ^ (shift + 7) := by ring

theorem readLeb128Loop_pos (data : Bytes) (result : UInt32) (shift pos : Nat) :
    pos ≤ (readLeb128Loop data result shift pos).2 ∧
      (readLeb128Loop data result shift pos).2 ≤ pos + data.length := by
  induction data generalizing result shift pos with
  | nil => simp [readLeb128Loop]
  | cons byte data ih =>
      simp only [readLeb128Loop, List.length_cons]
      split_ifs
      · omega
      · omega
      · have := ih (result ||| (byte &&& 0x7F).toUInt32 <<< UInt32.ofNat shift) (shift + 7) (pos + 1)
        omega

theorem readLeb128U32_le (data : Bytes) : (readLeb128U32 data).2 ≤ data.length := by
  simpa [readLeb128U32] using (readLeb128Loop_pos data 0 0 0).2

-- The loop and the format agree from every byte of a number on; shift bits of it
-- are accumulated already.
theorem readLeb128Loop_eq (data : Bytes) (result : UInt32) (shift pos : Nat) (hs : shift ≤ 28)
    (h7 : shift % 7 = 0) (hr : result.toNat < 2 ^ shift) (value : Nat) (tail : Bytes)
    (h : Leb128.decode (32 - shift) data = some (value, tail)) :
    readLeb128Loop data result shift pos =
      (UInt32.ofNat (result.toNat + value * 2 ^ shift), pos + (data.length - tail.length)) := by
  induction data generalizing result shift pos value with
  | nil => cases h
  | cons byte data ih =>
      have hpow : 2 ^ (32 - shift) * 2 ^ shift = 2 ^ 32 := by
        rw [← Nat.pow_add, Nat.sub_add_cancel (by omega)]
      rcases Leb128.decode_cons_eq_some h with ⟨hlast, hfit, rfl, rfl⟩ | ⟨hbig, hw, high, hd, rfl⟩
      · have hacc := accumulate_toNat result byte shift (by omega) hr (by
          rw [Nat.mod_eq_of_lt hlast, ← hpow]
          exact Nat.mul_lt_mul_of_pos_right hfit (Nat.two_pow_pos shift))
        rw [Nat.mod_eq_of_lt hlast] at hacc
        simp only [readLeb128Loop, (continuation_iff byte).mpr hlast, ite_true]
        rw [← hacc, UInt32.ofNat_toNat]
        simp
      · have hcont : ¬byte &&& 0x80 = 0 := fun hc => by
          have := (continuation_iff byte).mp hc
          omega
        have hbyte := byte.toNat_lt
        have hmod : byte.toNat % 128 = byte.toNat - 128 := by omega
        have hsum := accumulate_lt hr byte
        have hle : 2 ^ (shift + 7) ≤ 2 ^ 32 := Nat.pow_le_pow_right (by omega) (by omega)
        have hacc := accumulate_toNat result byte shift (by omega) hr (by omega)
        have hlen : tail.length ≤ data.length := by
          obtain ⟨used, rfl, _⟩ := Leb128.decode_split hd
          simp
        simp only [readLeb128Loop, hcont, if_false, show ¬35 ≤ shift + 7 by omega]
        rw [ih _ (shift + 7) (pos + 1) (by omega) (by omega) (by rw [hacc]; exact hsum) high
          (by rwa [Nat.sub_add_eq]), hacc, hmod]
        have hvalue : result.toNat + (byte.toNat - 128) * 2 ^ shift + high * 2 ^ (shift + 7) =
            result.toNat + (byte.toNat - 128 + 128 * high) * 2 ^ shift := by
          ring
        have hused : pos + 1 + (data.length - tail.length) =
            pos + ((byte :: data).length - tail.length) := by
          simp only [List.length_cons]
          omega
        rw [hvalue, hused]

theorem readLeb128U32_eq {data : Bytes} {value : Nat} {tail : Bytes}
    (h : Leb128.decode 32 data = some (value, tail)) :
    readLeb128U32 data = (UInt32.ofNat value, data.length - tail.length) := by
  simpa [readLeb128U32] using readLeb128Loop_eq data 0 0 0 (by omega) rfl (by decide) value tail h

-- A number at the head of the bytes and what lies behind it.
def lebAt (data : Bytes) : Nat × Bytes :=
  ((readLeb128U32 data).1.toNat, data.drop (readLeb128U32 data).2)

theorem lebAt_encoded {value : Nat} {encoded : Bytes} (h : Leb128.Encodes 32 value encoded)
    (rest : Bytes) : lebAt (encoded ++ rest) = (value, rest) := by
  have hv : value < 2 ^ 32 := Leb128.decode_lt h
  simp only [lebAt, readLeb128U32_eq (h.decode_append rest), UInt32.toNat_ofNat', Nat.mod_eq_of_lt hv,
    List.length_append, Nat.add_sub_cancel, List.drop_left]

theorem lebAt_lt (data : Bytes) : (lebAt data).1 < 2 ^ 32 := UInt32.toNat_lt _

theorem lebAt_length_le (data : Bytes) : (lebAt data).2.length ≤ data.length := by
  simp [lebAt]

theorem readNumber_eq {width : Nat} {bytes : Bytes} {pos : Nat} (hpos : pos ≤ bytes.length)
    (hlen : bytes.length < 2 ^ width) :
    readNumber width bytes pos =
      .ok ((readLeb128U32 (bytes.drop pos)).1, pos + (readLeb128U32 (bytes.drop pos)).2) := by
  have hle := readLeb128U32_le (bytes.drop pos)
  simp only [List.length_drop] at hle
  simp only [readNumber, sliceFrom, hpos, if_true]
  rw [← add_eq_of_lt (show pos + (readLeb128U32 (bytes.drop pos)).2 < 2 ^ width by omega)]
  rfl

theorem readNumber_of_gt {width : Nat} {bytes : Bytes} {pos : Nat} (hpos : bytes.length < pos) :
    readNumber width bytes pos = .error .panic := by
  simp only [readNumber, sliceFrom, show ¬pos ≤ bytes.length by omega, if_false]
  rfl

end Milo.Engine.Validation
