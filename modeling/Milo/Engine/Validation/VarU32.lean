import Milo.Engine.Validation.Number

-- The reader of LEB128 numbers that runs the module, beside that of the import gate.
namespace Milo.Engine.Validation

open Milo.Lib Milo.Rust

inductive BinaryReaderErrorKind where
  | custom
  | invalid
deriving DecidableEq, Repr

structure BinaryReaderError where
  message : String
  kind : BinaryReaderErrorKind
  offset : Nat
  neededHint : Option Nat
deriving DecidableEq, Repr

namespace BinaryReaderError

def new (message : String) (offset : Nat) : BinaryReaderError where
  message := message
  kind := .custom
  offset := offset
  neededHint := none

def eof (offset neededHint : Nat) : BinaryReaderError :=
  { new "unexpected end-of-file" offset with neededHint := some neededHint }

end BinaryReaderError

structure BinaryReader where
  buffer : Bytes
  position : Nat
  originalOffset : Nat
deriving DecidableEq, Repr

namespace BinaryReader

def originalPosition (reader : BinaryReader) : Nat := reader.originalOffset + reader.position

def readU8 (reader : BinaryReader) : Except BinaryReaderError UInt8 × BinaryReader :=
  match reader.buffer[reader.position]? with
  | some b => (.ok b, { reader with position := reader.position + 1 })
  | none => (.error (.eof reader.originalPosition 1), reader)

def varU32Body :
    UInt32 × Nat × BinaryReader →
      Flow (UInt32 × Nat × BinaryReader) (Except BinaryReaderError UInt32 × BinaryReader)
  | (result, shift, reader) =>
      match reader.readU8 with
      | (.error e, reader) => .done (.error e, reader)
      | (.ok byte, reader) =>
          let result := result ||| ((byte &&& 0x7F).toUInt32 <<< UInt32.ofNat shift)
          if 25 ≤ shift ∧ byte >>> UInt8.ofNat (32 - shift) ≠ 0 then
            let msg :=
              if byte &&& 0x80 ≠ 0 then "invalid var_u32: integer representation too long"
              else "invalid var_u32: integer too large"
            .done (.error (.new msg (reader.originalPosition - 1)), reader)
          else if byte &&& 0x80 = 0 then .done (.ok result, reader)
          else .next (result, shift + 7, reader)

-- Every iteration but the last reads a byte; none is a loop that is never left.
def readVarU32Big (reader : BinaryReader) (byte : UInt8) :
    Option (Except BinaryReaderError UInt32 × BinaryReader) :=
  loopFuel varU32Body (reader.buffer.length + 1) ((byte &&& 0x7F).toUInt32, 7, reader)

def readVarU32 (reader : BinaryReader) : Option (Except BinaryReaderError UInt32 × BinaryReader) :=
  match reader.readU8 with
  | (.error e, reader) => some (.error e, reader)
  | (.ok byte, reader) =>
      if byte &&& 0x80 = 0 then some (.ok byte.toUInt32, reader) else reader.readVarU32Big byte

-- What there is left to read.
def rest (reader : BinaryReader) : Bytes := reader.buffer.drop reader.position

def skip (reader : BinaryReader) (n : Nat) : BinaryReader :=
  { reader with position := reader.position + n }

theorem readU8_nil {reader : BinaryReader} (h : reader.rest = []) :
    reader.readU8 = (.error (.eof reader.originalPosition 1), reader) := by
  unfold readU8
  rw [List.getElem?_eq_none (List.drop_eq_nil_iff.mp h)]

theorem readU8_cons {reader : BinaryReader} {byte : UInt8} {tail : Bytes}
    (h : reader.rest = byte :: tail) : reader.readU8 = (.ok byte, reader.skip 1) := by
  have hget : reader.buffer[reader.position]? = some byte := by
    rw [← List.head?_drop]
    exact congrArg List.head? h
  rw [readU8, hget]
  rfl

theorem rest_skip_one {reader : BinaryReader} {byte : UInt8} {tail : Bytes}
    (h : reader.rest = byte :: tail) : (reader.skip 1).rest = tail := by
  unfold rest at h
  rw [rest, skip, ← List.drop_drop, h]
  rfl

theorem shiftRight_eq_zero (byte : UInt8) : byte >>> UInt8.ofNat (32 - 28) = 0 ↔ byte.toNat < 16 := by
  have hbytes : ∀ n : Fin 256, UInt8.ofNat n.val >>> UInt8.ofNat (32 - 28) = 0 ↔ n.val < 16 := by
    decide +kernel
  have hbyte := hbytes ⟨byte.toNat, byte.toNat_lt⟩
  rwa [UInt8.ofNat_toNat] at hbyte

theorem continuation_not {byte : UInt8} (hbig : 128 ≤ byte.toNat) : ¬byte &&& 0x80 = 0 := by
  rw [continuation_iff]
  omega

-- The shifts of the bytes behind the first.
def IsShift (shift : Nat) : Prop := shift = 7 ∨ shift = 14 ∨ shift = 21 ∨ shift = 28

-- Only the last of them leaves bits of a byte unused.
theorem unused_iff {shift : Nat} (hshift : IsShift shift) (byte : UInt8) :
    25 ≤ shift ∧ byte >>> UInt8.ofNat (32 - shift) ≠ 0 ↔ shift = 28 ∧ 16 ≤ byte.toNat := by
  rcases hshift with rfl | rfl | rfl | rfl
  · simp
  · simp
  · simp
  · rw [Ne, shiftRight_eq_zero, Nat.not_lt]
    simp

section Loop

variable {reader : BinaryReader} {result : UInt32} {shift : Nat} {byte : UInt8} {tail : Bytes}

theorem varU32Body_last (hshift : IsShift shift) (hresult : result.toNat < 2 ^ shift)
    (hrest : reader.rest = byte :: tail) (hlast : byte.toNat < 128) (hfit : byte.toNat < 2 ^ (32 - shift)) :
    varU32Body (result, shift, reader) =
      .done (.ok (UInt32.ofNat (result.toNat + byte.toNat * 2 ^ shift)), reader.skip 1) := by
  have hlt : shift < 32 := by
    unfold IsShift at hshift
    omega
  have hpow : 2 ^ (32 - shift) * 2 ^ shift = 2 ^ 32 := by
    rw [← Nat.pow_add, Nat.sub_add_cancel hlt.le]
  have hacc := accumulate_toNat result byte shift hlt hresult (by
    rw [Nat.mod_eq_of_lt hlast, ← hpow]
    exact Nat.mul_lt_mul_of_pos_right hfit (Nat.two_pow_pos shift))
  rw [Nat.mod_eq_of_lt hlast] at hacc
  have hused : ¬(25 ≤ shift ∧ byte >>> UInt8.ofNat (32 - shift) ≠ 0) := by
    rw [unused_iff hshift]
    rintro ⟨rfl, hbyte⟩
    omega
  simp only [varU32Body, readU8_cons hrest, if_neg hused, (continuation_iff byte).mpr hlast, ite_true]
  rw [← hacc, UInt32.ofNat_toNat]

theorem varU32Body_next (hshift : IsShift shift) (hresult : result.toNat < 2 ^ shift)
    (hrest : reader.rest = byte :: tail) (hbig : 128 ≤ byte.toNat) (hmore : 7 < 32 - shift) :
    ∃ result' : UInt32, result'.toNat = result.toNat + (byte.toNat - 128) * 2 ^ shift ∧
      result'.toNat < 2 ^ (shift + 7) ∧ IsShift (shift + 7) ∧
      varU32Body (result, shift, reader) = .next (result', shift + 7, reader.skip 1) := by
  have hmod : byte.toNat % 128 = byte.toNat - 128 := by
    have := byte.toNat_lt
    omega
  have hsum := accumulate_lt hresult byte
  have hle : 2 ^ (shift + 7) ≤ 2 ^ 32 := Nat.pow_le_pow_right (by omega) (by omega)
  have hacc := accumulate_toNat result byte shift (by omega) hresult (by omega)
  have hused : ¬(25 ≤ shift ∧ byte >>> UInt8.ofNat (32 - shift) ≠ 0) := by
    rw [unused_iff hshift]
    rintro ⟨rfl, -⟩
    omega
  refine ⟨_, hmod ▸ hacc, hacc ▸ hsum, ?_, ?_⟩
  · unfold IsShift at hshift ⊢
    omega
  · simp only [varU32Body, readU8_cons hrest, if_neg hused, if_neg (continuation_not hbig)]

theorem varU32Body_error (result : UInt32) (hshift : IsShift shift) (hrest : reader.rest = byte :: tail)
    (hnone : Leb128.decode (32 - shift) (byte :: tail) = none) (hend : byte.toNat < 128 ∨ shift = 28) :
    ∃ e, varU32Body (result, shift, reader) = .done (.error e, reader.skip 1) := by
  have hunused : 25 ≤ shift ∧ byte >>> UInt8.ofNat (32 - shift) ≠ 0 := by
    rw [unused_iff hshift]
    rcases hshift with rfl | rfl | rfl | rfl
    all_goals
      simp only [Leb128.decode] at hnone
      split_ifs at hnone
      all_goals omega
  simp only [varU32Body, readU8_cons hrest, if_pos hunused]
  exact ⟨_, rfl⟩

-- The loop and the format go on alike: with a number they both find it.
theorem varU32Loop_of_decode {data : Bytes} (hrest : reader.rest = data) (hshift : IsShift shift)
    (hresult : result.toNat < 2 ^ shift) {fuel : Nat} (hfuel : data.length < fuel) {high : Nat}
    (h : Leb128.decode (32 - shift) data = some (high, tail)) :
    loopFuel varU32Body fuel (result, shift, reader) =
      some (.ok (UInt32.ofNat (result.toNat + high * 2 ^ shift)),
        reader.skip (data.length - tail.length)) := by
  induction data generalizing reader result shift fuel high with
  | nil => cases h
  | cons byte data ih =>
      obtain ⟨fuel, rfl⟩ := Nat.exists_eq_add_of_lt (Nat.zero_lt_of_lt hfuel)
      rw [Nat.zero_add]
      rcases Leb128.decode_cons_eq_some h with ⟨hlast, hfit, rfl, rfl⟩ | ⟨hbig, hmore, high, hd, rfl⟩
      · rw [loopFuel_succ_of_done _ (varU32Body_last hshift hresult hrest hlast hfit)]
        simp
      · obtain ⟨result', hvalue, hresult', hshift', hbody⟩ :=
          varU32Body_next hshift hresult hrest hbig hmore
        have hlen : tail.length ≤ data.length := by
          obtain ⟨used, rfl, -⟩ := Leb128.decode_split hd
          simp
        rw [List.length_cons] at hfuel
        rw [loopFuel_succ_of_next _ hbody,
          ih (rest_skip_one hrest) hshift' hresult' (by omega) (by rwa [Nat.sub_add_eq]),
          hvalue]
        have hnumber : result.toNat + (byte.toNat - 128) * 2 ^ shift + high * 2 ^ (shift + 7) =
            result.toNat + (byte.toNat - 128 + 128 * high) * 2 ^ shift := by ring
        have hused : 1 + (data.length - tail.length) = (byte :: data).length - tail.length := by
          rw [List.length_cons]
          omega
        rw [hnumber, ← hused]
        simp only [skip, Nat.add_assoc]

-- Without a number both stop.
theorem varU32Loop_of_none {data : Bytes} (hrest : reader.rest = data) (hshift : IsShift shift)
    (hresult : result.toNat < 2 ^ shift) {fuel : Nat} (hfuel : data.length < fuel)
    (h : Leb128.decode (32 - shift) data = none) :
    ∃ e reader', loopFuel varU32Body fuel (result, shift, reader) = some (.error e, reader') := by
  induction data generalizing reader result shift fuel with
  | nil =>
      obtain ⟨fuel, rfl⟩ := Nat.exists_eq_add_of_lt (Nat.zero_lt_of_lt hfuel)
      have hbody : varU32Body (result, shift, reader) =
          .done (.error (.eof reader.originalPosition 1), reader) := by
        simp only [varU32Body, readU8_nil hrest]
      rw [Nat.zero_add, loopFuel_succ_of_done _ hbody]
      exact ⟨_, _, rfl⟩
  | cons byte data ih =>
      obtain ⟨fuel, rfl⟩ := Nat.exists_eq_add_of_lt (Nat.zero_lt_of_lt hfuel)
      rw [Nat.zero_add]
      by_cases hend : byte.toNat < 128 ∨ shift = 28
      · obtain ⟨e, hbody⟩ := varU32Body_error result hshift hrest h hend
        rw [loopFuel_succ_of_done _ hbody]
        exact ⟨_, _, rfl⟩
      · have hmore : 7 < 32 - shift := by
          unfold IsShift at hshift
          omega
        obtain ⟨result', -, hresult', hshift', hbody⟩ :=
          varU32Body_next hshift hresult hrest (by omega) hmore
        have hd : Leb128.decode (32 - (shift + 7)) data = none := by
          rw [Leb128.decode, if_neg fun hlast => hend (.inl hlast), if_pos hmore] at h
          rw [Nat.sub_add_eq]
          cases hd : Leb128.decode (32 - shift - 7) data with
          | none => rfl
          | some pair =>
              rw [hd] at h
              cases h
        rw [List.length_cons] at hfuel
        rw [loopFuel_succ_of_next _ hbody]
        exact ih (rest_skip_one hrest) hshift' hresult' (by omega) hd

end Loop

section First

variable {reader : BinaryReader} {byte : UInt8} {data : Bytes}

theorem first_toNat (hbig : 128 ≤ byte.toNat) : (byte &&& 0x7F).toUInt32.toNat = byte.toNat - 128 := by
  rw [payload_toNat]
  have := byte.toNat_lt
  omega

theorem first_lt (byte : UInt8) : (byte &&& 0x7F).toUInt32.toNat < 2 ^ 7 := by
  rw [payload_toNat]
  omega

theorem length_lt_of_rest (hrest : reader.rest = byte :: data) :
    data.length < (reader.skip 1).buffer.length + 1 := by
  have hlen : reader.rest.length ≤ reader.buffer.length := by
    unfold rest
    rw [List.length_drop]
    omega
  rw [hrest, List.length_cons] at hlen
  exact Nat.lt_succ_of_lt hlen

end First

-- It reads the numbers of the format, and ends on all others with an error.
theorem readVarU32_of_decode {reader : BinaryReader} {value : Nat} {tail : Bytes}
    (h : Leb128.decode 32 reader.rest = some (value, tail)) :
    reader.readVarU32 =
      some (.ok (UInt32.ofNat value), reader.skip (reader.rest.length - tail.length)) := by
  cases hrest : reader.rest with
  | nil =>
      rw [hrest] at h
      cases h
  | cons byte data =>
      rw [hrest] at h
      unfold readVarU32
      rw [readU8_cons hrest]
      dsimp only
      rcases Leb128.decode_cons_eq_some h with ⟨hlast, -, rfl, rfl⟩ | ⟨hbig, -, high, hd, rfl⟩
      · have hvalue : byte.toUInt32 = UInt32.ofNat byte.toNat := by
          rw [← UInt32.toNat_inj, UInt8.toNat_toUInt32, UInt32.toNat_ofNat', Nat.mod_eq_of_lt]
          omega
        rw [if_pos ((continuation_iff byte).mpr hlast), List.length_cons, Nat.add_sub_cancel_left, hvalue]
      · have hlen : tail.length ≤ data.length := by
          obtain ⟨used, rfl, -⟩ := Leb128.decode_split hd
          simp
        have hused : 1 + (data.length - tail.length) = (byte :: data).length - tail.length := by
          rw [List.length_cons]
          omega
        have hloop := varU32Loop_of_decode (rest_skip_one hrest) (.inl rfl) (first_lt byte)
          (length_lt_of_rest hrest) hd
        rw [if_neg (continuation_not hbig), readVarU32Big, ← hused]
        refine hloop.trans ?_
        rw [first_toNat hbig, Nat.mul_comm]
        simp only [skip, Nat.add_assoc]
        rfl

theorem readVarU32_of_none {reader : BinaryReader} (h : Leb128.decode 32 reader.rest = none) :
    ∃ e reader', reader.readVarU32 = some (.error e, reader') := by
  unfold readVarU32
  cases hrest : reader.rest with
  | nil =>
      rw [readU8_nil hrest]
      exact ⟨_, _, rfl⟩
  | cons byte data =>
      rw [readU8_cons hrest]
      rw [hrest, Leb128.decode] at h
      dsimp only
      by_cases hlast : byte.toNat < 128
      · rw [if_pos hlast, if_pos (by omega)] at h
        cases h
      · have hbig : 128 ≤ byte.toNat := Nat.le_of_not_lt hlast
        have hd : Leb128.decode (32 - 7) data = none := by
          rw [if_neg hlast, if_pos (by decide)] at h
          cases hd : Leb128.decode (32 - 7) data with
          | none => rfl
          | some pair =>
              rw [hd] at h
              cases h
        rw [if_neg (continuation_not hbig), readVarU32Big]
        exact varU32Loop_of_none (rest_skip_one hrest) (.inl rfl) (first_lt byte)
          (length_lt_of_rest hrest) hd

theorem readVarU32_ends (reader : BinaryReader) : ∃ outcome, reader.readVarU32 = some outcome := by
  cases hdecode : Leb128.decode 32 reader.rest with
  | none =>
      obtain ⟨e, failed, h⟩ := readVarU32_of_none hdecode
      exact ⟨_, h⟩
  | some pair => exact ⟨_, readVarU32_of_decode hdecode⟩

theorem readVarU32_eq_ok_iff (reader : BinaryReader) (value : UInt32) (reader' : BinaryReader) :
    reader.readVarU32 = some (.ok value, reader') ↔
      ∃ n tail, Leb128.decode 32 reader.rest = some (n, tail) ∧ value = UInt32.ofNat n ∧
        reader' = reader.skip (reader.rest.length - tail.length) := by
  constructor
  · intro h
    cases hdecode : Leb128.decode 32 reader.rest with
    | none =>
        obtain ⟨e, failed, herror⟩ := readVarU32_of_none hdecode
        rw [h] at herror
        cases herror
    | some pair =>
        have hread := readVarU32_of_decode hdecode
        rw [h] at hread
        cases hread
        exact ⟨pair.1, pair.2, rfl, rfl, rfl⟩
  · rintro ⟨n, tail, hdecode, rfl, rfl⟩
    exact readVarU32_of_decode hdecode

end BinaryReader

section Gate

-- The loop of the gate as a debug build runs it: a shift by 32 or more panics.
def readLeb128Checked : Bytes → UInt32 → Nat → Nat → Except Fault (UInt32 × Nat)
  | [], result, _, pos => .ok (result, pos)
  | byte :: data, result, shift, pos => do
      let shifted ←
        if shift < 32 then .ok ((byte &&& 0x7F).toUInt32 <<< UInt32.ofNat shift) else .error .panic
      let result := result ||| shifted
      if byte &&& 0x80 = 0 then return (result, pos + 1)
      else if 35 ≤ shift + 7 then return (result, pos + 1)
      else readLeb128Checked data result (shift + 7) (pos + 1)

theorem readLeb128Checked_eq (data : Bytes) (result : UInt32) {shift : Nat} (h7 : shift % 7 = 0)
    (hshift : shift < 35) (pos : Nat) :
    readLeb128Checked data result shift pos = .ok (readLeb128Loop data result shift pos) := by
  induction data generalizing result shift pos with
  | nil => rfl
  | cons byte data ih =>
      have hlt : shift < 32 := by omega
      simp only [readLeb128Checked, readLeb128Loop, if_pos hlt, bind, Except.bind]
      by_cases hlast : byte &&& 0x80 = 0
      · rw [if_pos hlast, if_pos hlast]
        rfl
      · rw [if_neg hlast, if_neg hlast]
        by_cases hlimit : 35 ≤ shift + 7
        · rw [if_pos hlimit, if_pos hlimit]
          rfl
        · rw [if_neg hlimit, if_neg hlimit]
          exact ih _ (by omega) (by omega) (pos + 1)

-- Seven bits a byte: behind shift bits there are as many bytes left as fit into 35 of them.
theorem readLeb128Loop_le (data : Bytes) (result : UInt32) {shift pos : Nat}
    (hshift : shift = 7 * pos) (hpos : pos < 5) : (readLeb128Loop data result shift pos).2 ≤ 5 := by
  induction data generalizing result shift pos with
  | nil => exact hpos.le
  | cons byte data ih =>
      unfold readLeb128Loop
      dsimp only
      split_ifs with hlast hlimit
      · exact hpos
      · exact hpos
      · exact ih _ (by omega) (by omega)

end Gate

theorem readLeb128U32_of_readVarU32 {reader reader' : BinaryReader} {value : UInt32}
    (h : reader.readVarU32 = some (.ok value, reader')) :
    readLeb128U32 reader.rest = (value, reader'.position - reader.position) ∧
      reader.position ≤ reader'.position := by
  obtain ⟨n, tail, hdecode, rfl, rfl⟩ := (reader.readVarU32_eq_ok_iff value reader').mp h
  refine ⟨?_, Nat.le_add_right _ _⟩
  rw [readLeb128U32_eq hdecode, BinaryReader.skip, Nat.add_sub_cancel_left]

-- The cursor of the gate moves with that of the reader.
theorem readNumber_of_readVarU32 {width : Nat} {reader reader' : BinaryReader} {value : UInt32}
    (hpos : reader.position ≤ reader.buffer.length) (hlen : reader.buffer.length < 2 ^ width)
    (h : reader.readVarU32 = some (.ok value, reader')) :
    readNumber width reader.buffer reader.position = .ok (value, reader'.position) := by
  obtain ⟨hread, hle⟩ := readLeb128U32_of_readVarU32 h
  unfold BinaryReader.rest at hread
  rw [readNumber_eq hpos hlen, hread, Nat.add_sub_cancel' hle]

-- Where the module's own reader finds a number the gate finds the same one and goes as far,
-- so do the format and the gate, and on any bytes the gate stays within five of them.
theorem readLeb128U32_agrees (reader : BinaryReader) (data : Bytes) :
    (∀ value reader', reader.readVarU32 = some (.ok value, reader') →
      readLeb128U32 reader.rest = (value, reader'.position - reader.position)) ∧
    (∀ value tail, Leb128.decode 32 data = some (value, tail) →
      readLeb128U32 data = (UInt32.ofNat value, data.length - tail.length)) ∧
    (readLeb128U32 data).2 ≤ min 5 data.length ∧
    readLeb128Checked data 0 0 0 = .ok (readLeb128U32 data) := by
  refine ⟨fun value reader' h => (readLeb128U32_of_readVarU32 h).1,
    fun value tail h => readLeb128U32_eq h, ?_, ?_⟩
  · exact le_min (readLeb128Loop_le data 0 rfl (by decide)) (readLeb128U32_le data)
  · exact readLeb128Checked_eq data 0 rfl (by decide) 0

theorem three_bytes_agree :
    readLeb128U32 [0xE5, 0x8E, 0x26] = (624485, 3) ∧
      (BinaryReader.mk [0xE5, 0x8E, 0x26] 0 0).readVarU32 =
        some (.ok 624485, BinaryReader.mk [0xE5, 0x8E, 0x26] 3 0) :=
  ⟨(readLeb128U32_agrees (BinaryReader.mk [0xE5, 0x8E, 0x26] 0 0) []).1 _
    (BinaryReader.mk [0xE5, 0x8E, 0x26] 3 0) rfl, rfl⟩

end Milo.Engine.Validation
