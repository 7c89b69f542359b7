import Milo.Engine.Link
import Milo.Lib.Framing

namespace Milo.Engine.Link

open Milo.Lib

theorem toBeBytes_toNat (n : UInt32) :
    (toBeBytes n).map UInt8.toNat =
      [n.toNat / 2 ^ 24 % 256, n.toNat / 2 ^ 16 % 256, n.toNat / 2 ^ 8 % 256, n.toNat % 256] := by
  simp [toBeBytes, Nat.shiftRight_eq_div_pow]

-- The two conversions of a length field undo each other.
theorem fromBeBytes_toBeBytes (n : UInt32) :
    ∃ b0 b1 b2 b3, toBeBytes n = [b0, b1, b2, b3] ∧ fromBeBytes b0 b1 b2 b3 = n.toNat := by
  refine ⟨_, _, _, _, rfl, ?_⟩
  have h := toBeBytes_toNat n
  have hlt := n.toNat_lt
  simp only [toBeBytes, List.map_cons, List.map_nil, List.cons.injEq, and_true] at h
  obtain ⟨h0, h1, h2, h3⟩ := h
  unfold fromBeBytes
  rw [h0, h1, h2, h3]
  omega

theorem fromBeBytes_lt (b0 b1 b2 b3 : UInt8) : fromBeBytes b0 b1 b2 b3 < 2 ^ 32 := by
  have h0 := b0.toNat_lt
  have h1 := b1.toNat_lt
  have h2 := b2.toNat_lt
  have h3 := b3.toNat_lt
  unfold fromBeBytes
  omega

theorem toBeBytes_fromBeBytes (b0 b1 b2 b3 : UInt8) :
    toBeBytes (UInt32.ofNat (fromBeBytes b0 b1 b2 b3)) = [b0, b1, b2, b3] := by
  have h := toBeBytes_toNat (UInt32.ofNat (fromBeBytes b0 b1 b2 b3))
  have h0 := b0.toNat_lt
  have h1 := b1.toNat_lt
  have h2 := b2.toNat_lt
  have h3 := b3.toNat_lt
  rw [UInt32.toNat_ofNat_of_lt' (fromBeBytes_lt b0 b1 b2 b3)] at h
  apply List.map_injective_iff.mpr (fun _ _ => UInt8.toNat_inj.mp)
  rw [h]
  simp only [List.map_cons, List.map_nil, fromBeBytes, List.cons.injEq, and_true]
  refine ⟨?_, ?_, ?_, ?_⟩ <;> omega

theorem serialize_of_length {opcode b0 b1 b2 b3 : UInt8} {payload : Bytes}
    (h : payload.length = fromBeBytes b0 b1 b2 b3) :
    Frame.serialize { opcode := opcode, payload := payload } =
      opcode :: b0 :: b1 :: b2 :: b3 :: payload := by
  simp only [Frame.serialize, h, toBeBytes_fromBeBytes, List.cons_append, List.nil_append]

-- The first frame of a byte stream whose length fields are at most bound.
def headFrame (bound : Nat) : Bytes → Option (Frame × Bytes)
  | opcode :: b0 :: b1 :: b2 :: b3 :: rest =>
      let len := fromBeBytes b0 b1 b2 b3
      if len ≤ bound ∧ len ≤ rest.length then
        some ({ opcode := opcode, payload := rest.take len }, rest.drop len)
      else none
  | _ => none

-- A length field cannot say more.
def U32_MAX : Nat := 2 ^ 32 - 1

theorem headFrame_eq_some {bound : Nat} (hbound : bound ≤ U32_MAX) {buf rest : Bytes}
    {frame : Frame} :
    headFrame bound buf = some (frame, rest) ↔
      buf = frame.serialize ++ rest ∧ frame.payload.length ≤ bound := by
  unfold U32_MAX at hbound
  constructor
  · intro h
    unfold headFrame at h
    split at h
    · rename_i opcode b0 b1 b2 b3 tail
      dsimp only at h
      split_ifs at h with hlen
      obtain ⟨rfl, rfl⟩ := Prod.mk.inj (Option.some.inj h)
      have hpayload : (tail.take (fromBeBytes b0 b1 b2 b3)).length = fromBeBytes b0 b1 b2 b3 := by
        rw [List.length_take]
        omega
      refine ⟨?_, by rw [hpayload]; exact hlen.1⟩
      simp only [serialize_of_length hpayload, List.cons_append, List.take_append_drop]
    · cases h
  · rintro ⟨rfl, hle⟩
    obtain ⟨b0, b1, b2, b3, hbytes, hlen⟩ := fromBeBytes_toBeBytes (UInt32.ofNat frame.payload.length)
    have hfits : frame.payload.length < 2 ^ 32 := by omega
    rw [UInt32.toNat_ofNat_of_lt' hfits] at hlen
    have hcond : frame.payload.length ≤ bound ∧
        frame.payload.length ≤ (frame.payload ++ rest).length := ⟨hle, by simp⟩
    simp only [Frame.serialize, hbytes, List.cons_append, List.nil_append, headFrame, hlen,
      if_pos hcond, List.take_left, List.drop_left]

theorem framing_headFrame {bound : Nat} (hbound : bound ≤ U32_MAX) : Framing (headFrame bound) where
  takes := by
    intro buf frame rest h
    obtain ⟨rfl, hle⟩ := (headFrame_eq_some hbound).mp h
    refine ⟨frame.serialize, List.cons_ne_nil _ _, rfl, fun more => ?_⟩
    exact (headFrame_eq_some hbound).mpr ⟨rfl, hle⟩

theorem decodes_serialize {bound : Nat} (hbound : bound ≤ U32_MAX) {frame : Frame}
    (h : frame.payload.length ≤ bound) : Framing.Decodes (headFrame bound) Frame.serialize frame :=
  fun _ => (headFrame_eq_some hbound).mpr ⟨rfl, h⟩

theorem MAX_FRAME_LEN_le : MAX_FRAME_LEN ≤ U32_MAX := by decide

theorem framing_link : Framing (headFrame MAX_FRAME_LEN) := framing_headFrame MAX_FRAME_LEN_le

-- The complete frames of a stream, up to a header over the bound.
def completeFrames (stream : Bytes) : List Frame := items (headFrame MAX_FRAME_LEN) stream

def unread (stream : Bytes) : Bytes := leftover (headFrame MAX_FRAME_LEN) stream

theorem bufferHead_eq_frame {buf rest : Bytes} {frame : Frame} :
    bufferHead buf = .frame frame rest ↔ headFrame MAX_FRAME_LEN buf = some (frame, rest) := by
  unfold bufferHead headFrame
  split
  · rename_i opcode b0 b1 b2 b3 tail
    dsimp only
    split_ifs <;> simp_all <;> omega
  · simp

end Milo.Engine.Link
