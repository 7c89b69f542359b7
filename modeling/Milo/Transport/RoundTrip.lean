import Milo.Host.Transport
import Milo.Transport.Stream

namespace Milo.Transport

open Milo.Engine.Link
open Milo.Rust (Build)

-- What is left to read after some calls of a blocking reader.
def inputAfter (read : List Bytes → Reading) : Nat → List Bytes → List Bytes
  | 0, input => input
  | calls + 1, input => inputAfter read calls (read input).rest

-- A blocking reader that takes each of these frames off the head of its input.
def Reads (read : List Bytes → Reading) (frame : Frame) : Prop :=
  ∀ input more, input.flatten = frame.serialize ++ more →
    (read input).result = some (.ok frame) ∧ (read input).rest.flatten = more

theorem readings_frames {read : List Bytes → Reading} {frames : List Frame}
    (hread : ∀ frame ∈ frames, Reads read frame) {input : List Bytes}
    (h : input.flatten = frames.flatMap Frame.serialize) :
    (readings read frames.length input).map (·.result) = frames.map (fun frame => some (.ok frame)) ∧
      (inputAfter read frames.length input).flatten = [] := by
  induction frames generalizing input with
  | nil => exact ⟨rfl, h⟩
  | cons frame frames ih =>
      rw [List.flatMap_cons] at h
      obtain ⟨hresult, hrest⟩ := hread frame List.mem_cons_self input _ h
      obtain ⟨hresults, hleft⟩ := ih (fun frame' hmem => hread frame' (List.mem_cons_of_mem _ hmem)) hrest
      simp only [List.length_cons, readings, inputAfter, hresult, Option.isSome_some, if_true,
        List.map_cons, hresults]
      exact ⟨trivial, hleft⟩

-- However the encodings of a list of frames are cut, the three decoders read back
-- this list and nothing else, and the host's encoder and the receiver's agree.
theorem frames_read_back (build : Build) (frames : List Frame)
    (hbound : ∀ frame ∈ frames, frame.payload.length ≤ MAX_FRAME_LEN) :
    (∀ input : List Bytes, input.flatten = frames.flatMap Frame.serialize →
      (readings readFrame frames.length input).map (·.result) =
          frames.map (fun frame => some (.ok frame)) ∧
        (inputAfter readFrame frames.length input).flatten = []) ∧
    (∀ input : List Bytes, input.flatten = frames.flatMap Frame.serialize →
      (readings (embeddedReadFrame build) frames.length input).map (·.result) =
          frames.map (fun frame => some (.ok frame)) ∧
        (inputAfter (embeddedReadFrame build) frames.length input).flatten = []) ∧
    (∀ packets : List Packet, packetBytes packets = frames.flatMap Frame.serialize →
      picoFrames [] packets = frames ∧ picoBuffer [] packets = []) ∧
    ∀ frame ∈ frames, Host.encodeFrame frame.opcode.toNat frame.payload = some frame.serialize := by
  have hfits : ∀ frame ∈ frames, frame.payload.length ≤ U32_MAX := fun frame hmem =>
    (hbound frame hmem).trans MAX_FRAME_LEN_le
  refine ⟨fun input h => ?_, fun input h => ?_, fun packets h => ?_, fun frame hmem => ?_⟩
  · exact readings_frames (fun frame hmem _ _ => readFrame_serialize (hbound frame hmem)) h
  · exact readings_frames (fun frame hmem _ _ => embeddedReadFrame_serialize build (hbound frame hmem)) h
  · have hover : ¬Overlong ([] ++ packetBytes packets) := by
      rw [h]
      exact frames_not_overlong hbound
    obtain ⟨hframes, hunread⟩ := frames_stream hbound
    have hpico := picoFrames_eq [] packets framing_link.next_nil hover
    rw [List.nil_append, h, hframes, hunread] at hpico
    exact hpico
  · exact Host.encodeFrame_eq_serialize frame (hfits frame hmem)

-- A discovery request behind an empty push, cut inside both headers.
def cutPackets : List Packet :=
  [⟨[0x02, 0x00], by decide, by decide⟩, ⟨[0x00, 0x00, 0x00, 0x01, 0x00], by decide, by decide⟩,
    ⟨[0x00, 0x00, 0x00], by decide, by decide⟩]

theorem cutPackets_read_back :
    picoFrames [] cutPackets =
      [{ opcode := OP_BYTECODE_PUSH, payload := [] }, { opcode := OP_DISCOVERY, payload := [] }] :=
  ((frames_read_back ⟨64, by decide, false⟩
    [{ opcode := OP_BYTECODE_PUSH, payload := [] }, { opcode := OP_DISCOVERY, payload := [] }]
    (by decide)).2.2.1 cutPackets (by decide)).1

end Milo.Transport
