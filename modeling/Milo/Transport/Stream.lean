import Milo.Engine.Link.Stream
import Milo.Transport.Bound

namespace Milo.Transport

open Milo.Lib Milo.Engine.Link
open Milo.Rust (Build)

theorem headFrame_of_short {buf : Bytes} (h : bufferHead buf = .short) :
    headFrame MAX_FRAME_LEN buf = none := by
  cases hh : headFrame MAX_FRAME_LEN buf with
  | none => rfl
  | some pair =>
      have hframe : bufferHead buf = .frame pair.1 pair.2 := bufferHead_eq_frame.mpr hh
      rw [hframe] at h
      cases h

theorem headFrame_of_oversized {buf : Bytes} (h : bufferHead buf = .oversized) :
    headFrame MAX_FRAME_LEN buf = none := by
  cases hh : headFrame MAX_FRAME_LEN buf with
  | none => rfl
  | some pair =>
      have hframe : bufferHead buf = .frame pair.1 pair.2 := bufferHead_eq_frame.mpr hh
      rw [hframe] at h
      cases h

-- A header over the bound stays one, whatever comes behind it.
theorem oversized_append {buf : Bytes} (h : bufferHead buf = .oversized) (more : Bytes) :
    bufferHead (buf ++ more) = .oversized := by
  unfold bufferHead at h
  split at h
  · rename_i opcode b0 b1 b2 b3 tail
    dsimp only at h
    split_ifs at h with hbig
    simp only [List.cons_append, bufferHead, if_pos hbig]
  · cases h

-- The stream comes to a header over the bound.
def Overlong (stream : Bytes) : Prop := bufferHead (unread stream) = .oversized

instance (stream : Bytes) : Decidable (Overlong stream) :=
  inferInstanceAs (Decidable (bufferHead (unread stream) = .oversized))

theorem unread_append (stream more : Bytes) : unread (stream ++ more) = unread (unread stream ++ more) :=
  framing_link.leftover_append stream more

theorem completeFrames_append (stream more : Bytes) :
    completeFrames (stream ++ more) = completeFrames stream ++ completeFrames (unread stream ++ more) :=
  framing_link.items_append stream more

theorem unread_of_oversized {buf : Bytes} (h : bufferHead buf = .oversized) : unread buf = buf :=
  Framing.leftover_of_none (headFrame_of_oversized h)

-- Then it stays beyond reach, however the stream goes on.
theorem Overlong.append {stream : Bytes} (h : Overlong stream) (more : Bytes) :
    Overlong (stream ++ more) ∧ completeFrames (stream ++ more) = completeFrames stream := by
  have hover : bufferHead (unread stream ++ more) = .oversized := oversized_append h more
  constructor
  · unfold Overlong
    rwa [unread_append, unread_of_oversized hover]
  · have hnone : completeFrames (unread stream ++ more) = [] :=
      Framing.items_of_none (headFrame_of_oversized hover)
    rw [completeFrames_append, hnone, List.append_nil]

theorem overlong_of_append {stream more : Bytes} (h : ¬Overlong (stream ++ more)) : ¬Overlong stream :=
  fun hover => h (hover.append more).1

theorem frames_stream {frames : List Frame} (h : ∀ frame ∈ frames, frame.payload.length ≤ MAX_FRAME_LEN) :
    completeFrames (frames.flatMap Frame.serialize) = frames ∧
      unread (frames.flatMap Frame.serialize) = [] := by
  have hdecodes : ∀ frame ∈ frames,
      Framing.Decodes (headFrame MAX_FRAME_LEN) Frame.serialize frame :=
    fun frame hmem => decodes_serialize MAX_FRAME_LEN_le (h frame hmem)
  have henc := framing_link.items_encode frames hdecodes []
  have hnil := framing_link.next_nil
  rw [List.append_nil, Framing.items_of_none hnil, Framing.leftover_of_none hnil,
    List.append_nil] at henc
  exact henc

theorem frames_not_overlong {frames : List Frame}
    (h : ∀ frame ∈ frames, frame.payload.length ≤ MAX_FRAME_LEN) :
    ¬Overlong (frames.flatMap Frame.serialize) := by
  unfold Overlong
  rw [(frames_stream h).2]
  exact fun hover => by cases hover

-- What the parser loop of the Pico leaves in its buffer.
def resynchronized (buf : Bytes) : Bytes :=
  match bufferHead (unread buf) with
  | .oversized => []
  | _ => unread buf

theorem resynchronized_of_overlong {buf : Bytes} (h : Overlong buf) : resynchronized buf = [] := by
  simp only [resynchronized, show bufferHead (unread buf) = .oversized from h]

theorem resynchronized_of_not_overlong {buf : Bytes} (h : ¬Overlong buf) :
    resynchronized buf = unread buf := by
  unfold resynchronized
  split
  · contradiction
  · rfl

theorem picoParse_loop (buf : Bytes) (handed : List Frame) (fuel : Nat) (hf : buf.length < fuel) :
    loopFuel picoParse fuel (handed, buf) =
      some (handed ++ completeFrames buf, resynchronized buf) := by
  obtain ⟨fuel, rfl⟩ : ∃ n, fuel = n + 1 := ⟨fuel - 1, by omega⟩
  induction buf using framing_link.buffer_induction generalizing handed fuel with
  | none buf hnone =>
      have hunread : unread buf = buf := Framing.leftover_of_none hnone
      have hitems : completeFrames buf = [] := Framing.items_of_none hnone
      rw [hitems, List.append_nil]
      cases hb : bufferHead buf with
      | short =>
          have hover : ¬Overlong buf := by rw [Overlong, hunread, hb]; exact fun h => by cases h
          rw [loopFuel_succ_of_done picoParse (by simp only [picoParse, hb]; rfl),
            resynchronized_of_not_overlong hover, hunread]
      | oversized =>
          have hover : Overlong buf := by rw [Overlong, hunread, hb]
          rw [loopFuel_succ_of_done picoParse (by simp only [picoParse, hb]; rfl),
            resynchronized_of_overlong hover]
      | frame frame rest =>
          rw [bufferHead_eq_frame.mp hb] at hnone
          cases hnone
  | some buf frame rest hsome ih =>
      have hlt := framing_link.rest_lt hsome
      obtain ⟨fuel, rfl⟩ : ∃ n, fuel = n + 1 := ⟨fuel - 1, by omega⟩
      have hb := bufferHead_eq_frame.mpr hsome
      have hunread : unread buf = unread rest := framing_link.leftover_of_some hsome
      have hitems : completeFrames buf = frame :: completeFrames rest :=
        framing_link.items_of_some hsome
      rw [loopFuel_succ_of_next picoParse (by simp only [picoParse, hb]; rfl),
        ih (handed ++ [frame]) fuel (by omega), hitems, List.append_assoc, List.singleton_append]
      simp only [resynchronized, hunread]

theorem picoReceive_eq (frameBuf : Bytes) (packet : Packet) :
    picoReceive frameBuf packet =
      (completeFrames (frameBuf ++ packet.bytes), resynchronized (frameBuf ++ packet.bytes)) := by
  simp only [picoReceive, picoParse_loop _ [] _ (Nat.lt_succ_self _), Option.getD_some,
    List.nil_append]

def picoBuffer (frameBuf : Bytes) (packets : List Packet) : Bytes :=
  packets.foldl (fun frameBuf packet => (picoReceive frameBuf packet).2) frameBuf

def packetBytes (packets : List Packet) : Bytes := packets.flatMap (·.bytes)

theorem packetBytes_nil : packetBytes [] = [] := rfl

theorem packetBytes_cons (packet : Packet) (packets : List Packet) :
    packetBytes (packet :: packets) = packet.bytes ++ packetBytes packets := List.flatMap_cons

theorem packetBytes_append (packets packets' : List Packet) :
    packetBytes (packets ++ packets') = packetBytes packets ++ packetBytes packets' :=
  List.flatMap_append

-- Without a header over the bound the Pico gets exactly the frames of the stream,
-- however it is cut into packets.
theorem picoFrames_eq (frameBuf : Bytes) (packets : List Packet)
    (hbuf : headFrame MAX_FRAME_LEN frameBuf = none)
    (hover : ¬Overlong (frameBuf ++ packetBytes packets)) :
    picoFrames frameBuf packets = completeFrames (frameBuf ++ packetBytes packets) ∧
      picoBuffer frameBuf packets = unread (frameBuf ++ packetBytes packets) := by
  induction packets generalizing frameBuf with
  | nil =>
      simp only [packetBytes, List.flatMap_nil, List.append_nil]
      exact ⟨(Framing.items_of_none hbuf).symm, (Framing.leftover_of_none hbuf).symm⟩
  | cons packet packets ih =>
      have hbytes : frameBuf ++ packetBytes (packet :: packets) =
          (frameBuf ++ packet.bytes) ++ packetBytes packets := by
        rw [packetBytes_cons, List.append_assoc]
      rw [hbytes] at hover ⊢
      have hfirst : ¬Overlong (frameBuf ++ packet.bytes) := overlong_of_append hover
      have hrest : resynchronized (frameBuf ++ packet.bytes) = unread (frameBuf ++ packet.bytes) :=
        resynchronized_of_not_overlong hfirst
      have hlater : ¬Overlong (unread (frameBuf ++ packet.bytes) ++ packetBytes packets) := by
        unfold Overlong at hover ⊢
        rwa [← unread_append]
      obtain ⟨hframes, hbuffer⟩ := ih (unread (frameBuf ++ packet.bytes))
        (framing_link.next_leftover _) hlater
      constructor
      · rw [picoFrames, picoReceive_eq, hrest, hframes, ← completeFrames_append]
      · rw [picoBuffer, List.foldl_cons, picoReceive_eq, hrest, ← picoBuffer, hbuffer,
          ← unread_append]

-- A std reader fills its buffer with the head of what comes in.
theorem readExact_of_le {input : List Bytes} {n : Nat} (h : n ≤ input.flatten.length) :
    ∃ rest, readExact input n = some (input.flatten.take n, rest) ∧
      rest.flatten = input.flatten.drop n := by
  cases hr : readExact input n with
  | none =>
      have := readExact_eq_none hr
      omega
  | some pair =>
      have hflat := readExact_flatten hr
      have hlen := readExact_length hr
      refine ⟨pair.2, ?_, ?_⟩
      · rw [hflat, ← hlen, List.take_left]
      · rw [hflat, ← hlen, List.drop_left]

theorem readExact_append {input : List Bytes} {bytes more : Bytes}
    (h : input.flatten = bytes ++ more) :
    ∃ rest, readExact input bytes.length = some (bytes, rest) ∧ rest.flatten = more := by
  have hlen : bytes.length ≤ input.flatten.length := by simp [h]
  obtain ⟨rest, hr, hrest⟩ := readExact_of_le hlen
  refine ⟨rest, ?_, ?_⟩
  · rw [hr, h, List.take_left]
  · rw [hrest, h, List.drop_left]

-- The header and the payload of a frame at the head of what comes in.
theorem readExact_serialize {input : List Bytes} {frame : Frame} {more : Bytes}
    (hfits : frame.payload.length ≤ U32_MAX) (h : input.flatten = frame.serialize ++ more) :
    ∃ b0 b1 b2 b3 rest rest', readExact input 5 = some ([frame.opcode, b0, b1, b2, b3], rest) ∧
      fromBeBytes b0 b1 b2 b3 = frame.payload.length ∧
      readExact rest frame.payload.length = some (frame.payload, rest') ∧ rest'.flatten = more := by
  unfold U32_MAX at hfits
  have hlt : frame.payload.length < 2 ^ 32 := by omega
  obtain ⟨b0, b1, b2, b3, hbytes, hlen⟩ := fromBeBytes_toBeBytes (UInt32.ofNat frame.payload.length)
  rw [UInt32.toNat_ofNat_of_lt' hlt] at hlen
  have hheader : input.flatten = [frame.opcode, b0, b1, b2, b3] ++ (frame.payload ++ more) := by
    rw [h, Frame.serialize, hbytes]
    simp
  obtain ⟨rest, hr, hrest⟩ := readExact_append hheader
  obtain ⟨rest', hr', hrest'⟩ := readExact_append hrest
  exact ⟨b0, b1, b2, b3, rest, rest', hr, hlen, hr', hrest'⟩

theorem readFrame_serialize {input : List Bytes} {frame : Frame} {more : Bytes}
    (hbound : frame.payload.length ≤ MAX_FRAME_LEN) (h : input.flatten = frame.serialize ++ more) :
    (readFrame input).result = some (.ok frame) ∧ (readFrame input).rest.flatten = more := by
  obtain ⟨b0, b1, b2, b3, rest, rest', hr, hlen, hr', hrest⟩ :=
    readExact_serialize (hbound.trans MAX_FRAME_LEN_le) h
  simp only [readFrame, hr, hlen, if_neg (Nat.not_lt_of_le hbound), hr']
  exact ⟨trivial, hrest⟩

theorem embeddedReadFrame_serialize (build : Build) {input : List Bytes} {frame : Frame} {more : Bytes}
    (hbound : frame.payload.length ≤ MAX_FRAME_LEN) (h : input.flatten = frame.serialize ++ more) :
    (embeddedReadFrame build input).result = some (.ok frame) ∧
      (embeddedReadFrame build input).rest.flatten = more := by
  obtain ⟨b0, b1, b2, b3, rest, rest', hr, hlen, hr', hrest⟩ :=
    readExact_serialize (hbound.trans MAX_FRAME_LEN_le) h
  have hbuf := zeroes_of_le build (hlen.trans_le hbound)
  simp only [embeddedReadFrame, hr, hbuf, hlen, hr']
  exact ⟨trivial, hrest⟩

end Milo.Transport
