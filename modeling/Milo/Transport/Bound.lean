import Milo.Transport.Tcp

namespace Milo.Transport

open Milo.Lib Milo.Rust Milo.Engine.Link

-- What a reader did over a whole session: the payload buffers it sized from
-- length fields and the frames it handed to the dispatcher.
structure Trace where
  allocated : List Nat
  frames : List Frame

def Trace.Bounded (trace : Trace) : Prop :=
  (∀ len ∈ trace.allocated, len ≤ MAX_FRAME_LEN) ∧
    ∀ frame ∈ trace.frames, frame.payload.length ≤ MAX_FRAME_LEN

-- Calls of a blocking reader one after the other, up to one that waits for ever.
def readings (read : List Bytes → Reading) : Nat → List Bytes → List Reading
  | 0, _ => []
  | calls + 1, input =>
      read input :: (if (read input).result.isSome then readings read calls (read input).rest else [])

def handed (reading : Reading) : List Frame :=
  match reading.result with
  | some (.ok frame) => [frame]
  | _ => []

def blockingTrace (read : List Bytes → Reading) (calls : Nat) (input : List Bytes) : Trace where
  allocated := (readings read calls input).flatMap (·.allocated.toList)
  frames := (readings read calls input).flatMap handed

-- The accumulating readers copy the payload out of their buffer, into a vector of
-- the length of the frame they return.
def copyTrace (frames : List Frame) : Trace where
  allocated := frames.map (·.payload.length)
  frames := frames

def tcpFrames (t : TcpServerTransport) : List TcpServerTransport.Call → List Frame
  | [] => []
  | .write frame :: calls => tcpFrames (t.writeFrame frame).2 calls
  | .read :: calls =>
      match t.readFrame with
      | (.ok (.ok frame), t) => frame :: tcpFrames t calls
      | (.ok (.error _), t) => tcpFrames t calls
      | (.error _, _) => []

def picoFrames (frameBuf : Bytes) : List Packet → List Frame
  | [] => []
  | packet :: packets =>
      (picoReceive frameBuf packet).1 ++ picoFrames (picoReceive frameBuf packet).2 packets

-- The four frame readers of the receiver, each with what it is given to read.
inductive Session where
  | stdio (input : List Bytes) (calls : Nat)
  | tcp (network : Network) (calls : List TcpServerTransport.Call)
  | pico (packets : List Packet)
  | embedded (build : Build) (input : List Bytes) (calls : Nat)

def Session.trace : Session → Trace
  | .stdio input calls => blockingTrace readFrame calls input
  | .tcp network calls => copyTrace (tcpFrames (TcpServerTransport.bind network) calls)
  | .pico packets => copyTrace (picoFrames [] packets)
  | .embedded build input calls => blockingTrace (embeddedReadFrame build) calls input

-- The length fields of the first headers of a stream of frames, up to one that is more than
-- any buffer may have.
def declaredLengths (build : Build) : Nat → Bytes → List Nat
  | count + 1, _ :: b0 :: b1 :: b2 :: b3 :: rest =>
      let len := fromBeBytes b0 b1 b2 b3
      if len < 2 ^ (build.width - 1) then len :: declaredLengths build count (rest.drop len) else []
  | _, _ => []

def Session.DeclaresWithinBound : Session → Prop
  | .embedded build input calls =>
      ∀ len ∈ declaredLengths build calls input.flatten, len ≤ MAX_FRAME_LEN
  | _ => True

theorem mem_readings {read : List Bytes → Reading} {calls : Nat} {input : List Bytes}
    {reading : Reading} (h : reading ∈ readings read calls input) :
    ∃ input, reading = read input := by
  induction calls generalizing input with
  | zero => cases h
  | succ calls ih =>
      rcases List.mem_cons.mp h with rfl | h
      · exact ⟨input, rfl⟩
      · split_ifs at h
        · exact ih h
        · cases h

-- A reader whose every call stays within the bound stays within it for good.
theorem blockingTrace_bounded (read : List Bytes → Reading)
    (hread : ∀ input, (∀ len ∈ (read input).allocated, len ≤ MAX_FRAME_LEN) ∧
      ∀ frame, (read input).result = some (.ok frame) → frame.payload.length ≤ MAX_FRAME_LEN)
    (calls : Nat) (input : List Bytes) : (blockingTrace read calls input).Bounded := by
  constructor
  · intro len hl
    obtain ⟨reading, hr, hl⟩ := List.mem_flatMap.mp hl
    obtain ⟨input, rfl⟩ := mem_readings hr
    exact (hread input).1 len (Option.mem_toList.mp hl)
  · intro frame hf
    obtain ⟨reading, hr, hf⟩ := List.mem_flatMap.mp hf
    obtain ⟨input, rfl⟩ := mem_readings hr
    apply (hread input).2 frame
    unfold handed at hf
    split at hf
    · rename_i hres
      rw [hres, List.mem_singleton.mp hf]
    · cases hf

theorem readFrame_bounded (input : List Bytes) :
    (∀ len ∈ (readFrame input).allocated, len ≤ MAX_FRAME_LEN) ∧
      ∀ frame, (readFrame input).result = some (.ok frame) →
        frame.payload.length ≤ MAX_FRAME_LEN := by
  unfold readFrame
  split
  · rename_i opcode b0 b1 b2 b3 rest _
    dsimp only
    split_ifs with hbig
    · simp
    · split
      · simp only [Option.mem_def, Option.some.injEq, forall_eq', reduceCtorEq, false_imp_iff,
          implies_true, and_true]
        omega
      · rename_i payload rest' hr
        have hl := readExact_length hr
        constructor
        · intro len hlen
          rw [← Option.some.inj hlen]
          omega
        · intro frame hf
          obtain rfl := Except.ok.inj (Option.some.inj hf)
          dsimp only
          omega
  · simp

theorem copyTrace_bounded {frames : List Frame}
    (h : ∀ frame ∈ frames, frame.payload.length ≤ MAX_FRAME_LEN) : (copyTrace frames).Bounded := by
  refine ⟨fun len hl => ?_, h⟩
  obtain ⟨frame, hf, rfl⟩ := List.mem_map.mp hl
  exact h frame hf

theorem takeFrame_payload_le {t : TcpServerTransport} {frame : Frame}
    (h : t.takeFrame.1 = some frame) : frame.payload.length ≤ MAX_FRAME_LEN := by
  unfold TcpServerTransport.takeFrame at h
  split at h
  · cases h
  · cases h
  · rename_i hb
    exact Option.some.inj h ▸ bufferHead_payload_le hb

theorem tcp_readSocket_payload_le {t : TcpServerTransport} {frame : Frame}
    (h : t.readSocket.1 = .ok frame) : frame.payload.length ≤ MAX_FRAME_LEN := by
  unfold TcpServerTransport.readSocket at h
  split at h
  · cases h
  · split at h
    · rename_i ht
      obtain rfl := Except.ok.inj h
      exact takeFrame_payload_le (congrArg Prod.fst ht)
    · cases h
  · cases h
  · cases h

theorem tcp_readFrame_payload_le {t : TcpServerTransport} {frame : Frame}
    (h : t.readFrame.1 = .ok (.ok frame)) : frame.payload.length ≤ MAX_FRAME_LEN := by
  unfold TcpServerTransport.readFrame at h
  split at h
  · cases Except.ok.inj h
  · split at h
    · rename_i ht
      obtain rfl := Except.ok.inj (Except.ok.inj h)
      exact takeFrame_payload_le (congrArg Prod.fst ht)
    · split at h
      · cases h
      · exact tcp_readSocket_payload_le (Except.ok.inj h)

theorem tcpFrames_payload_le (t : TcpServerTransport) (calls : List TcpServerTransport.Call) :
    ∀ frame ∈ tcpFrames t calls, frame.payload.length ≤ MAX_FRAME_LEN := by
  induction calls generalizing t with
  | nil => simp [tcpFrames]
  | cons c calls ih =>
      cases c with
      | write frame => exact ih _
      | read =>
          simp only [tcpFrames]
          split
          · rename_i frame t' hr
            intro frame' hf
            rcases List.mem_cons.mp hf with rfl | hf
            · exact tcp_readFrame_payload_le (congrArg Prod.fst hr)
            · exact ih _ frame' hf
          · exact ih _
          · simp

theorem picoParse_payload_le (fuel : Nat) (s s' : List Frame × Bytes)
    (hs : ∀ frame ∈ s.1, frame.payload.length ≤ MAX_FRAME_LEN)
    (h : loopFuel picoParse fuel s = some s') :
    ∀ frame ∈ s'.1, frame.payload.length ≤ MAX_FRAME_LEN := by
  induction fuel generalizing s with
  | zero => cases h
  | succ fuel ih =>
      cases hb : bufferHead s.2 with
      | short =>
          rw [loopFuel_succ_of_done picoParse (by simp only [picoParse, hb]; rfl)] at h
          exact Option.some.inj h ▸ hs
      | oversized =>
          rw [loopFuel_succ_of_done picoParse (by simp only [picoParse, hb]; rfl)] at h
          exact Option.some.inj h ▸ hs
      | frame frame rest =>
          rw [loopFuel_succ_of_next picoParse (by simp only [picoParse, hb]; rfl)] at h
          apply ih _ _ h
          intro frame' hf
          rcases List.mem_append.mp hf with hf | hf
          · exact hs frame' hf
          · rw [List.mem_singleton.mp hf]
            exact bufferHead_payload_le hb

theorem picoFrames_payload_le (frameBuf : Bytes) (packets : List Packet) :
    ∀ frame ∈ picoFrames frameBuf packets, frame.payload.length ≤ MAX_FRAME_LEN := by
  induction packets generalizing frameBuf with
  | nil => simp [picoFrames]
  | cons packet packets ih =>
      intro frame hf
      rcases List.mem_append.mp hf with hf | hf
      · obtain ⟨s', hs'⟩ := picoParse_ends ([], frameBuf ++ packet.bytes)
        simp only [picoReceive, hs', Option.getD_some] at hf
        exact picoParse_payload_le _ _ _ (by simp) hs' frame hf
      · exact ih _ frame hf

section Embedded

variable (build : Build)

-- Everything one call of the embedded reader can do.
theorem embeddedReadFrame_cases (input : List Bytes) :
    (input.flatten.length < 5 ∧
      embeddedReadFrame build input = { result := none, allocated := none, rest := [] }) ∨
    ∃ (opcode b0 b1 b2 b3 : UInt8) (rest : List Bytes),
      input.flatten = opcode :: b0 :: b1 :: b2 :: b3 :: rest.flatten ∧
      ((2 ^ (build.width - 1) ≤ fromBeBytes b0 b1 b2 b3 ∧ embeddedReadFrame build input =
        { result := none, allocated := none, rest := rest, fault := some .panic }) ∨
      fromBeBytes b0 b1 b2 b3 < 2 ^ (build.width - 1) ∧
      ((rest.flatten.length < fromBeBytes b0 b1 b2 b3 ∧ embeddedReadFrame build input =
        { result := none, allocated := some (fromBeBytes b0 b1 b2 b3), rest := [] }) ∨
      ∃ (payload : Bytes) (rest' : List Bytes), rest.flatten = payload ++ rest'.flatten ∧
        payload.length = fromBeBytes b0 b1 b2 b3 ∧ embeddedReadFrame build input =
          { result := some (.ok { opcode := opcode, payload := payload })
            allocated := some (fromBeBytes b0 b1 b2 b3)
            rest := rest' })) := by
  cases hheader : readExact input 5 with
  | none => exact .inl ⟨readExact_eq_none hheader, by simp only [embeddedReadFrame, hheader]⟩
  | some pair =>
      obtain ⟨header, rest⟩ := pair
      obtain ⟨opcode, b0, b1, b2, b3, rfl⟩ := header_cases (readExact_length hheader)
      refine .inr ⟨opcode, b0, b1, b2, b3, rest, readExact_flatten hheader, ?_⟩
      rcases Nat.lt_or_ge (fromBeBytes b0 b1 b2 b3) (2 ^ (build.width - 1)) with hlen | hlen
      · have hbuf : build.zeroes (fromBeBytes b0 b1 b2 b3) = .ok (Vector.replicate _ 0) := if_pos hlen
        refine .inr ⟨hlen, ?_⟩
        cases hpayload : readExact rest (fromBeBytes b0 b1 b2 b3) with
        | none =>
            exact .inl ⟨readExact_eq_none hpayload, by simp only [embeddedReadFrame, hheader, hbuf, hpayload]⟩
        | some pair =>
            obtain ⟨payload, rest'⟩ := pair
            exact .inr ⟨payload, rest', readExact_flatten hpayload, readExact_length hpayload,
              by simp only [embeddedReadFrame, hheader, hbuf, hpayload]⟩
      · have hbuf : build.zeroes (fromBeBytes b0 b1 b2 b3) = .error .panic := if_neg (Nat.not_lt.mpr hlen)
        exact .inl ⟨hlen, by simp only [embeddedReadFrame, hheader, hbuf]⟩

theorem declaredLengths_of_short (count : Nat) {stream : Bytes} (h : stream.length < 5) :
    declaredLengths build count stream = [] := by
  match count, stream, h with
  | 0, _, _ => simp [declaredLengths]
  | count + 1, [], _ => simp [declaredLengths]
  | count + 1, [_], _ => simp [declaredLengths]
  | count + 1, [_, _], _ => simp [declaredLengths]
  | count + 1, [_, _, _], _ => simp [declaredLengths]
  | count + 1, [_, _, _, _], _ => simp [declaredLengths]

-- The embedded reader sizes a buffer from every length field it comes to.
theorem embedded_allocated (calls : Nat) (input : List Bytes) :
    (blockingTrace (embeddedReadFrame build) calls input).allocated =
      declaredLengths build calls input.flatten := by
  induction calls generalizing input with
  | zero => simp [blockingTrace, readings, declaredLengths]
  | succ calls ih =>
      simp only [blockingTrace, readings, List.flatMap_cons] at ih ⊢
      rcases embeddedReadFrame_cases build input with ⟨hshort, hr⟩ | ⟨opcode, b0, b1, b2, b3, rest, hflat,
        ⟨hlarge, hr⟩ | ⟨hfits, ⟨hshort, hr⟩ | ⟨payload, rest', hpayload, hlen, hr⟩⟩⟩
      · rw [hr, declaredLengths_of_short build _ hshort]
        simp
      · rw [hr, hflat]
        simp [declaredLengths, if_neg (Nat.not_lt.mpr hlarge)]
      · rw [hr, hflat]
        simp [declaredLengths, if_pos hfits, List.drop_eq_nil_of_le hshort.le, declaredLengths_of_short]
      · rw [hr, hflat, hpayload]
        rw [← hlen] at hfits
        simp only [Option.isSome_some, if_true, ih, declaredLengths, Option.toList_some,
          List.cons_append, List.nil_append, ← hlen, List.drop_left, if_pos hfits]

theorem embedded_frame_allocated {input : List Bytes} {frame : Frame}
    (h : (embeddedReadFrame build input).result = some (.ok frame)) :
    (embeddedReadFrame build input).allocated = some frame.payload.length := by
  rcases embeddedReadFrame_cases build input with ⟨_, hr⟩ |
    ⟨opcode, b0, b1, b2, b3, rest, _, ⟨_, hr⟩ | ⟨_, ⟨_, hr⟩ | ⟨payload, rest', _, hlen, hr⟩⟩⟩
  · rw [hr] at h
    cases h
  · rw [hr] at h
    cases h
  · rw [hr] at h
    cases h
  · rw [hr] at h ⊢
    obtain rfl := Except.ok.inj (Option.some.inj h)
    dsimp only
    rw [hlen]

theorem embedded_frames_allocated (calls : Nat) (input : List Bytes) :
    ∀ frame ∈ (blockingTrace (embeddedReadFrame build) calls input).frames,
      frame.payload.length ∈ (blockingTrace (embeddedReadFrame build) calls input).allocated := by
  intro frame hf
  obtain ⟨reading, hr, hf⟩ := List.mem_flatMap.mp hf
  refine List.mem_flatMap.mpr ⟨reading, hr, ?_⟩
  obtain ⟨input, rfl⟩ := mem_readings hr
  unfold handed at hf
  split at hf
  · rename_i hres
    rw [List.mem_singleton.mp hf, embedded_frame_allocated build hres]
    simp
  · cases hf

end Embedded

-- Of the four readers, only the embedded one depends on what the stream declares.
theorem session_bounded_iff (session : Session) :
    session.trace.Bounded ↔ session.DeclaresWithinBound := by
  cases session with
  | stdio input calls => exact iff_of_true (blockingTrace_bounded _ readFrame_bounded _ _) trivial
  | tcp network calls => exact iff_of_true (copyTrace_bounded (tcpFrames_payload_le _ _)) trivial
  | pico packets => exact iff_of_true (copyTrace_bounded (picoFrames_payload_le _ _)) trivial
  | embedded build input calls =>
      simp only [Session.trace, Session.DeclaresWithinBound, ← embedded_allocated]
      constructor
      · exact fun h => h.1
      · exact fun h => ⟨h, fun frame hf => h _ (embedded_frames_allocated build calls input frame hf)⟩

-- A length field of one byte more than the bound, on the 32 bits of an ESP32-C3.
theorem embedded_not_bounded :
    ¬(Session.embedded ⟨32, Nat.le_refl 32, false⟩ [[0x02, 0x00, 0x08, 0x00, 0x01]] 1).trace.Bounded := by
  have hlen : fromBeBytes 0x00 0x08 0x00 0x01 = 524289 := by decide
  have hdeclared : 524289 ∈ declaredLengths ⟨32, Nat.le_refl 32, false⟩ 1 [0x02, 0x00, 0x08, 0x00, 0x01] := by
    simp [declaredLengths, hlen]
  intro h
  have hle := (session_bounded_iff _).mp h 524289 hdeclared
  exact absurd hle (by decide)

end Milo.Transport
