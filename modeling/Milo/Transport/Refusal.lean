import Milo.Transport.Stream

namespace Milo.Transport

open Milo.Lib Milo.Engine.Link

-- A header that a reader has taken for one: where it stands in the stream and what its
-- length field says.
structure Header where
  position : Nat
  length : Nat
deriving DecidableEq

def headerAt (position : Nat) : Bytes → Option Header
  | _ :: b0 :: b1 :: b2 :: b3 :: _ => some { position := position, length := fromBeBytes b0 b1 b2 b3 }
  | _ => none

def Header.Refused (h : Header) : Prop := MAX_FRAME_LEN < h.length

-- Byte k of the stream was read as its opcode or length, or belongs to its payload.
def Header.Reads (h : Header) (k : Nat) : Prop := h.position ≤ k ∧ k < h.position + 5

def Header.Declares (h : Header) (k : Nat) : Prop :=
  h.position + 5 ≤ k ∧ k < h.position + 5 + h.length

-- No byte of a refused payload was read as the opcode or the length of a later frame.
def Respected (headers : List Header) : Prop :=
  headers.Pairwise fun h later => h.Refused → ∀ k, h.Declares k → ¬later.Reads k

-- The stdin loop of the receiver: the frames it has handed on, and as the history how
-- many bytes it has read and which headers.
structure Stdin where
  input : List Bytes
  position : Nat
  frames : List Frame
  headers : List Header

def stdinTurn (s : Stdin) : Flow Stdin Stdin :=
  let reading := readFrame s.input
  let s' : Stdin :=
    { input := reading.rest
      position := s.position + (s.input.flatten.length - reading.rest.flatten.length)
      frames := s.frames ++ handed reading
      headers := s.headers ++ (headerAt s.position s.input.flatten).toList }
  match reading.result with
  | some (.error .connectionClosed) => .done s'
  | _ => .next s'

def stdinStart (input : List Bytes) : Stdin :=
  { input := input, position := 0, frames := [], headers := [] }

def stdinLoop (input : List Bytes) : Stdin :=
  (loopFuel stdinTurn (input.flatten.length + 1) (stdinStart input)).getD (stdinStart input)

-- The headers that the parser loop of the Pico comes to in a buffer at this position.
def bufferHeaders : Nat → Nat → Bytes → List Header
  | 0, _, _ => []
  | fuel + 1, position, buf =>
      (headerAt position buf).toList ++
        (match bufferHead buf with
          | .frame _ rest => bufferHeaders fuel (position + (buf.length - rest.length)) rest
          | _ => [])

-- The headers of a session with the Pico, from a state with so many bytes received.
def picoHeaders (received : Nat) (frameBuf : Bytes) : List Packet → List Header
  | [] => []
  | packet :: packets =>
      bufferHeaders ((frameBuf ++ packet.bytes).length + 1) (received - frameBuf.length)
          (frameBuf ++ packet.bytes) ++
        picoHeaders (received + packet.bytes.length) (picoReceive frameBuf packet).2 packets

section Headers

variable {position : Nat} {buf : Bytes}

theorem headerAt_of_lt (h : buf.length < 5) : headerAt position buf = none := by
  unfold headerAt
  split
  · simp only [List.length_cons] at h
    omega
  · rfl

theorem headerAt_of_ge (position : Nat) (h : 5 ≤ buf.length) :
    ∃ len, headerAt position buf = some ⟨position, len⟩ := by
  match buf, h with
  | _ :: b0 :: b1 :: b2 :: b3 :: _, _ => exact ⟨fromBeBytes b0 b1 b2 b3, rfl⟩

theorem bufferHead_of_none (hnone : headFrame MAX_FRAME_LEN buf = none)
    (h : bufferHead buf ≠ .oversized) : bufferHead buf = .short := by
  cases hb : bufferHead buf with
  | short => rfl
  | oversized => exact absurd hb h
  | frame frame rest =>
      rw [bufferHead_eq_frame.mp hb] at hnone
      cases hnone

theorem bufferHead_of_lt (h : buf.length < 5) : bufferHead buf = .short := by
  unfold bufferHead
  split
  · simp only [List.length_cons] at h
    omega
  · rfl

-- A header is refused exactly when the head of the buffer is oversized.
theorem refused_iff {header : Header} (h : headerAt position buf = some header) :
    header.Refused ↔ bufferHead buf = .oversized := by
  unfold headerAt at h
  split at h
  · rename_i opcode b0 b1 b2 b3 tail
    obtain rfl := Option.some.inj h
    unfold Header.Refused bufferHead
    dsimp only
    split_ifs with hbig hshort <;> simp [hbig]
  · cases h

theorem length_of_oversized (h : bufferHead buf = .oversized) : 5 ≤ buf.length := by
  by_contra hlt
  rw [bufferHead_of_lt (by omega)] at h
  cases h

theorem oversized_of_append {more : Bytes} (h : bufferHead (buf ++ more) = .oversized)
    (hge : 5 ≤ buf.length) : bufferHead buf = .oversized := by
  match buf, hge with
  | opcode :: b0 :: b1 :: b2 :: b3 :: tail, _ =>
      simp only [List.cons_append, bufferHead] at h ⊢
      split_ifs at h with hbig
      rw [if_pos hbig]

theorem headerAt_of_oversized (h : bufferHead buf = .oversized) (position : Nat) :
    ∃ header, headerAt position buf = some header ∧ header.position = position ∧ header.Refused := by
  obtain ⟨len, hheader⟩ := headerAt_of_ge position (length_of_oversized h)
  exact ⟨_, hheader, rfl, (refused_iff hheader).mpr h⟩

theorem headerAt_not_refused (h : bufferHead buf ≠ .oversized) :
    ∀ header ∈ (headerAt position buf).toList, ¬header.Refused := by
  intro header hmem
  rwa [refused_iff (Option.mem_toList.mp hmem)]

-- Headers that were accepted do not matter.
theorem respected_append {accepted headers : List Header} (h : ∀ header ∈ accepted, ¬header.Refused) :
    Respected (accepted ++ headers) ↔ Respected headers := by
  unfold Respected
  rw [List.pairwise_append]
  constructor
  · exact fun hp => hp.2.1
  · intro hp
    refine ⟨?_, hp, fun a ha b _ href => absurd href (h a ha)⟩
    exact List.pairwise_iff_getElem.mpr fun i j hi hj hij href =>
      absurd href (h _ (List.getElem_mem hi))

-- A later header inside a refused payload breaks the rule.
theorem not_respected {header later : Header} {headers : List Header} (href : header.Refused)
    (hmem : later ∈ headers) (hle : header.position + 5 ≤ later.position)
    (hlt : later.position < header.position + 5 + MAX_FRAME_LEN) : ¬Respected (header :: headers) := by
  intro hp
  have hlater := (List.pairwise_cons.mp hp).1 later hmem href later.position
  apply hlater
  · exact ⟨hle, by unfold Header.Refused at href; omega⟩
  · exact ⟨Nat.le_refl _, by omega⟩

theorem respected_singleton (header : Header) : Respected [header] := List.pairwise_singleton _ _

end Headers

section Stdin

-- What the std reader makes of the stream, by the head of it.
theorem readFrame_of_frame {input : List Bytes} {frame : Frame} {rest : Bytes}
    (h : bufferHead input.flatten = .frame frame rest) :
    (readFrame input).result = some (.ok frame) ∧ (readFrame input).rest.flatten = rest := by
  obtain ⟨hstream, hbound⟩ := (headFrame_eq_some MAX_FRAME_LEN_le).mp (bufferHead_eq_frame.mp h)
  exact readFrame_serialize hbound hstream

theorem readFrame_of_short {input : List Bytes} (h : bufferHead input.flatten = .short) :
    (readFrame input).result = some (.error .connectionClosed) := by
  cases hheader : readExact input 5 with
  | none => simp only [readFrame, hheader]
  | some pair =>
      obtain ⟨header, rest⟩ := pair
      obtain ⟨opcode, b0, b1, b2, b3, rfl⟩ := header_cases (readExact_length hheader)
      rw [readExact_flatten hheader] at h
      simp only [List.cons_append, List.nil_append, bufferHead] at h
      split_ifs at h with hbig hshort
      have hpayload : readExact rest (fromBeBytes b0 b1 b2 b3) = none := by
        cases hr : readExact rest (fromBeBytes b0 b1 b2 b3) with
        | none => rfl
        | some pair =>
            have hlen := congrArg List.length (readExact_flatten hr)
            rw [List.length_append, readExact_length hr] at hlen
            omega
      simp only [readFrame, hheader, if_neg hbig, hpayload]

theorem readFrame_of_oversized {input : List Bytes} (h : bufferHead input.flatten = .oversized) :
    (∃ text, (readFrame input).result = some (.error (.io text))) ∧
      (readFrame input).rest.flatten = input.flatten.drop 5 := by
  obtain ⟨rest, hheader, hrest⟩ := readExact_of_le (length_of_oversized h)
  obtain ⟨opcode, b0, b1, b2, b3, hfive⟩ := header_cases (readExact_length hheader)
  have hflat := readExact_flatten hheader
  rw [hfive] at hheader hflat
  rw [hflat] at h
  simp only [List.cons_append, List.nil_append, bufferHead] at h
  split_ifs at h with hbig
  simp only [readFrame, hheader, if_pos hbig]
  exact ⟨⟨_, rfl⟩, hrest⟩

-- What a stretch of the loop adds to the headers, for the stream that is left to read.
structure Read (position : Nat) (stream : Bytes) (headers : List Header) : Prop where
  short : stream.length < 5 → headers = []
  first : 5 ≤ stream.length → ∃ header ∈ headers, header.position = position
  respected : Respected headers ↔ (Overlong stream → (unread stream).length < 10)

theorem read_short {position : Nat} {stream : Bytes} (h : bufferHead stream = .short) :
    Read position stream (headerAt position stream).toList where
  short := fun hlt => by rw [headerAt_of_lt hlt, Option.toList_none]
  first := by
    intro hge
    obtain ⟨len, hheader⟩ := headerAt_of_ge position hge
    rw [hheader]
    exact ⟨_, List.mem_singleton_self _, rfl⟩
  respected := by
    have hunread : unread stream = stream := Framing.leftover_of_none (headFrame_of_short h)
    have hover : ¬Overlong stream := by rw [Overlong, hunread, h]; exact fun hh => by cases hh
    have hnone : ∀ header ∈ (headerAt position stream).toList, ¬header.Refused :=
      headerAt_not_refused (by rw [h]; exact fun hh => by cases hh)
    refine iff_of_true ?_ (fun ho => absurd ho hover)
    have hp : Respected (_ ++ []) := (respected_append hnone).mpr List.Pairwise.nil
    rwa [List.append_nil] at hp

theorem read_frame {position : Nat} {stream rest : Bytes} {frame : Frame} {headers : List Header}
    {next : Nat} (h : bufferHead stream = .frame frame rest) (hr : Read next rest headers) :
    Read position stream ((headerAt position stream).toList ++ headers) := by
  have hnext := bufferHead_eq_frame.mp h
  have hunread : unread stream = unread rest := framing_link.leftover_of_some hnext
  have hge : 5 ≤ stream.length := by
    by_contra hlt
    rw [bufferHead_of_lt (by omega)] at h
    cases h
  refine ⟨fun hlt => by omega, fun _ => ?_, ?_⟩
  · obtain ⟨len, hheader⟩ := headerAt_of_ge position hge
    rw [hheader]
    exact ⟨_, List.mem_cons_self, rfl⟩
  · have hnone : ∀ header ∈ (headerAt position stream).toList, ¬header.Refused :=
      headerAt_not_refused (by rw [h]; exact fun hh => by cases hh)
    rw [respected_append hnone, hr.respected]
    simp only [Overlong, hunread]

-- Behind a refused header the next five bytes are read as a header again.
theorem read_oversized {position : Nat} {stream : Bytes} {headers : List Header}
    (h : bufferHead stream = .oversized) (hr : Read (position + 5) (stream.drop 5) headers) :
    Read position stream ((headerAt position stream).toList ++ headers) := by
  have hge := length_of_oversized h
  have hunread := unread_of_oversized h
  have hover : Overlong stream := by rw [Overlong, hunread, h]
  have hlen : (stream.drop 5).length = stream.length - 5 := List.length_drop
  obtain ⟨header, hheader, hposition, href⟩ := headerAt_of_oversized h position
  rw [hheader, Option.toList_some, List.singleton_append]
  refine ⟨fun hlt => by omega, fun _ => ⟨header, List.mem_cons_self, hposition⟩, ?_⟩
  rw [hunread]
  constructor
  · intro hp _
    by_contra hge'
    obtain ⟨later, hmem, hlater⟩ := hr.first (by omega)
    refine not_respected href hmem (by omega) ?_ hp
    rw [hlater, hposition]
    exact Nat.lt_add_of_pos_right (by decide)
  · intro hlt
    rw [hr.short (by have := hlt hover; omega)]
    exact respected_singleton header

theorem stdinLoop_read (fuel : Nat) (s : Stdin) (hf : s.input.flatten.length < fuel) :
    ∃ s' headers, loopFuel stdinTurn fuel s = some s' ∧ s'.headers = s.headers ++ headers ∧
      Read s.position s.input.flatten headers := by
  induction fuel generalizing s with
  | zero => omega
  | succ fuel ih =>
      cases hb : bufferHead s.input.flatten with
      | short =>
          have hresult := readFrame_of_short hb
          exact ⟨_, _, loopFuel_succ_of_done stdinTurn (by simp only [stdinTurn, hresult]; rfl) fuel, rfl,
            read_short hb⟩
      | frame frame rest =>
          obtain ⟨hresult, hrest⟩ := readFrame_of_frame hb
          have hlt := bufferHead_rest_lt hb
          obtain ⟨s₁, hturn, hinput, hheaders⟩ : ∃ s₁ : Stdin, stdinTurn s = .next s₁ ∧
              s₁.input.flatten = rest ∧
              s₁.headers = s.headers ++ (headerAt s.position s.input.flatten).toList :=
            ⟨_, by simp only [stdinTurn, hresult]; rfl, hrest, rfl⟩
          obtain ⟨s', headers, hloop, hheaders', hread⟩ := ih s₁ (by rw [hinput]; omega)
          rw [hinput] at hread
          refine ⟨s', _, ?_, ?_, read_frame hb hread⟩
          · rw [loopFuel_succ_of_next stdinTurn hturn, hloop]
          · rw [hheaders', hheaders, List.append_assoc]
      | oversized =>
          obtain ⟨⟨text, hresult⟩, hrest⟩ := readFrame_of_oversized hb
          have hge := length_of_oversized hb
          have hlen : (s.input.flatten.drop 5).length = s.input.flatten.length - 5 := List.length_drop
          obtain ⟨s₁, hturn, hinput, hposition, hheaders⟩ : ∃ s₁ : Stdin, stdinTurn s = .next s₁ ∧
              s₁.input.flatten = s.input.flatten.drop 5 ∧ s₁.position = s.position + 5 ∧
              s₁.headers = s.headers ++ (headerAt s.position s.input.flatten).toList := by
            refine ⟨_, by simp only [stdinTurn, hresult]; rfl, hrest, ?_, rfl⟩
            dsimp only
            rw [hrest]
            omega
          obtain ⟨s', headers, hloop, hheaders', hread⟩ := ih s₁ (by rw [hinput]; omega)
          rw [hinput, hposition] at hread
          refine ⟨s', _, ?_, ?_, read_oversized hb hread⟩
          · rw [loopFuel_succ_of_next stdinTurn hturn, hloop]
          · rw [hheaders', hheaders, List.append_assoc]

theorem stdin_respected_iff (input : List Bytes) :
    Respected (stdinLoop input).headers ↔
      (Overlong input.flatten → (unread input.flatten).length < 10) := by
  obtain ⟨s', headers, hloop, hheaders, hread⟩ :=
    stdinLoop_read (input.flatten.length + 1) (stdinStart input) (Nat.lt_succ_self _)
  rw [stdinLoop, hloop, Option.getD_some, hheaders]
  exact hread.respected

end Stdin

section Pico

theorem bufferHeaders_of_lt {fuel position : Nat} {buf : Bytes} (h : buf.length < 5) :
    bufferHeaders fuel position buf = [] := by
  cases fuel with
  | zero => rfl
  | succ fuel => simp only [bufferHeaders, headerAt_of_lt h, bufferHead_of_lt h, Option.toList_none,
      List.append_nil]

-- The parser loop accepts the headers of complete frames and stops at the first one it
-- refuses.
theorem bufferHeaders_spec (buf : Bytes) (fuel position : Nat) (hf : buf.length < fuel) :
    (¬Overlong buf → ∀ header ∈ bufferHeaders fuel position buf, ¬header.Refused) ∧
      (Overlong buf → ∃ accepted header, bufferHeaders fuel position buf = accepted ++ [header] ∧
        (∀ header ∈ accepted, ¬header.Refused) ∧ header.Refused ∧
        header.position = position + (buf.length - (unread buf).length)) := by
  obtain ⟨fuel, rfl⟩ : ∃ n, fuel = n + 1 := ⟨fuel - 1, by omega⟩
  induction buf using framing_link.buffer_induction generalizing fuel position with
  | none buf hnone =>
      have hunread : unread buf = buf := Framing.leftover_of_none hnone
      have hheaders : bufferHeaders (fuel + 1) position buf = (headerAt position buf).toList := by
        rw [bufferHeaders]
        split
        · rename_i hb
          rw [bufferHead_eq_frame.mp hb] at hnone
          cases hnone
        · rw [List.append_nil]
      rw [hheaders, hunread]
      constructor
      · intro hover
        rw [Overlong, hunread] at hover
        exact headerAt_not_refused hover
      · intro hover
        rw [Overlong, hunread] at hover
        obtain ⟨header, hheader, hposition, href⟩ := headerAt_of_oversized hover position
        rw [hheader]
        exact ⟨[], header, rfl, by simp, href, by omega⟩
  | some buf frame rest hsome ih =>
      have hb := bufferHead_eq_frame.mpr hsome
      have hlt := framing_link.rest_lt hsome
      obtain ⟨fuel, rfl⟩ : ∃ n, fuel = n + 1 := ⟨fuel - 1, by omega⟩
      have hunread : unread buf = unread rest := framing_link.leftover_of_some hsome
      have hover : Overlong buf ↔ Overlong rest := by rw [Overlong, Overlong, hunread]
      have hle : (unread rest).length ≤ rest.length := framing_link.leftover_length_le rest
      have haccepted : ∀ header ∈ (headerAt position buf).toList, ¬header.Refused :=
        headerAt_not_refused (by rw [hb]; exact fun hh => by cases hh)
      obtain ⟨hnever, hlast⟩ := ih (position + (buf.length - rest.length)) fuel (by omega)
      rw [bufferHeaders, hb, hover, hunread]
      dsimp only
      constructor
      · intro hrest header hmem
        rcases List.mem_append.mp hmem with hmem | hmem
        · exact haccepted header hmem
        · exact hnever hrest header hmem
      · intro hrest
        obtain ⟨accepted, header, hheaders, hmem, href, hposition⟩ := hlast hrest
        refine ⟨(headerAt position buf).toList ++ accepted, header, ?_, ?_, href, ?_⟩
        · rw [hheaders, List.append_assoc]
        · exact fun header' hmem' => (List.mem_append.mp hmem').elim (haccepted header') (hmem header')
        · omega

theorem resynchronized_of_lt {buf : Bytes} (h : buf.length < 5) : resynchronized buf = buf := by
  have hshort := bufferHead_of_lt h
  have hunread : unread buf = buf := Framing.leftover_of_none (headFrame_of_short hshort)
  simp only [resynchronized, hunread, hshort]

-- From a buffer with less than a header, the next header is read as soon as its bytes
-- are there, at the place where the buffer starts.
theorem picoHeaders_first (packets : List Packet) (received : Nat) (frameBuf : Bytes)
    (hlt : frameBuf.length < 5) (hle : frameBuf.length ≤ received) :
    ((frameBuf ++ packetBytes packets).length < 5 → picoHeaders received frameBuf packets = []) ∧
      (5 ≤ (frameBuf ++ packetBytes packets).length →
        ∃ header ∈ picoHeaders received frameBuf packets,
          header.position = received - frameBuf.length) := by
  induction packets generalizing received frameBuf with
  | nil =>
      simp only [packetBytes, List.flatMap_nil, List.append_nil, picoHeaders]
      exact ⟨fun _ => trivial, fun hge => by omega⟩
  | cons packet packets ih =>
      have hbytes : frameBuf ++ packetBytes (packet :: packets) =
          (frameBuf ++ packet.bytes) ++ packetBytes packets := by
        rw [packetBytes_cons, List.append_assoc]
      have hlength : (frameBuf ++ packet.bytes).length = frameBuf.length + packet.bytes.length :=
        List.length_append
      rw [hbytes, picoHeaders]
      by_cases hpacket : (frameBuf ++ packet.bytes).length < 5
      · have hkept : (picoReceive frameBuf packet).2 = frameBuf ++ packet.bytes := by
          rw [picoReceive_eq, resynchronized_of_lt hpacket]
        rw [bufferHeaders_of_lt hpacket, List.nil_append, hkept]
        have hnext := ih (received + packet.bytes.length) (frameBuf ++ packet.bytes) hpacket (by omega)
        rwa [hlength, Nat.add_sub_add_right] at hnext
      · obtain ⟨len, hheader⟩ := headerAt_of_ge (received - frameBuf.length)
          (Nat.le_of_not_lt hpacket)
        refine ⟨fun hall => ?_, fun _ => ⟨⟨received - frameBuf.length, len⟩, List.mem_append_left _ ?_, rfl⟩⟩
        · rw [List.length_append] at hall
          omega
        · rw [bufferHeaders, hheader]
          exact List.mem_append_left _ (List.mem_singleton_self _)

-- The packet that completes an over-long header brings most of what stands behind it.
theorem overlong_packet {frameBuf : Bytes} {packet : Packet} (hbuf : bufferHead frameBuf = .short)
    (hover : Overlong (frameBuf ++ packet.bytes)) :
    5 ≤ (unread (frameBuf ++ packet.bytes)).length ∧
      (unread (frameBuf ++ packet.bytes)).length < 5 + MAX_FRAME_LEN := by
  refine ⟨length_of_oversized hover, ?_⟩
  have hpacket := packet.le
  have hmax : 64 < MAX_FRAME_LEN := by decide
  cases hnext : headFrame MAX_FRAME_LEN (frameBuf ++ packet.bytes) with
  | none =>
      have hunread : unread (frameBuf ++ packet.bytes) = frameBuf ++ packet.bytes :=
        Framing.leftover_of_none hnext
      rw [Overlong, hunread] at hover
      rw [hunread, List.length_append]
      have hlt : frameBuf.length < 5 := by
        by_contra hge
        rw [oversized_of_append hover (by omega)] at hbuf
        cases hbuf
      omega
  | some pair =>
      obtain ⟨frame, rest⟩ := pair
      have hunread : unread (frameBuf ++ packet.bytes) = unread rest :=
        framing_link.leftover_of_some hnext
      have hle : (unread rest).length ≤ rest.length := framing_link.leftover_length_le rest
      have hrest : rest.length ≤ packet.bytes.length :=
        framing_link.rest_le_of_none (headFrame_of_short hbuf) hnext
      rw [hunread]
      omega

-- Less than a header comes behind the packet that completes an over-long one.
def Harmless (frameBuf : Bytes) (packets : List Packet) : Prop :=
  ∀ before after, packets = before ++ after → Overlong (frameBuf ++ packetBytes before) →
    (packetBytes after).length < 5

theorem harmless_nil (frameBuf : Bytes) : Harmless frameBuf [] := by
  intro before after happ _
  obtain ⟨_, rfl⟩ := List.append_eq_nil_iff.mp happ.symm
  decide

theorem harmless_of_overlong {frameBuf : Bytes} {packets : List Packet} (hover : Overlong frameBuf) :
    Harmless frameBuf packets ↔ (packetBytes packets).length < 5 := by
  constructor
  · intro h
    exact h [] packets rfl (by rwa [packetBytes_nil, List.append_nil])
  · intro hlt before after happ _
    rw [happ, packetBytes_append, List.length_append] at hlt
    omega

theorem harmless_unread {frameBuf : Bytes} {packets : List Packet} :
    Harmless (unread frameBuf) packets ↔ Harmless frameBuf packets := by
  have hover : ∀ more, Overlong (unread frameBuf ++ more) ↔ Overlong (frameBuf ++ more) := by
    intro more
    rw [Overlong, Overlong, unread_append frameBuf]
  simp only [Harmless, hover]

theorem harmless_cons {frameBuf : Bytes} {packet : Packet} {packets : List Packet}
    (hbuf : bufferHead frameBuf = .short) :
    Harmless frameBuf (packet :: packets) ↔ Harmless (frameBuf ++ packet.bytes) packets := by
  have hbytes : ∀ before, frameBuf ++ packetBytes (packet :: before) =
      frameBuf ++ packet.bytes ++ packetBytes before := by
    intro before
    rw [packetBytes_cons, List.append_assoc]
  constructor
  · intro h before after happ hover
    exact h (packet :: before) after (by rw [happ, List.cons_append]) (by rwa [hbytes])
  · intro h before after happ hover
    cases before with
    | nil =>
        rw [packetBytes_nil, List.append_nil, Overlong, unread,
          Framing.leftover_of_none (headFrame_of_short hbuf), hbuf] at hover
        cases hover
    | cons packet' before =>
        obtain ⟨rfl, hpackets⟩ := List.cons.inj happ
        exact h before after hpackets (by rwa [hbytes] at hover)

-- A refused header is respected only while no other one comes behind it.
theorem respected_refused_iff {packets : List Packet} {received : Nat} {header : Header}
    (href : header.Refused) (hle : header.position + 5 ≤ received)
    (hlt : received < header.position + 5 + MAX_FRAME_LEN) :
    Respected (header :: picoHeaders received [] packets) ↔ (packetBytes packets).length < 5 := by
  obtain ⟨hnone, hfirst⟩ := picoHeaders_first packets received [] (by decide) (Nat.zero_le _)
  rw [List.nil_append] at hnone hfirst
  constructor
  · intro hp
    by_contra hge
    obtain ⟨later, hmem, hlater⟩ := hfirst (by omega)
    rw [List.length_nil] at hlater
    exact not_respected href hmem (by omega) (by omega) hp
  · intro hshort
    rw [hnone hshort]
    exact respected_singleton header

-- A run of the Pico from a state in which it has refused nothing so far.
theorem pico_respected (packets : List Packet) (received : Nat) (frameBuf : Bytes)
    (hbuf : bufferHead frameBuf = .short) (hle : frameBuf.length ≤ received) :
    Respected (picoHeaders received frameBuf packets) ↔ Harmless frameBuf packets := by
  induction packets generalizing received frameBuf with
  | nil => exact iff_of_true List.Pairwise.nil (harmless_nil frameBuf)
  | cons packet packets ih =>
      have hlength : (frameBuf ++ packet.bytes).length = frameBuf.length + packet.bytes.length :=
        List.length_append
      have hunread : (unread (frameBuf ++ packet.bytes)).length ≤ (frameBuf ++ packet.bytes).length :=
        framing_link.leftover_length_le _
      obtain ⟨hnever, hlast⟩ := bufferHeaders_spec (frameBuf ++ packet.bytes)
        ((frameBuf ++ packet.bytes).length + 1) (received - frameBuf.length) (Nat.lt_succ_self _)
      rw [picoHeaders, picoReceive_eq, harmless_cons hbuf]
      dsimp only
      by_cases hover : Overlong (frameBuf ++ packet.bytes)
      · obtain ⟨accepted, header, hheaders, haccepted, href, hposition⟩ := hlast hover
        obtain ⟨hge, hlt⟩ := overlong_packet hbuf hover
        rw [resynchronized_of_overlong hover, hheaders, List.append_assoc, respected_append haccepted,
          List.singleton_append, harmless_of_overlong hover]
        exact respected_refused_iff href (by omega) (by omega)
      · have hshort : bufferHead (unread (frameBuf ++ packet.bytes)) = .short :=
          bufferHead_of_none (framing_link.next_leftover _) hover
        rw [resynchronized_of_not_overlong hover, respected_append (hnever hover), ← harmless_unread]
        exact ih (received + packet.bytes.length) _ hshort (by omega)

end Pico

-- Both readers leave the payload of a refused frame alone only when no further header
-- fits behind the refused one: the stdin loop reads on directly behind it, the Pico
-- behind the packet that completed it.
theorem refused_payload_respected_iff (input : List Bytes) (packets : List Packet) :
    (Respected (stdinLoop input).headers ↔
      (Overlong input.flatten → (unread input.flatten).length < 10)) ∧
    (Respected (picoHeaders 0 [] packets) ↔
      ∀ before after, packets = before ++ after → Overlong (packetBytes before) →
        (packetBytes after).length < 5) :=
  ⟨stdin_respected_iff input, pico_respected packets 0 [] rfl (Nat.le_refl 0)⟩

-- A push over the bound whose payload starts with a small push.
def smuggledPush : Frame :=
  { opcode := OP_BYTECODE_PUSH, payload := [0x00, 0x61, 0x73, 0x6D, 0x01, 0x00, 0x00, 0x00] }

def overlongHeader : Bytes := [OP_BYTECODE_PUSH, 0x00, 0x08, 0x00, 0x01]

theorem smuggledPush_received :
    ¬Respected (stdinLoop [overlongHeader, smuggledPush.serialize]).headers ∧
      (stdinLoop [overlongHeader, smuggledPush.serialize]).frames = [smuggledPush] ∧
      ¬Respected (picoHeaders 0 []
        [⟨overlongHeader, by decide, by decide⟩, ⟨smuggledPush.serialize, by decide, by decide⟩]) ∧
      picoFrames []
        [⟨overlongHeader, by decide, by decide⟩, ⟨smuggledPush.serialize, by decide, by decide⟩] =
        [smuggledPush] := by
  refine ⟨?_, by decide, ?_, by decide⟩
  · rw [stdin_respected_iff]
    decide
  · rw [pico_respected _ 0 [] rfl (Nat.le_refl 0)]
    intro h
    have := h [⟨overlongHeader, by decide, by decide⟩]
      [⟨smuggledPush.serialize, by decide, by decide⟩] rfl (by decide)
    revert this
    decide

end Milo.Transport
