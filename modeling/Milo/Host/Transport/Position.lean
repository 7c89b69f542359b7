import Milo.Host.Transport

namespace Milo.Host

open Milo.Lib Milo.Engine.Link

-- The bytes still to come in.
def incoming : List Arrival → Bytes
  | [] => []
  | .data bytes _ :: arrivals => bytes ++ incoming arrivals
  | _ :: arrivals => incoming arrivals

-- What comes in before the time of the running call is over; none when the other end
-- hangs up before that.
def beforeDeadline : List Arrival → Option Bytes
  | [] => some []
  | .data bytes _ :: arrivals => (beforeDeadline arrivals).map (bytes ++ ·)
  | .nothing :: arrivals => beforeDeadline arrivals
  | .deadline :: _ => some []
  | .closed :: _ => none

-- The time runs out after the first byte of a frame and before its last one.
def Straddled (arrivals : List Arrival) : Prop :=
  ∃ bytes, beforeDeadline arrivals = some bytes ∧ bytes ≠ [] ∧ headFrame U32_MAX bytes = none

instance (arrivals : List Arrival) : Decidable (Straddled arrivals) :=
  match h : beforeDeadline arrivals with
  | none => isFalse (by rintro ⟨bytes, hbytes, _⟩; rw [h] at hbytes; cases hbytes)
  | some bytes =>
      decidable_of_iff (bytes ≠ [] ∧ headFrame U32_MAX bytes = none) (by simp [Straddled, h])

-- A call that raises TimeoutError has left the stream where it was.
def PositionKept (read : List Arrival → Except ReadError Frame × List Arrival)
    (arrivals : List Arrival) : Prop :=
  ∀ text rest, read arrivals = (.error (.timeoutError text), rest) → incoming rest = incoming arrivals

-- What is to come in after some calls of read_frame, whatever they returned, and the
-- frames that they returned.
def afterCalls (read : List Arrival → Except ReadError Frame × List Arrival)
    (arrivals : List Arrival) : Nat → List Arrival
  | 0 => arrivals
  | calls + 1 => (read (afterCalls read arrivals calls)).2

def returnedFrames (read : List Arrival → Except ReadError Frame × List Arrival)
    (arrivals : List Arrival) : Nat → List Frame
  | 0 => []
  | calls + 1 =>
      returnedFrames read arrivals calls ++
        (read (afterCalls read arrivals calls)).1.toOption.toList

-- What a collecting loop with buf in hand does to the stream: it takes the bytes it
-- still needs, or those that come in before the deadline.
inductive Collected (timedOut : Nat → String) (hangUp : HangUp) (n : Nat) (buf : Bytes)
    (arrivals : List Arrival) : Except ReadError Bytes → List Arrival → Prop
  | ok (got bytes : Bytes) (rest : List Arrival) (hgot : got = buf ++ bytes)
      (hlen : bytes.length = n - buf.length) (hin : incoming arrivals = bytes ++ incoming rest)
      (hbefore : beforeDeadline arrivals = (beforeDeadline rest).map (bytes ++ ·)) :
      Collected timedOut hangUp n buf arrivals (.ok got) rest
  | timedOut (got bytes : Bytes) (rest : List Arrival) (hgot : got = buf ++ bytes)
      (hlen : got.length < n) (hin : incoming arrivals = bytes ++ incoming rest)
      (hbefore : beforeDeadline arrivals = some bytes) :
      Collected timedOut hangUp n buf arrivals (.error (.timeoutError (timedOut got.length))) rest
  | hungUp (rest : List Arrival) (hbefore : beforeDeadline arrivals = none) :
      Collected timedOut hangUp n buf arrivals (.error (.hungUp hangUp)) (.closed :: rest)

section Collect

variable {timedOut : Nat → String} {hangUp : HangUp} {n : Nat} {buf : Bytes}
  {arrivals rest : List Arrival} {result : Except ReadError Bytes}

theorem Collected.nothing (h : Collected timedOut hangUp n buf arrivals result rest) :
    Collected timedOut hangUp n buf (.nothing :: arrivals) result rest := by
  cases h with
  | ok got bytes _ hgot hlen hin hbefore => exact .ok got bytes rest hgot hlen hin hbefore
  | timedOut got bytes _ hgot hlen hin hbefore =>
      exact .timedOut got bytes rest hgot hlen hin hbefore
  | hungUp rest hbefore => exact .hungUp rest hbefore

theorem Collected.data {bytes : Bytes} {pos : 0 < bytes.length} (hle : bytes.length ≤ n - buf.length)
    (h : Collected timedOut hangUp n (buf ++ bytes) arrivals result rest) :
    Collected timedOut hangUp n buf (.data bytes pos :: arrivals) result rest := by
  cases h with
  | ok got more _ hgot hlen hin hbefore =>
      refine .ok got (bytes ++ more) rest (by rw [hgot, List.append_assoc]) ?_ ?_ ?_
      · simp only [List.length_append] at hlen ⊢
        omega
      · rw [incoming, hin, List.append_assoc]
      · rw [beforeDeadline, hbefore, Option.map_map]
        congr 1
        funext tail
        exact (List.append_assoc bytes more tail).symm
  | timedOut got more _ hgot hlen hin hbefore =>
      refine .timedOut got (bytes ++ more) rest (by rw [hgot, List.append_assoc]) hlen ?_ ?_
      · rw [incoming, hin, List.append_assoc]
      · rw [beforeDeadline, hbefore, Option.map_some]
  | hungUp rest hbefore => exact .hungUp rest (by rw [beforeDeadline, hbefore, Option.map_none])

theorem readExact_collected (timedOut : Nat → String) (hangUp : HangUp) (n : Nat) (buf : Bytes)
    (arrivals : List Arrival) :
    Collected timedOut hangUp n buf arrivals (readExact timedOut hangUp n buf arrivals).1
      (readExact timedOut hangUp n buf arrivals).2 := by
  induction arrivals generalizing buf with
  | nil =>
      unfold readExact
      split_ifs with hle
      · exact .ok buf [] [] (List.append_nil buf).symm (by rw [List.length_nil]; omega) rfl rfl
      · exact .timedOut buf [] [] (List.append_nil buf).symm (Nat.lt_of_not_le hle) rfl rfl
  | cons arrival arrivals ih =>
      unfold readExact
      split_ifs with hle
      · refine .ok buf [] _ (List.append_nil buf).symm (by rw [List.length_nil]; omega) rfl ?_
        exact Option.map_id'.symm
      · cases arrival with
        | nothing => exact (ih buf).nothing
        | deadline =>
            exact .timedOut buf [] arrivals (List.append_nil buf).symm (Nat.lt_of_not_le hle) rfl rfl
        | closed => exact .hungUp _ rfl
        | data bytes pos =>
            dsimp only
            split_ifs with hlt
            · refine .ok _ (bytes.take (n - buf.length)) _ rfl ?_ ?_ ?_
              · rw [List.length_take]
                omega
              · rw [incoming, incoming, ← List.append_assoc, List.take_append_drop]
              · rw [beforeDeadline, beforeDeadline, Option.map_map]
                congr 1
                funext tail
                simp only [Function.comp, ← List.append_assoc, List.take_append_drop]
            · exact (ih (buf ++ bytes)).data (Nat.le_of_not_lt hlt)

end Collect

-- What one call of read_frame does to the stream.
inductive Framed (arrivals : List Arrival) : Except ReadError Frame → List Arrival → Prop
  | ok (frame : Frame) (rest : List Arrival) (hfits : frame.payload.length ≤ U32_MAX)
      (hin : incoming arrivals = frame.serialize ++ incoming rest)
      (hbefore : beforeDeadline arrivals = (beforeDeadline rest).map (frame.serialize ++ ·)) :
      Framed arrivals (.ok frame) rest
  | timedOut (text : String) (bytes : Bytes) (rest : List Arrival)
      (hin : incoming arrivals = bytes ++ incoming rest)
      (hbefore : beforeDeadline arrivals = some bytes) (hnone : headFrame U32_MAX bytes = none) :
      Framed arrivals (.error (.timeoutError text)) rest
  | hungUp (hangUp : HangUp) (rest : List Arrival) (hbefore : beforeDeadline arrivals = none) :
      Framed arrivals (.error (.hungUp hangUp)) (.closed :: rest)

theorem headFrame_of_lt {bytes : Bytes} (h : bytes.length < 5) (bound : Nat) :
    headFrame bound bytes = none := by
  unfold headFrame
  split
  · simp only [List.length_cons] at h
    omega
  · rfl

theorem readFrame_framed (headerTimedOut : Nat → String) (payloadTimedOut : Nat → Nat → String)
    (hangUp : HangUp) (arrivals : List Arrival) :
    Framed arrivals (readFrame headerTimedOut payloadTimedOut hangUp arrivals).1
      (readFrame headerTimedOut payloadTimedOut hangUp arrivals).2 := by
  have hheader := readExact_collected headerTimedOut hangUp 5 [] arrivals
  unfold readFrame
  generalize readExact headerTimedOut hangUp 5 [] arrivals = pair at hheader ⊢
  obtain ⟨result, rest⟩ := pair
  dsimp only at hheader
  cases hheader with
  | timedOut got bytes _ hgot hlen hin hbefore =>
      rw [List.nil_append] at hgot
      exact .timedOut _ bytes rest hin hbefore (headFrame_of_lt (hgot ▸ hlen) _)
  | hungUp rest hbefore => exact .hungUp hangUp rest hbefore
  | ok got bytes _ hgot hlen hin hbefore =>
      rw [List.nil_append] at hgot
      subst hgot
      obtain ⟨opcode, b0, b1, b2, b3, rfl⟩ := header_cases hlen
      have hpayload := readExact_collected (payloadTimedOut (fromBeBytes b0 b1 b2 b3)) hangUp
        (fromBeBytes b0 b1 b2 b3) [] rest
      dsimp only
      generalize readExact (payloadTimedOut (fromBeBytes b0 b1 b2 b3)) hangUp
        (fromBeBytes b0 b1 b2 b3) [] rest = pair at hpayload ⊢
      obtain ⟨result, rest'⟩ := pair
      dsimp only at hpayload
      cases hpayload with
      | ok payload payload' _ hgot hlen' hin' hbefore' =>
          rw [List.nil_append] at hgot
          subst hgot
          have hlt := fromBeBytes_lt b0 b1 b2 b3
          refine .ok _ rest' (by unfold U32_MAX; dsimp only; omega) ?_ ?_
          · rw [hin, hin', serialize_of_length hlen']
            simp
          · rw [hbefore, hbefore', Option.map_map, serialize_of_length hlen']
            rfl
      | timedOut payload payload' _ hgot hlen' hin' hbefore' =>
          rw [List.nil_append] at hgot
          subst hgot
          refine .timedOut _ (opcode :: b0 :: b1 :: b2 :: b3 :: payload) rest' ?_ ?_ ?_
          · rw [hin, hin']
            simp
          · rw [hbefore, hbefore', Option.map_some]
            rfl
          · simp only [headFrame, ite_eq_right_iff]
            omega
      | hungUp rest' hbefore' => exact .hungUp hangUp rest' (by rw [hbefore, hbefore', Option.map_none])

namespace HostTransport

variable (t : HostTransport)

theorem framed (arrivals : List Arrival) :
    Framed arrivals (t.readFrame arrivals).1 (t.readFrame arrivals).2 := by
  cases t with
  | serial => exact readFrame_framed _ _ _ arrivals
  | tcp => exact readFrame_framed _ _ _ arrivals
  | subprocess => exact readFrame_framed _ _ _ arrivals

theorem readFrame_closed (arrivals : List Arrival) :
    ∃ hangUp, t.readFrame (.closed :: arrivals) = (.error (.hungUp hangUp), .closed :: arrivals) := by
  cases t with
  | serial => exact ⟨_, rfl⟩
  | tcp => exact ⟨_, rfl⟩
  | subprocess => exact ⟨_, rfl⟩

-- A call loses bytes exactly when its time runs out inside a frame.
theorem positionKept_iff (arrivals : List Arrival) :
    PositionKept t.readFrame arrivals ↔ ¬Straddled arrivals := by
  have h := t.framed arrivals
  unfold PositionKept
  generalize t.readFrame arrivals = pair at h ⊢
  obtain ⟨result, rest⟩ := pair
  dsimp only at h
  cases h with
  | ok frame _ hfits hin hbefore =>
      refine iff_of_true (fun text rest' he => by cases he) ?_
      rintro ⟨bytes, hbytes, _, hnone⟩
      rw [hbefore] at hbytes
      obtain ⟨tail, _, rfl⟩ := Option.map_eq_some_iff.mp hbytes
      rw [decodes_serialize (Nat.le_refl _) hfits tail] at hnone
      cases hnone
  | timedOut text bytes _ hin hbefore hnone =>
      have hkept : incoming rest = incoming arrivals ↔ bytes = [] := by
        rw [hin]
        exact List.self_eq_append_left
      constructor
      · intro h
        rintro ⟨bytes', hbytes', hne, _⟩
        obtain rfl := Option.some.inj (hbefore.symm.trans hbytes')
        exact hne (hkept.mp (h text rest rfl))
      · intro h text' rest' he
        obtain ⟨_, rfl⟩ := Prod.mk.inj he
        by_contra hne
        exact h ⟨bytes, hbefore, fun hnil => hne (hkept.mpr hnil), hnone⟩
  | hungUp hangUp rest hbefore =>
      refine iff_of_true (fun text rest' he => by cases he) ?_
      rintro ⟨bytes, hbytes, _⟩
      rw [hbefore] at hbytes
      cases hbytes

-- The stream still to be read starts with the frames that have not been returned, or
-- the other end has hung up.
def InStep (frames : List Frame) (arrivals : List Arrival) : Prop :=
  incoming arrivals <+: frames.flatMap Frame.serialize ∨ ∃ rest, arrivals = .closed :: rest

theorem inStep_readFrame {frames : List Frame} {arrivals : List Arrival}
    (hfits : ∀ frame ∈ frames, frame.payload.length ≤ U32_MAX) (h : InStep frames arrivals)
    (hs : ¬Straddled arrivals) :
    ∃ later, frames = (t.readFrame arrivals).1.toOption.toList ++ later ∧
      InStep later (t.readFrame arrivals).2 := by
  rcases h with h | ⟨rest, rfl⟩
  · have hkept := (t.positionKept_iff arrivals).mpr hs
    have hf := t.framed arrivals
    unfold PositionKept at hkept
    generalize t.readFrame arrivals = pair at hf hkept ⊢
    obtain ⟨result, rest⟩ := pair
    dsimp only at hf ⊢
    cases hf with
    | ok frame _ hfit hin hbefore =>
        obtain ⟨behind, hstream⟩ := h
        rw [hin, List.append_assoc] at hstream
        have hhead := decodes_serialize (Nat.le_refl U32_MAX) hfit (incoming rest ++ behind)
        rw [hstream] at hhead
        cases frames with
        | nil => cases hhead
        | cons next later =>
            have hnext := decodes_serialize (Nat.le_refl U32_MAX) (hfits next List.mem_cons_self)
              (later.flatMap Frame.serialize)
            rw [List.flatMap_cons, hnext] at hhead
            obtain ⟨rfl, hlater⟩ := Prod.mk.inj (Option.some.inj hhead)
            exact ⟨later, rfl, .inl ⟨behind, hlater.symm⟩⟩
    | timedOut text bytes _ hin hbefore hnone =>
        refine ⟨frames, rfl, .inl ?_⟩
        rwa [hkept text rest rfl]
    | hungUp hangUp rest hbefore => exact ⟨frames, rfl, .inr ⟨rest, rfl⟩⟩
  · obtain ⟨hangUp, hclosed⟩ := t.readFrame_closed rest
    rw [hclosed]
    exact ⟨frames, rfl, .inr ⟨rest, rfl⟩⟩

theorem inStep_afterCalls {frames : List Frame} {arrivals : List Arrival}
    (hfits : ∀ frame ∈ frames, frame.payload.length ≤ U32_MAX) (h : InStep frames arrivals) (n : Nat)
    (hs : ∀ k < n, ¬Straddled (afterCalls t.readFrame arrivals k)) :
    ∃ later, frames = returnedFrames t.readFrame arrivals n ++ later ∧
      InStep later (afterCalls t.readFrame arrivals n) := by
  induction n with
  | zero => exact ⟨frames, rfl, h⟩
  | succ n ih =>
      obtain ⟨later, hframes, hlater⟩ := ih fun k hk => hs k (by omega)
      have hfits' : ∀ frame ∈ later, frame.payload.length ≤ U32_MAX := fun frame hmem =>
        hfits frame (by rw [hframes]; exact List.mem_append_right _ hmem)
      obtain ⟨later', hlater', hstep⟩ := t.inStep_readFrame hfits' hlater (hs n (by omega))
      refine ⟨later', ?_, hstep⟩
      rw [returnedFrames, List.append_assoc, ← hlater']
      exact hframes

-- Every time-out leaves the stream where it was exactly when none falls inside a
-- frame, and then the frames returned are the first ones of the stream.
theorem read_frame_position_iff (frames : List Frame) (arrivals : List Arrival)
    (hfits : ∀ frame ∈ frames, frame.payload.length ≤ U32_MAX)
    (harrive : incoming arrivals <+: frames.flatMap Frame.serialize) (n : Nat) :
    ((∀ k < n, PositionKept t.readFrame (afterCalls t.readFrame arrivals k)) ↔
        ∀ k < n, ¬Straddled (afterCalls t.readFrame arrivals k)) ∧
      ((∀ k < n, ¬Straddled (afterCalls t.readFrame arrivals k)) →
        returnedFrames t.readFrame arrivals n <+: frames) := by
  constructor
  · exact forall₂_congr fun k _ => t.positionKept_iff _
  · intro hs
    obtain ⟨later, hframes, _⟩ := t.inStep_afterCalls hfits (.inl harrive) n hs
    exact ⟨later, hframes.symm⟩

-- Two frames with a time-out between them.
def quietBetween : List Arrival :=
  [.data [0x07, 0x00, 0x00, 0x00, 0x01, 0x2A] (by decide), .deadline,
    .data [0x03, 0x00, 0x00, 0x00, 0x00] (by decide)]

theorem read_frame_position_quietBetween :
    returnedFrames SerialTransport.readFrame quietBetween 3 <+:
      [{ opcode := 0x07, payload := [0x2A] }, { opcode := 0x03, payload := [] }] := by
  exact (serial.read_frame_position_iff _ quietBetween (by decide) (by decide) 3).2 (by decide)

-- A time-out behind the header of a frame: the payload is read as the next header.
def cutPayload : List Arrival :=
  [.data [0x03, 0x00, 0x00, 0x00, 0x05] (by decide), .deadline,
    .data [0x00, 0x00, 0x00, 0x00, 0x00] (by decide)]

def cutFrame : Frame := { opcode := 0x03, payload := [0x00, 0x00, 0x00, 0x00, 0x00] }

theorem read_frame_loses_position :
    incoming cutPayload = cutFrame.serialize ∧
      ∀ t : HostTransport, ¬returnedFrames t.readFrame cutPayload 2 <+: [cutFrame] := by
  refine ⟨by decide, fun t => ?_⟩
  cases t <;> decide

end HostTransport

end Milo.Host
