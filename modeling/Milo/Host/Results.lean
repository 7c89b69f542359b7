import Milo.Host.Device
import Milo.Host.Transport

namespace Milo.Host

open Milo.Engine.Link Milo.MainLoop

-- A MiloDevice at work on its transport: what the reads and writes to come will bring,
-- with J for the values that JSON decodes to. A read brings a frame or raises, as it
-- does when the time of the method is up; after the last one nothing comes in, and after
-- the last write all succeed.
structure Session (J : Type) where
  device : MiloDevice
  manifest : Option J
  reads : List (Except ReadError Frame)
  writes : List (Except HangUp Unit)
  -- the history: the frames written, and the payloads that wait_result has decoded
  sent : List Frame
  consumed : List Bytes

namespace Session

variable {J : Type}

def start (reads : List (Except ReadError Frame)) (writes : List (Except HangUp Unit)) : Session J where
  device := { pendingResults := [] }
  manifest := none
  reads := reads
  writes := writes
  sent := []
  consumed := []

def writeFrame (s : Session J) (frame : Frame) : Except ReadError Unit × Session J :=
  match s.writes with
  | [] => (.ok (), { s with sent := s.sent ++ [frame] })
  | .ok () :: writes => (.ok (), { s with writes := writes, sent := s.sent ++ [frame] })
  | .error hangUp :: writes => (.error (.hungUp hangUp), { s with writes := writes })

-- The loop of _read_routed.
def readRouted (want : UInt8) : List (Except ReadError Frame) → Session J →
    Except ReadError Bytes × Session J
  | [], s => (.error (.timeoutError "timed out"), { s with reads := [] })
  | .error e :: reads, s => (.error e, { s with reads := reads })
  | .ok frame :: reads, s =>
      if frame.opcode = want then (.ok frame.payload, { s with reads := reads })
      else if frame.opcode = OP_EXEC_RESULT then
        readRouted want reads
          { s with device := { pendingResults := s.device.pendingResults ++ [frame.payload] } }
      else readRouted want reads s

-- The payload is gone, whether _parse_result can decode it or not.
def waitResult (s : Session J) : Except ReadError Bytes × Session J :=
  match s.device.pendingResults with
  | payload :: pending =>
      (.ok payload,
        { s with device := { pendingResults := pending }, consumed := s.consumed ++ [payload] })
  | [] =>
      match readRouted OP_EXEC_RESULT s.reads s with
      | (.ok payload, s) => (.ok payload, { s with consumed := s.consumed ++ [payload] })
      | (.error e, s) => (.error e, s)

-- A method after it has written its request.
def finish (s : Session J) (awaits : Option UInt8) : Except ReadError (Option Bytes) × Session J :=
  match awaits with
  | none => (.ok none, s)
  | some want =>
      if want = OP_EXEC_RESULT then s.waitResult.map (·.map some) id
      else (readRouted want s.reads s).map (·.map some) id

def perform (s : Session J) (op : Operation) : Except ReadError (Option Bytes) × Session J :=
  match op.request with
  | none => s.finish op.awaits
  | some frame =>
      match s.writeFrame frame with
      | (.error e, s) => (.error e, s)
      | (.ok (), s) => s.finish op.awaits

-- The methods one after the other, whatever they return or raise.
def run (s : Session J) (ops : List Operation) : Session J :=
  ops.foldl (fun s op => (s.perform op).2) s

def framesOf (reads : List (Except ReadError Frame)) : List Frame := reads.filterMap (·.toOption)

-- The results read on the way come behind the pending ones, and from the front of these
-- they go to wait_result.
def Keeps (s s' : Session J) : Prop :=
  ∃ read, s.reads = read ++ s'.reads ∧
    s'.consumed ++ s'.device.pendingResults =
      s.consumed ++ s.device.pendingResults ++ resultPayloads (framesOf read)

theorem framesOf_append (reads reads' : List (Except ReadError Frame)) :
    framesOf (reads ++ reads') = framesOf reads ++ framesOf reads' := List.filterMap_append

theorem resultPayloads_append (frames frames' : List Frame) :
    resultPayloads (frames ++ frames') = resultPayloads frames ++ resultPayloads frames' := by
  simp only [resultPayloads, List.filter_append, List.map_append]

theorem keeps_of_eq {s s' : Session J} (hreads : s'.reads = s.reads) (hdevice : s'.device = s.device)
    (hconsumed : s'.consumed = s.consumed) : Keeps s s' :=
  ⟨[], hreads.symm, by rw [hdevice, hconsumed]; exact (List.append_nil _).symm⟩

theorem Keeps.trans {s s' s'' : Session J} (h : Keeps s s') (h' : Keeps s' s'') : Keeps s s'' := by
  obtain ⟨read, hreads, hresults⟩ := h
  obtain ⟨read', hreads', hresults'⟩ := h'
  refine ⟨read ++ read', ?_, ?_⟩
  · rw [hreads, hreads', List.append_assoc]
  · rw [hresults', hresults, framesOf_append, resultPayloads_append, List.append_assoc]

-- The result the loop was asked for, if it was asked for one.
def wanted (want : UInt8) : Except ReadError Bytes → List Bytes
  | .ok payload => if want = OP_EXEC_RESULT then [payload] else []
  | .error _ => []

theorem resultPayloads_cons (frame : Frame) (frames : List Frame) :
    resultPayloads (frame :: frames) =
      (if frame.opcode = OP_EXEC_RESULT then [frame.payload] else []) ++ resultPayloads frames := by
  unfold resultPayloads
  split_ifs with hop <;> simp [hop]

-- What the loop has read, and where the results among it are. Waiting for a result it
-- stashes none.
structure Routed (want : UInt8) (reads : List (Except ReadError Frame)) (s : Session J)
    (outcome : Except ReadError Bytes) (s' : Session J) : Prop where
  consumed : s'.consumed = s.consumed
  pending : want = OP_EXEC_RESULT → s'.device = s.device
  results : ∃ read, reads = read ++ s'.reads ∧
    s'.device.pendingResults ++ wanted want outcome =
      s.device.pendingResults ++ resultPayloads (framesOf read)

theorem readRouted_routed (want : UInt8) (reads : List (Except ReadError Frame)) (s : Session J) :
    Routed want reads s (readRouted want reads s).1 (readRouted want reads s).2 := by
  induction reads generalizing s with
  | nil => exact ⟨rfl, fun _ => rfl, [], rfl, rfl⟩
  | cons outcome reads ih =>
      cases outcome with
      | error e => exact ⟨rfl, fun _ => rfl, [.error e], rfl, rfl⟩
      | ok frame =>
          have hframe (read : List (Except ReadError Frame)) :
              resultPayloads (framesOf (.ok frame :: read)) =
                (if frame.opcode = OP_EXEC_RESULT then [frame.payload] else []) ++
                  resultPayloads (framesOf read) :=
            resultPayloads_cons frame (framesOf read)
          unfold readRouted
          split_ifs with hwant hop
          · refine ⟨rfl, fun _ => rfl, [.ok frame], rfl, ?_⟩
            rw [hframe, ← hwant]
            exact congrArg (s.device.pendingResults ++ ·) (List.append_nil _).symm
          · have h := ih { s with device := { pendingResults := s.device.pendingResults ++ [frame.payload] } }
            obtain ⟨read, hreads, hresults⟩ := h.results
            refine ⟨h.consumed, fun hexec => absurd (hop.trans hexec.symm) hwant, .ok frame :: read,
              congrArg (Except.ok frame :: ·) hreads, ?_⟩
            rw [hresults, hframe, if_pos hop, List.append_assoc]
          · have h := ih s
            obtain ⟨read, hreads, hresults⟩ := h.results
            refine ⟨h.consumed, h.pending, .ok frame :: read, congrArg (Except.ok frame :: ·) hreads, ?_⟩
            rw [hresults, hframe, if_neg hop, List.nil_append]

theorem keeps_readRouted {want : UInt8} (hwant : want ≠ OP_EXEC_RESULT) (s : Session J) :
    Keeps s (readRouted want s.reads s).2 := by
  have h := readRouted_routed want s.reads s
  obtain ⟨read, hreads, hresults⟩ := h.results
  have hnone : wanted want (readRouted want s.reads s).1 = [] := by
    unfold wanted
    split
    · rw [if_neg hwant]
    · rfl
  rw [hnone, List.append_nil] at hresults
  exact ⟨read, hreads, by rw [h.consumed, hresults, List.append_assoc]⟩

theorem keeps_waitResult (s : Session J) : Keeps s s.waitResult.2 := by
  have h := readRouted_routed OP_EXEC_RESULT s.reads s
  unfold waitResult
  cases hpending : s.device.pendingResults with
  | cons payload pending =>
      refine ⟨[], rfl, ?_⟩
      simp [hpending, framesOf, resultPayloads]
  | nil =>
      obtain ⟨read, hreads, hresults⟩ := h.results
      have hconsumed := h.consumed
      have hnone : (readRouted OP_EXEC_RESULT s.reads s).2.device.pendingResults = [] := by
        rw [h.pending rfl, hpending]
      rw [hnone, hpending, List.nil_append, List.nil_append] at hresults
      generalize readRouted OP_EXEC_RESULT s.reads s = after at hconsumed hreads hresults hnone ⊢
      obtain ⟨outcome, after⟩ := after
      refine ⟨read, ?_⟩
      rw [hpending, List.append_nil, ← hresults, ← hconsumed]
      cases outcome with
      | error e => exact ⟨hreads, congrArg (after.consumed ++ ·) hnone⟩
      | ok payload =>
          refine ⟨hreads, ?_⟩
          change (after.consumed ++ [payload]) ++ after.device.pendingResults = _
          rw [hnone, List.append_nil]
          rfl

theorem keeps_finish (s : Session J) (awaits : Option UInt8) : Keeps s (s.finish awaits).2 := by
  unfold finish
  split
  · exact keeps_of_eq rfl rfl rfl
  · split_ifs with hwant
    · exact keeps_waitResult s
    · exact keeps_readRouted hwant s

theorem keeps_writeFrame (s : Session J) (frame : Frame) : Keeps s (s.writeFrame frame).2 := by
  unfold writeFrame
  split
  · exact keeps_of_eq rfl rfl rfl
  · exact keeps_of_eq rfl rfl rfl
  · exact keeps_of_eq rfl rfl rfl

theorem keeps_perform (s : Session J) (op : Operation) : Keeps s (s.perform op).2 := by
  unfold perform
  cases op.request with
  | none => exact keeps_finish s op.awaits
  | some frame =>
      have hwrite := keeps_writeFrame s frame
      dsimp only
      generalize s.writeFrame frame = written at hwrite ⊢
      obtain ⟨outcome, written⟩ := written
      cases outcome with
      | error e => exact hwrite
      | ok _ => exact hwrite.trans (keeps_finish written op.awaits)

theorem keeps_run (s : Session J) (ops : List Operation) : Keeps s (s.run ops) := by
  induction ops generalizing s with
  | nil => exact keeps_of_eq rfl rfl rfl
  | cons op ops ih => exact (keeps_perform s op).trans (ih _)

-- The results that a method returns.
def returned (awaits : Option UInt8) : Except ReadError (Option Bytes) → List Bytes
  | .ok (some payload) => if awaits = some OP_EXEC_RESULT then [payload] else []
  | _ => []

def returnedBy (s : Session J) : List Operation → List Bytes
  | [] => []
  | op :: ops => returned op.awaits (s.perform op).1 ++ returnedBy (s.perform op).2 ops

theorem waitResult_consumed (s : Session J) :
    s.waitResult.2.consumed = s.consumed ++ wanted OP_EXEC_RESULT s.waitResult.1 := by
  unfold waitResult
  cases s.device.pendingResults with
  | cons payload pending => rfl
  | nil =>
      have hconsumed := (readRouted_routed OP_EXEC_RESULT s.reads s).consumed
      dsimp only
      generalize readRouted OP_EXEC_RESULT s.reads s = after at hconsumed ⊢
      obtain ⟨outcome, after⟩ := after
      cases outcome with
      | error e => exact hconsumed.trans (List.append_nil _).symm
      | ok payload => exact congrArg (· ++ [payload]) hconsumed

theorem finish_consumed (s : Session J) (awaits : Option UInt8) :
    (s.finish awaits).2.consumed = s.consumed ++ returned awaits (s.finish awaits).1 := by
  unfold finish
  cases awaits with
  | none => exact (List.append_nil _).symm
  | some want =>
      dsimp only
      split_ifs with hwant
      · have h := s.waitResult_consumed
        rw [hwant]
        generalize s.waitResult = after at h ⊢
        obtain ⟨outcome, after⟩ := after
        cases outcome with
        | error e => exact h
        | ok payload => exact h
      · have h := (readRouted_routed want s.reads s).consumed
        generalize readRouted want s.reads s = after at h ⊢
        obtain ⟨outcome, after⟩ := after
        cases outcome with
        | error e => exact h.trans (List.append_nil _).symm
        | ok payload => simpa [returned, hwant, Prod.map, Except.map] using h

-- What a method consumes is the result that it returns.
theorem perform_consumed (s : Session J) (op : Operation) :
    (s.perform op).2.consumed = s.consumed ++ returned op.awaits (s.perform op).1 := by
  unfold perform
  cases op.request with
  | none => exact s.finish_consumed op.awaits
  | some frame =>
      have hwrite : (s.writeFrame frame).2.consumed = s.consumed := by
        unfold writeFrame
        split <;> rfl
      dsimp only
      generalize s.writeFrame frame = written at hwrite ⊢
      obtain ⟨outcome, written⟩ := written
      cases outcome with
      | error e => exact hwrite.trans (List.append_nil _).symm
      | ok _ =>
          rw [← hwrite]
          exact written.finish_consumed op.awaits

theorem run_consumed (s : Session J) (ops : List Operation) :
    (s.run ops).consumed = s.consumed ++ s.returnedBy ops := by
  induction ops generalizing s with
  | nil => exact (List.append_nil _).symm
  | cons op ops ih =>
      calc
        ((s.perform op).2.run ops).consumed =
            (s.perform op).2.consumed ++ (s.perform op).2.returnedBy ops := ih _
        _ = s.consumed ++ s.returnedBy (op :: ops) := by
            rw [perform_consumed, returnedBy, List.append_assoc]

-- Whatever the methods called and the frames that come in: the results read so far are
-- those that wait_result has had, followed by the pending ones.
theorem results_consumed_in_order (reads : List (Except ReadError Frame)) (writes : List (Except HangUp Unit))
    (ops : List Operation) :
    let s : Session J := (start reads writes).run ops
    ∃ read, reads = read ++ s.reads ∧
      resultPayloads (framesOf read) = s.consumed ++ s.device.pendingResults := by
  obtain ⟨read, hreads, hresults⟩ := keeps_run (start (J := J) reads writes) ops
  exact ⟨read, hreads, hresults.symm⟩

end Session

end Milo.Host
