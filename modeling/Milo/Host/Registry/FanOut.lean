import Milo.Host.Registry

-- Which devices an operation over the fleet gets to.
namespace Milo.Host

open Milo.Engine.Link Milo.Lib

namespace Session

variable {J : Type}

theorem readRouted_sent (want : UInt8) (reads : List (Except ReadError Frame)) (s : Session J) :
    (readRouted want reads s).2.sent = s.sent := by
  induction reads generalizing s with
  | nil => rfl
  | cons outcome reads ih =>
      cases outcome with
      | error e => rfl
      | ok frame =>
          unfold readRouted
          split_ifs
          · rfl
          · exact ih _
          · exact ih s

theorem waitResult_sent (s : Session J) : s.waitResult.2.sent = s.sent := by
  have hread := readRouted_sent OP_EXEC_RESULT s.reads s
  unfold waitResult
  split
  · rfl
  · split
    · rename_i hrouted
      rw [hrouted] at hread
      exact hread
    · rename_i hrouted
      rw [hrouted] at hread
      exact hread

theorem finish_sent (s : Session J) (awaits : Option UInt8) : (s.finish awaits).2.sent = s.sent := by
  unfold finish
  split
  · rfl
  · split_ifs
    · exact waitResult_sent s
    · exact readRouted_sent _ s.reads s

-- The next write does not raise.
def Writes (s : Session J) : Prop := ∀ hangUp, s.writes.head? ≠ some (.error hangUp)

-- A method with a request writes that first.
theorem perform_cases (s : Session J) {op : Operation} {frame : Frame}
    (hrequest : op.request = some frame) :
    (s.Writes ∧ ∃ written : Session J, written.sent = s.sent ++ [frame] ∧
      s.perform op = written.finish op.awaits) ∨
    (¬s.Writes ∧ ∃ e failed, s.perform op = (.error e, failed)) := by
  unfold perform Writes writeFrame
  rw [hrequest]
  cases s.writes with
  | nil => exact .inl ⟨fun hangUp => by simp, _, rfl, rfl⟩
  | cons outcome writes =>
      cases outcome with
      | ok _ => exact .inl ⟨fun hangUp => by simp, _, rfl, rfl⟩
      | error hangUp => exact .inr ⟨fun h => h hangUp rfl, _, _, rfl⟩

-- One that comes to its end has written nothing else.
theorem perform_sent {s : Session J} {op : Operation} {answer : Option Bytes}
    (h : (s.perform op).1 = .ok answer) : (s.perform op).2.sent = s.sent ++ op.request.toList := by
  cases hrequest : op.request with
  | none =>
      unfold perform
      rw [hrequest]
      exact (finish_sent s op.awaits).trans (List.append_nil _).symm
  | some frame =>
      rcases s.perform_cases hrequest with ⟨-, written, hsent, hperform⟩ | ⟨-, e, failed, hperform⟩
      · rw [hperform, finish_sent, hsent]
        rfl
      · rw [hperform] at h
        cases h

-- One that waits for nothing raises just when its write does.
theorem perform_or_raises (s : Session J) {op : Operation} {frame : Frame}
    (hrequest : op.request = some frame) (hawaits : op.awaits = none) :
    (s.Writes ∧ (s.perform op).1 = .ok none) ∨ (¬s.Writes ∧ ∃ e, (s.perform op).1 = .error e) := by
  rcases s.perform_cases hrequest with ⟨hwrites, written, -, hperform⟩ | ⟨hfails, e, failed, hperform⟩
  · rw [hperform, hawaits]
    exact .inl ⟨hwrites, rfl⟩
  · rw [hperform]
    exact .inr ⟨hfails, e, rfl⟩

end Session

section Devices

variable {J : Type} (decode : Operation → Bytes → Option J)

-- The operation raised nothing that came of the transport.
def Spares (outcome : Except CallError (Option J)) : Prop :=
  ∀ e, outcome = .error e → e.ofTransport = false

theorem FleetDevice.perform_sent (d : FleetDevice J) (op : Operation)
    (h : Spares (d.perform decode op).1) :
    (d.perform decode op).2.session.sent = d.session.sent ++ op.request.toList ∧
      (d.perform decode op).2.closes = d.closes := by
  unfold FleetDevice.perform at h ⊢
  rcases hperform : d.session.perform op with ⟨e | answer, session⟩
  · rw [hperform] at h
    exact absurd (h _ rfl) (by simp [CallError.ofTransport])
  · have hok : (d.session.perform op).1 = .ok answer := by rw [hperform]
    have hsent := Session.perform_sent hok
    rw [hperform] at hsent
    cases answer with
    | none => exact ⟨hsent, rfl⟩
    | some payload =>
        dsimp only
        cases decode op payload with
        | none => exact ⟨hsent, rfl⟩
        | some value => exact ⟨hsent, rfl⟩

theorem FleetDevice.perform_ok_iff (d : FleetDevice J) {op : Operation} {frame : Frame}
    (hrequest : op.request = some frame) (hawaits : op.awaits = none) :
    (∃ answer, (d.perform decode op).1 = .ok answer) ↔ d.session.Writes := by
  unfold FleetDevice.perform
  rcases d.session.perform_or_raises hrequest hawaits with ⟨hwrites, hok⟩ | ⟨hfails, e, herror⟩
  · rcases hperform : d.session.perform op with ⟨outcome, session⟩
    rw [hperform] at hok
    obtain rfl : outcome = .ok none := hok
    exact iff_of_true ⟨none, rfl⟩ hwrites
  · rcases hperform : d.session.perform op with ⟨outcome, session⟩
    rw [hperform] at herror
    obtain rfl : outcome = .error e := herror
    exact iff_of_false (by rintro ⟨answer, h⟩; cases h) hfails

end Devices

inductive FanOut where
  | pushToAll (wasmBytes : Bytes)
  | pushAsyncToAll (wasmBytes : Bytes)
  | waitAllResults
  | broadcastParam (slot value : ℤ)
  | stopAll
  | queryAll
  | closeAll

namespace FanOut

variable {J : Type} (decode : Operation → Bytes → Option J)

def run (op : FanOut) (reg : DeviceRegistry J) : Fanned J :=
  match op with
  | pushToAll wasmBytes => reg.pushToAll decode wasmBytes
  | pushAsyncToAll wasmBytes => reg.pushAsyncToAll decode wasmBytes
  | waitAllResults => reg.waitAllResults decode
  | broadcastParam slot value => reg.broadcastParam decode slot value
  | stopAll => reg.stopAll decode
  | queryAll => reg.queryAll decode
  | closeAll => reg.closeAll

-- What it does with one device.
def action (op : FanOut) : RegisteredDevice J → Except CallError (Option J) × RegisteredDevice J :=
  match op with
  | pushToAll wasmBytes => RegisteredDevice.call fun d => d.perform decode (.push wasmBytes)
  | pushAsyncToAll wasmBytes => RegisteredDevice.call fun d => d.perform decode (.pushAsync wasmBytes)
  | waitAllResults => RegisteredDevice.call fun d => d.perform decode .waitResult
  | broadcastParam slot value => RegisteredDevice.call fun d => d.setParam decode slot value
  | stopAll => RegisteredDevice.call fun d => d.perform decode .stop
  | queryAll => RegisteredDevice.queryStatus decode
  | closeAll => RegisteredDevice.call FleetDevice.close

-- The frame that a device gets.
def frame : FanOut → Option Frame
  | pushToAll wasmBytes => some { opcode := OP_BYTECODE_PUSH, payload := wasmBytes }
  | pushAsyncToAll wasmBytes => some { opcode := OP_BYTECODE_PUSH, payload := wasmBytes }
  | broadcastParam slot value =>
      some
        { opcode := OP_SET_PARAM
          payload := toBeBytes (UInt32.ofNat slot.toNat) ++ toBeBytes (UInt32.ofNat value.toNat) }
  | stopAll => some { opcode := OP_STOP, payload := [] }
  | queryAll => some { opcode := OP_QUERY_STATUS, payload := [] }
  | waitAllResults | closeAll => none

def closings : FanOut → ℕ
  | closeAll => 1
  | _ => 0

-- The device has had the action, once.
structure DidOnce (op : FanOut) (entry entry' : RegisteredDevice J) : Prop where
  after : entry' = (op.action decode entry).2
  sent : entry'.device.session.sent = entry.device.session.sent ++ op.frame.toList
  closes : entry'.device.closes = entry.device.closes + op.closings

-- The operation returns normally, and so has each connected device whose transport does
-- not raise.
structure Completes (op : FanOut) (reg : DeviceRegistry J) : Prop where
  returns : ∃ results, (op.run decode reg).outcome = .ok results
  reaches : ∀ (k : ℕ) (name : String) (entry : RegisteredDevice J),
    reg.devices[k]? = some (name, entry) → entry.device.connected = true →
    Spares (op.action decode entry).1 →
    ∃ entry', (op.run decode reg).entries[k]? = some (name, entry') ∧ op.DidOnce decode entry entry'

-- No device raises in an operation that has no handler for it.
def Undisturbed (op : FanOut) (reg : DeviceRegistry J) : Prop :=
  match op with
  | pushToAll _ | waitAllResults | stopAll | queryAll => True
  | pushAsyncToAll _ =>
      ∀ item ∈ reg.devices, item.2.device.connected = true → item.2.device.session.Writes
  | broadcastParam slot value =>
      ∀ item ∈ reg.devices, item.2.device.connected = true →
        FitsU32 slot ∧ FitsU32 value ∧ item.2.device.session.Writes
  | closeAll => ∀ item ∈ reg.devices, item.2.device.closing = none

-- What the loop does with an entry.
def body (op : FanOut) :
    RegisteredDevice J → Except CallError (Option (Except CallError (Option J))) × RegisteredDevice J :=
  match op with
  | pushToAll _ | waitAllResults | stopAll | queryAll => tried (op.action decode)
  | pushAsyncToAll _ | broadcastParam _ _ => untried (op.action decode)
  | closeAll => DeviceRegistry.closed

theorem exists_map_ok {ε α β : Type} {f : α → β} {x : Except ε α} :
    (∃ b, x.map f = .ok b) ↔ ∃ a, x = .ok a := by
  cases x with
  | error e => exact iff_of_false (by rintro ⟨b, h⟩; cases h) (by rintro ⟨a, h⟩; cases h)
  | ok a => exact iff_of_true ⟨_, rfl⟩ ⟨a, rfl⟩

theorem over_returns_iff (reg : DeviceRegistry J) (body : RegisteredDevice J →
      Except CallError (Option (Except CallError (Option J))) × RegisteredDevice J) :
    (∃ results, (reg.sweeping body).outcome = .ok results) ↔
      ∀ item ∈ reg.devices, ∃ r, (body item.2).1 = .ok r := by
  refine exists_map_ok.trans ((sweep_ok_iff reg.devices).trans ?_)
  exact forall₂_congr fun item _ => exists_map_ok

theorem run_returns_iff (op : FanOut) (reg : DeviceRegistry J) :
    (∃ results, (op.run decode reg).outcome = .ok results) ↔
      ∀ item ∈ reg.devices, ∃ r, (op.body decode item.2).1 = .ok r := by
  rw [← over_returns_iff]
  cases op with
  | closeAll => rw [run, reg.closeAll_outcome, body]
  | _ => rfl

theorem run_entries (op : FanOut) (reg : DeviceRegistry J) :
    (op.run decode reg).entries = (sweep (named (op.body decode)) reg.devices).2 := by
  cases op with
  | closeAll => exact reg.closeAll_entries
  | _ => rfl

-- A connected device has the action, whether the loop has a handler or not.
theorem body_after (op : FanOut) {entry : RegisteredDevice J} (h : entry.device.connected = true) :
    (op.body decode entry).2 = (op.action decode entry).2 := by
  cases op with
  | pushAsyncToAll wasmBytes => simp only [body, untried, if_pos h, Prod.map_snd, id_eq]
  | broadcastParam slot value => simp only [body, untried, if_pos h, Prod.map_snd, id_eq]
  | closeAll => rfl
  | _ => simp only [body, tried, if_pos h, Prod.map_snd, id_eq, caught]

theorem tried_returns (call : RegisteredDevice J → Except CallError (Option J) × RegisteredDevice J)
    (entry : RegisteredDevice J) : ∃ r, (tried call entry).1 = .ok r := by
  unfold tried
  split_ifs
  · exact ⟨_, rfl⟩
  · exact ⟨_, rfl⟩

theorem untried_returns_iff
    (call : RegisteredDevice J → Except CallError (Option J) × RegisteredDevice J)
    (entry : RegisteredDevice J) :
    (∃ r, (untried call entry).1 = .ok r) ↔
      (entry.device.connected = true → ∃ answer, (call entry).1 = .ok answer) := by
  unfold untried
  split_ifs with h
  · rw [forall_prop_of_true h]
    exact exists_map_ok
  · exact iff_of_true ⟨_, rfl⟩ fun hconnected => absurd hconnected h

theorem setParam_ok_iff (d : FleetDevice J) (slot value : ℤ) :
    (∃ answer, (d.setParam decode slot value).1 = .ok answer) ↔
      FitsU32 slot ∧ FitsU32 value ∧ d.session.Writes := by
  unfold FleetDevice.setParam
  split_ifs with hfits
  · rw [d.perform_ok_iff decode rfl rfl, ← and_assoc, and_iff_right hfits]
  · refine iff_of_false (by rintro ⟨answer, h⟩; cases h) ?_
    rintro ⟨hslot, hvalue, -⟩
    exact hfits ⟨hslot, hvalue⟩

theorem close_ok_iff (d : FleetDevice J) :
    (∃ answer, d.close.1 = .ok answer) ↔ d.closing = none := by
  unfold FleetDevice.close
  cases d.closing with
  | none => exact iff_of_true ⟨none, rfl⟩ rfl
  | some hangUp => exact iff_of_false (by rintro ⟨answer, h⟩; cases h) (by rintro h; cases h)

theorem undisturbed_iff (op : FanOut) (reg : DeviceRegistry J) :
    op.Undisturbed reg ↔ ∀ item ∈ reg.devices, ∃ r, (op.body decode item.2).1 = .ok r := by
  cases op with
  | pushAsyncToAll wasmBytes =>
      refine forall₂_congr fun item _ => ?_
      rw [body, untried_returns_iff]
      exact imp_congr_right fun _ => (FleetDevice.perform_ok_iff decode item.2.device rfl rfl).symm
  | broadcastParam slot value =>
      refine forall₂_congr fun item _ => ?_
      rw [body, untried_returns_iff]
      exact imp_congr_right fun _ => (setParam_ok_iff decode item.2.device slot value).symm
  | closeAll =>
      exact forall₂_congr fun item _ => (exists_map_ok.trans (close_ok_iff item.2.device)).symm
  | _ => exact iff_of_true trivial fun item _ => tried_returns _ item.2

-- An action that the transport does not fail has been done once.
theorem didOnce (op : FanOut) {entry : RegisteredDevice J} (hspares : Spares (op.action decode entry).1)
    (hfits : ∀ slot value, op = broadcastParam slot value → FitsU32 slot ∧ FitsU32 value) :
    op.DidOnce decode entry (op.action decode entry).2 := by
  cases op with
  | pushToAll wasmBytes =>
      have h := entry.device.perform_sent decode (.push wasmBytes) hspares
      exact ⟨rfl, h.1, h.2⟩
  | pushAsyncToAll wasmBytes =>
      have h := entry.device.perform_sent decode (.pushAsync wasmBytes) hspares
      exact ⟨rfl, h.1, h.2⟩
  | waitAllResults =>
      have h := entry.device.perform_sent decode .waitResult hspares
      exact ⟨rfl, h.1, h.2⟩
  | broadcastParam slot value =>
      have hset : entry.device.setParam decode slot value = entry.device.perform decode
          (.setParam (UInt32.ofNat slot.toNat) (UInt32.ofNat value.toNat)) :=
        if_pos (hfits slot value rfl)
      have haction : (broadcastParam slot value).action decode entry =
          entry.call fun d => d.perform decode
            (.setParam (UInt32.ofNat slot.toNat) (UInt32.ofNat value.toNat)) := by
        simp only [action, RegisteredDevice.call, hset]
      rw [haction] at hspares
      have h := entry.device.perform_sent decode _ hspares
      exact ⟨rfl, haction ▸ h.1, haction ▸ h.2⟩
  | stopAll =>
      have h := entry.device.perform_sent decode .stop hspares
      exact ⟨rfl, h.1, h.2⟩
  | queryAll =>
      obtain ⟨houtcome, hdevice⟩ := entry.queryStatus_eq decode
      have h := entry.device.perform_sent decode .queryStatus (houtcome ▸ hspares)
      rw [← hdevice] at h
      exact ⟨rfl, h.1, h.2⟩
  | closeAll =>
      cases hclosing : entry.device.closing with
      | some hangUp =>
          have hraised : (closeAll.action decode entry).1 = .error (.closing hangUp) := by
            simp only [action, RegisteredDevice.call, FleetDevice.close, hclosing]
          have hfalse := hspares _ hraised
          cases hfalse
      | none =>
          refine ⟨rfl, ?_, ?_⟩
          · simp only [action, RegisteredDevice.call, FleetDevice.close, hclosing]
            exact (List.append_nil _).symm
          · simp only [action, RegisteredDevice.call, FleetDevice.close, hclosing, closings]

-- An operation over the fleet does what it is for just when no device raises where the
-- operation has no handler for it.
theorem completes_iff (op : FanOut) (reg : DeviceRegistry J) :
    op.Completes decode reg ↔ op.Undisturbed reg := by
  rw [undisturbed_iff decode, ← run_returns_iff]
  constructor
  · exact Completes.returns
  · intro hreturns
    refine ⟨hreturns, fun k name entry hget hconnected hspares => ?_⟩
    have hbodies := (run_returns_iff decode op reg).mp hreturns
    have hnamed : ∀ item ∈ reg.devices, ∃ r, (named (op.body decode) item).1 = .ok r :=
      fun item hitem => exists_map_ok.mpr (hbodies item hitem)
    have hentries := run_entries decode op reg
    rw [sweep_of_ok hnamed] at hentries
    refine ⟨(op.action decode entry).2, ?_, op.didOnce decode hspares ?_⟩
    · rw [hentries, List.getElem?_map, hget, ← op.body_after decode hconnected]
      rfl
    · rintro slot value rfl
      have hundisturbed := (undisturbed_iff decode _ reg).mpr hbodies
      obtain ⟨hslot, hvalue, -⟩ := hundisturbed (name, entry) (List.mem_of_getElem? hget) hconnected
      exact ⟨hslot, hvalue⟩

-- The devices behind one that raises are left as they were.
theorem raised_leaves_rest (op : FanOut) (reg : DeviceRegistry J) {e : CallError}
    (h : (op.run decode reg).outcome = .error e) :
    ∃ front item back, reg.devices = front ++ item :: back ∧
      (op.run decode reg).entries.drop (front.length + 1) = back := by
  have hraised : ∃ e, (sweep (named (op.body decode)) reg.devices).1 = .error e := by
    cases hsweep : (sweep (named (op.body decode)) reg.devices).1 with
    | error e => exact ⟨e, rfl⟩
    | ok rs =>
        have hreturns := (run_returns_iff decode op reg).mpr fun item hitem =>
          exists_map_ok.mp ((sweep_ok_iff reg.devices).mp ⟨rs, hsweep⟩ item hitem)
        obtain ⟨results, hok⟩ := hreturns
        rw [h] at hok
        cases hok
  obtain ⟨e, hsweep⟩ := hraised
  obtain ⟨front, item, back, hdevices, -, -, hentries⟩ := sweep_raised hsweep
  refine ⟨front, item, back, hdevices, ?_⟩
  rw [run_entries, hentries, List.drop_append, List.length_map,
    List.drop_eq_nil_of_le (by rw [List.length_map]; exact Nat.le_succ _), Nat.add_sub_cancel_left]
  rfl

end FanOut

-- A fleet of two, of which the first has lost its connection without noticing.
def lostDevice : RegisteredDevice Unit where
  device :=
    { session := .start [] [.error (.connectionError "[Errno 32] Broken pipe")]
      connected := true
      closing := none
      closes := 0 }
  lastStatus := none

def soundDevice : RegisteredDevice Unit where
  device := { session := .start [] [], connected := true, closing := none, closes := 0 }
  lastStatus := none

def brokenFleet : DeviceRegistry Unit where
  devices := [("lost", lostDevice), ("sound", soundDevice)]
  nodup := by decide

theorem broadcast_half_finished :
    ¬(FanOut.broadcastParam 0 1).Completes (fun _ _ => none) brokenFleet ∧
      ((FanOut.broadcastParam 0 1).run (fun _ _ => none) brokenFleet).entries[1]? =
        some ("sound", soundDevice) := by
  refine ⟨fun hcompletes => ?_, rfl⟩
  obtain ⟨results, hreturns⟩ := hcompletes.returns
  cases hreturns

end Milo.Host
