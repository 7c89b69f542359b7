import Milo.Host.Device
import Milo.MainLoop.Connection

namespace Milo.Host

open Milo.Lib Milo.Engine.Link Milo.Engine.Executor Milo.Transport Milo.MainLoop Milo.MainLoop.Board

-- How many of the frames before place k are of a kind.
def rank (kind : Frame → Bool) (frames : List Frame) (k : Nat) : Nat :=
  ((frames.take k).filter kind).length

section Receiver

variable {H W : Type} (settings : Settings) (runtime : Runtime H)

def ledger (start : Ledger H) (s : Receiver Connection (ThreadedExecutor H W)) : Ledger H :=
  start.enterAll settings runtime (receivedFrames s.log)

-- The payload the receiver has computed for the k-th frame it received.
def answerTo (start : Ledger H) (s : Receiver Connection (ThreadedExecutor H W)) (k : Nat) :
    Option Bytes :=
  let frames := receivedFrames s.log
  match frames[k]? with
  | none => none
  | some frame =>
      if loadsCode frame then
        (ledger settings runtime start s).payloads[rank loadsCode frames k]?
      else if asksStatus frame then
        ((statusAnswers s.log).map Prod.snd)[rank asksStatus frames k]?
      else none

end Receiver

-- The results that wait_result, alone or inside another method, has returned.
def consumed (returned : List Return) : List Bytes :=
  (returned.filter (·.wait.want = OP_EXEC_RESULT)).map (·.payload)

namespace System

variable {H W : Type}

-- The frames the host has written and the receiver has not read yet.
def inFlight (sys : System H W) : List Frame :=
  sys.receiver.transport.incomingFrames ++ sys.toDevice

-- Nothing of an earlier request of the same kind is left: for a code-loading one no
-- frame, no module, no result and no pending payload, for the others no frame and
-- no answer.
def Clear (sys : System H W) (frame : Frame) : Prop :=
  if loadsCode frame then
    sys.inFlight.filter loadsCode = [] ∧ sys.receiver.exec.available = [] ∧
      resultPayloads sys.receiver.transport.outgoing = [] ∧ sys.device.pendingResults = []
  else
    sys.inFlight.filter asksStatus = [] ∧ statusPayloads sys.receiver.transport.outgoing = []

-- A method that writes a request and waits is called when the way is clear for it.
def Allowed (sys : System H W) : Action → Prop
  | .call op =>
      sys.waiting = none → op.awaits.isSome → ∀ frame ∈ op.request, sys.Clear frame
  | _ => True

instance (sys : System H W) (frame : Frame) : Decidable (sys.Clear frame) :=
  inferInstanceAs (Decidable (ite _ (_ ∧ _ ∧ _ ∧ _) (_ ∧ _)))

instance (sys : System H W) : (action : Action) → Decidable (sys.Allowed action)
  | .call op => inferInstanceAs (Decidable (sys.waiting = none → _ → ∀ frame ∈ op.request, _))
  | .arrive => isTrue trivial
  | .iterate => isTrue trivial
  | .readRouted => isTrue trivial
  | .timeout => isTrue trivial

def AllAllowed (settings : Settings) (runtime : Runtime H) (sys : System H W) : List Action → Prop
  | [] => True
  | action :: actions =>
      sys.Allowed action ∧ AllAllowed settings runtime (sys.step settings runtime action) actions

instance decidableAllAllowed (settings : Settings) (runtime : Runtime H) :
    (sys : System H W) → (actions : List Action) → Decidable (AllAllowed settings runtime sys actions)
  | _, [] => isTrue trivial
  | sys, action :: actions =>
      have := decidableAllAllowed settings runtime (sys.step settings runtime action) actions
      inferInstanceAs (Decidable (_ ∧ _))

-- Every method that wrote a request and returned normally has returned what the
-- receiver computed for that very request.
def Correct (settings : Settings) (runtime : Runtime H) (start : Ledger H) (sys : System H W) : Prop :=
  ∀ r ∈ sys.returned, ∀ k ∈ r.wait.request,
    answerTo settings runtime start sys.receiver k = some r.payload

instance (settings : Settings) (runtime : Runtime H) (start : Ledger H) (sys : System H W) :
    Decidable (Correct settings runtime start sys) :=
  inferInstanceAs (Decidable (∀ r ∈ sys.returned, ∀ k ∈ r.wait.request, _ = _))

end System

theorem Operation.request_known {op : Operation} {frame : Frame} (h : op.request = some frame) :
    Request.ofOpcode frame.opcode ≠ .unknown := by
  cases op <;> cases h <;> dsimp only <;> decide

theorem Operation.request_kind {op : Operation} {frame : Frame} {want : UInt8}
    (h : op.request = some frame) (hw : op.awaits = some want) :
    (want = OP_EXEC_RESULT ∧ loadsCode frame = true) ∨
      (want = OP_STATUS_RESPONSE ∧ loadsCode frame = false ∧ asksStatus frame = true) := by
  cases op <;> cases h <;> cases hw
  all_goals first
    | exact .inl ⟨rfl, rfl⟩
    | exact .inr ⟨rfl, rfl, rfl⟩

-- Of a list that ends in a frame of a kind, only the whole has more frames of that
-- kind than come before the last.
theorem eq_nil_of_filter_lt (kind : Frame → Bool) {received rest earlier : List Frame} {frame : Frame}
    (h : received ++ rest = earlier ++ [frame])
    (hlt : (earlier.filter kind).length < (received.filter kind).length) : rest = [] := by
  rcases List.eq_nil_or_concat rest with rfl | ⟨rest, last, rfl⟩
  · rfl
  · rw [List.concat_eq_append, ← List.append_assoc] at h
    have he := (List.append_inj' h rfl).1
    rw [← he, List.filter_append, List.length_append] at hlt
    omega

section Answer

variable {H W : Type} {settings : Settings} {runtime : Runtime H} {start : Ledger H}
variable {s s' : Receiver Connection (ThreadedExecutor H W)}

theorem answerTo_last_load {earlier : List Frame} {frame : Frame}
    (hr : receivedFrames s.log = earlier ++ [frame]) (hloads : loadsCode frame = true) :
    answerTo settings runtime start s earlier.length =
      (ledger settings runtime start s).payloads[(earlier.filter loadsCode).length]? := by
  simp [answerTo, hr, hloads, rank]

theorem answerTo_last_status {earlier : List Frame} {frame : Frame}
    (hr : receivedFrames s.log = earlier ++ [frame]) (hloads : loadsCode frame = false)
    (hasks : asksStatus frame = true) :
    answerTo settings runtime start s earlier.length =
      ((statusAnswers s.log).map Prod.snd)[(earlier.filter asksStatus).length]? := by
  simp [answerTo, hr, hloads, hasks, rank]

theorem getElem?_of_prefix {α : Type} {xs ys : List α} (h : xs <+: ys) {i : Nat} {a : α}
    (hi : xs[i]? = some a) : ys[i]? = some a := by
  obtain ⟨more, rfl⟩ := h
  rw [List.getElem?_append_left (List.getElem?_eq_some_iff.mp hi).1, hi]

-- An answer that has been computed stays.
theorem answerTo_mono {received : List Frame} {answers : List (Frame × Bytes)}
    (hr : receivedFrames s'.log = receivedFrames s.log ++ received)
    (ha : statusAnswers s'.log = statusAnswers s.log ++ answers) {k : Nat} {payload : Bytes}
    (h : answerTo settings runtime start s k = some payload) :
    answerTo settings runtime start s' k = some payload := by
  have hledger : (ledger settings runtime start s).payloads <+:
      (ledger settings runtime start s').payloads := by
    rw [ledger, ledger, hr, Ledger.enterAll, Ledger.enterAll, List.foldl_append]
    exact Ledger.payloads_isPrefix_enterAll _ _
  unfold answerTo at h ⊢
  dsimp only at h ⊢
  cases hk : (receivedFrames s.log)[k]? with
  | none => rw [hk] at h; cases h
  | some frame =>
      have hlt : k < (receivedFrames s.log).length := (List.getElem?_eq_some_iff.mp hk).1
      have hrank (kind : Frame → Bool) :
          rank kind (receivedFrames s'.log) k = rank kind (receivedFrames s.log) k := by
        rw [rank, hr, List.take_append_of_le_length (Nat.le_of_lt hlt), rank]
      have hk' : (receivedFrames s'.log)[k]? = some frame := by
        rw [hr, List.getElem?_append_left hlt, hk]
      simp only [hk, hk', hrank] at h ⊢
      split_ifs at h ⊢ with hloads hasks
      · exact getElem?_of_prefix hledger h
      · rw [ha, List.map_append]
        exact getElem?_of_prefix (List.prefix_append _ _) h

end Answer

end Milo.Host
