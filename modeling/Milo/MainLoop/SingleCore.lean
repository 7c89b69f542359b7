import Milo.Engine.SingleCore
import Milo.MainLoop.Effect

namespace Milo.MainLoop

open Milo.Rust Milo.Engine.Link Milo.Engine.Executor Milo.Transport

-- The main loop with a SingleCoreExecutor, as main_loop and the ESP32-C3 entry point have
-- it.
def Settings.singleCore {T H : Type} (settings : Settings) (transport : MiloTransport T)
    (runtime : InlineRuntime H) : Board T (SingleCoreExecutor H) H :=
  { settings with transport := transport, executor := SingleCoreExecutor.executor runtime }

-- What has been given to write_frame, whatever became of it.
def Event.sentFrame : Event → Option Frame
  | .reported result _ => some (resultFrame result)
  | .answered _ response _ => some response
  | _ => none

def sentFrames (log : List Event) : List Frame := log.filterMap Event.sentFrame

-- The opcodes of the complete answer to a request.
def Request.answerOpcodes : Request → List UInt8
  | .discovery => [OP_DISCOVERY]
  | .push _ => [OP_EXEC_RESULT]
  | .stop => [OP_STATUS_RESPONSE]
  | .queryStatus => [OP_STATUS_RESPONSE]
  | .setParam => []
  | .hotSwap _ => [OP_EXEC_RESULT]
  | .unknown => [OP_EXEC_RESULT]

theorem Request.answerOpcodes_of_loads {request : Request} {signed : Bool}
    (h : request.loads = some signed) : request.answerOpcodes = [OP_EXEC_RESULT] := by
  cases request <;> first | rfl | cases h

namespace Board

section Dispatch

variable {T E H : Type} (board : Board T E H)

-- The validation of the module in a frame comes to an end.
def Authorizes (frame : Frame) : Prop :=
  ∀ signed, (Request.ofOpcode frame.opcode).loads = some signed →
    ∃ outcome, board.authorizeModule frame.payload signed = .ok outcome

theorem dispatch_returns_iff (s : Receiver T E) (frame : Frame) :
    (∃ s', board.dispatch s frame = .ok s') ↔ board.Authorizes frame := by
  constructor
  · rintro ⟨s', h⟩ signed hloads
    exact (board.dispatch_handled h).authorizes hloads
  · intro h
    unfold dispatch
    cases hreq : Request.ofOpcode frame.opcode with
    | push signed =>
        obtain ⟨outcome, hauth⟩ := h signed (by rw [hreq]; rfl)
        cases outcome <;> exact ⟨_, by simp only [hauth]; rfl⟩
    | hotSwap signed =>
        obtain ⟨outcome, hauth⟩ := h signed (by rw [hreq]; rfl)
        cases outcome <;> exact ⟨_, by simp only [hauth]; rfl⟩
    | discovery => exact ⟨_, rfl⟩
    | stop => exact ⟨_, rfl⟩
    | queryStatus => exact ⟨_, rfl⟩
    | setParam => exact ⟨_, rfl⟩
    | unknown => exact ⟨_, rfl⟩

-- The same of the frame that the next iteration reads.
def AuthorizesNext (s : Receiver T E) : Prop :=
  ∀ frame t, s.fault = none → board.transport.readFrame s.transport = (.ok (.ok frame), t) →
    board.Authorizes frame

-- The next iteration answers its frame in full, and sends nothing when there is none.
structure Answers (s : Receiver T E) : Prop where
  frame : ∀ frame t, s.fault = none →
    board.transport.readFrame s.transport = (.ok (.ok frame), t) →
      (board.step s).fault = none ∧ ∃ responses,
        sentFrames (board.step s).log = sentFrames s.log ++ responses ∧
          responses.map Frame.opcode = (Request.ofOpcode frame.opcode).answerOpcodes
  idle : ∀ e t, s.fault = none → board.transport.readFrame s.transport = (.ok (.error e), t) →
    sentFrames (board.step s).log = sentFrames s.log

end Dispatch

section SingleCore

variable {T H : Type} {settings : Settings} {transport : MiloTransport T} {runtime : InlineRuntime H}
variable {s s' : Receiver T (SingleCoreExecutor H)} {frame : Frame}

-- What holds at the head of the loop.
structure Steady (s : Receiver T (SingleCoreExecutor H)) : Prop where
  settled : s.exec.Settled
  results : noHardware ∉ takenResults s.log

theorem Steady.receive (h : Steady s) (t : T) (outcome : Except LinkError Frame) :
    Steady (receive s t outcome) :=
  ⟨h.settled, (takenResults_receive t outcome).symm ▸ h.results⟩

-- In an idle gap poll_result has nothing.
theorem Steady.report_eq (h : Steady s) :
    (settings.singleCore transport runtime).report s = s := by
  have hpoll : (settings.singleCore transport runtime).executor.pollResult
      ((settings.singleCore transport runtime).executor.elapse s.exec) = (none, s.exec) :=
    h.settled.pollResult
  unfold report
  rw [hpoll]

theorem Steady.answer (h : Steady s) (request response : Frame) :
    Steady ((settings.singleCore transport runtime).answer s request response) :=
  ⟨h.settled, (takenResults_answer request response).symm ▸ h.results⟩

theorem Steady.stop (h : Steady s) : Steady ((settings.singleCore transport runtime).stop s) :=
  ⟨h.settled.stop, takenResults_stop.symm ▸ h.results⟩

theorem Steady.report_submit (h : Steady s) (wasm : Bytes) :
    let s' := (settings.singleCore transport runtime).report
      ((settings.singleCore transport runtime).submit s wasm)
    Steady s' ∧ s'.fault = s.fault ∧
      ∃ result, sentFrames s'.log = sentFrames s.log ++ [resultFrame result] := by
  obtain ⟨outcome, e', hpoll, hsettled⟩ := h.settled.pollResult_submit runtime wasm
  have hpoll' : (settings.singleCore transport runtime).executor.pollResult
      ((settings.singleCore transport runtime).executor.elapse
        ((settings.singleCore transport runtime).submit s wasm).exec) =
      (some (ExecResult.ofRun outcome), e') := hpoll
  intro s'
  have hs' : s' = (settings.singleCore transport runtime).report
      ((settings.singleCore transport runtime).submit s wasm) := rfl
  unfold report at hs'
  rw [hpoll'] at hs'
  rw [hs']
  refine ⟨⟨hsettled, ?_⟩, rfl, ExecResult.ofRun outcome, ?_⟩
  · have hne := ofRun_ne_noHardware outcome
    have hresults := h.results
    unfold takenResults at hresults ⊢
    simp [submit, List.filterMap_cons, Event.takenResult, hresults, hne.symm]
  · simp [submit, sentFrames, List.filterMap_cons, Event.sentFrame]

theorem Steady.handled (h : Steady s) (hs : (settings.singleCore transport runtime).Handled s frame s') :
    Steady s' ∧ s'.fault = s.fault ∧ ∃ responses,
      sentFrames s'.log = sentFrames s.log ++ responses ∧
        responses.map Frame.opcode = (Request.ofOpcode frame.opcode).answerOpcodes := by
  cases hs with
  | discovery hreq =>
      refine ⟨h.answer _ _, rfl, _, List.filterMap_append, ?_⟩
      rw [hreq]
      rfl
  | refused signed message hloads hauth =>
      refine ⟨h.answer _ _, rfl, _, List.filterMap_append, ?_⟩
      rw [Request.answerOpcodes_of_loads hloads]
      rfl
  | pushed signed wasm hreq hauth =>
      obtain ⟨hsteady, hfault, result, hsent⟩ := h.report_submit wasm
      refine ⟨hsteady, hfault, _, hsent, ?_⟩
      rw [hreq]
      rfl
  | swapped signed wasm hreq hauth =>
      obtain ⟨hsteady, hfault, result, hsent⟩ := h.stop.report_submit wasm
      refine ⟨hsteady, hfault, [resultFrame result], hsent.trans ?_, ?_⟩
      · simp [Board.stop, sentFrames, Event.sentFrame]
      · rw [hreq]
        rfl
  | stopped hreq =>
      refine ⟨h.stop.answer _ _, rfl, [stoppedFrame], ?_, ?_⟩
      · simp [Board.answer, Board.stop, sentFrames, List.filterMap_cons, Event.sentFrame]
      · rw [hreq]
        rfl
  | queried hreq =>
      refine ⟨h.answer _ _, rfl, _, List.filterMap_append, ?_⟩
      rw [hreq]
      rfl
  | param hreq =>
      have hlog : (setParam s frame.payload).log = s.log ∧
          (setParam s frame.payload).exec = s.exec ∧ (setParam s frame.payload).fault = s.fault := by
        unfold setParam
        split <;> exact ⟨rfl, rfl, rfl⟩
      obtain ⟨hlog, hexec, hfault⟩ := hlog
      refine ⟨⟨hexec ▸ h.settled, hlog ▸ h.results⟩, hfault, [], ?_, ?_⟩
      · rw [hlog, List.append_nil]
      · rw [hreq]
        rfl
  | unknown hreq =>
      refine ⟨h.answer _ _, rfl, _, List.filterMap_append, ?_⟩
      rw [hreq]
      rfl

theorem Steady.stepped (h : Steady s) (hs : (settings.singleCore transport runtime).Stepped s s') :
    Steady s' := by
  cases hs with
  | ended fault => exact ⟨h.settled, h.results⟩
  | idle e t _ _ =>
      have hreceive := h.receive t (.error e)
      rw [hreceive.report_eq]
      exact hreceive
  | handled frame t s' _ _ hs => exact ((h.receive t _).handled hs).1

theorem steady_run (t : T) (hw : H) (fuel : Option UInt64) (n : Nat) :
    Steady ((settings.singleCore transport runtime).run (.start t (.new hw fuel)) n) :=
  (settings.singleCore transport runtime).run_induction (motive := Steady)
    ⟨SingleCoreExecutor.settled_new hw fuel, List.not_mem_nil⟩ (fun _ _ hs h => h.stepped hs) n

theorem Steady.answers_iff (h : Steady s) :
    (settings.singleCore transport runtime).Answers s ↔
      (settings.singleCore transport runtime).AuthorizesNext s := by
  constructor
  · intro hanswers frame t hf hr
    obtain ⟨hnone, -⟩ := hanswers.frame frame t hf hr
    rcases step_of_frame hf hr with hs | ⟨fault, hstep⟩
    · exact fun signed => hs.authorizes
    · rw [hstep] at hnone
      cases hnone
  · intro hnext
    refine ⟨fun frame t hf hr => ?_, fun e t hf hr => ?_⟩
    · obtain ⟨s', hd⟩ := (dispatch_returns_iff _ (Board.receive s t (.ok frame)) frame).mpr
        (hnext frame t hf hr)
      have hstep : (settings.singleCore transport runtime).step s = s' := by
        simp only [step, hf, loopBody, hr, hd]
      obtain ⟨-, hfault, responses, hsent, hopcodes⟩ := (h.receive t (.ok frame)).handled
        ((settings.singleCore transport runtime).dispatch_handled hd)
      rw [hstep]
      refine ⟨hfault.trans hf, responses, hsent.trans ?_, hopcodes⟩
      simp [Board.receive, sentFrames, Event.sentFrame]
    · have hstep : (settings.singleCore transport runtime).step s = Board.receive s t (.error e) := by
        simp only [step, hf, loopBody, hr, (h.receive t (.error e)).report_eq]
      rw [hstep]
      simp [Board.receive, sentFrames, Event.sentFrame]

-- Each frame of a session has its complete answer before the next one is read, unless
-- the validation of a pushed module does not return. At every loop head the backend is
-- back, and no module has been answered that there is none.
theorem session_answers_iff (settings : Settings) (transport : MiloTransport T)
    (runtime : InlineRuntime H) (t : T) (hw : H) (fuel : Option UInt64) (n : Nat) :
    let state := (settings.singleCore transport runtime).run (.start t (.new hw fuel))
    (∀ k, (state k).exec.hardware.isSome ∧ noHardware ∉ takenResults (state k).log) ∧
    ((∀ k < n, (settings.singleCore transport runtime).Answers (state k)) ↔
      ∀ k < n, (settings.singleCore transport runtime).AuthorizesNext (state k)) := by
  intro state
  have hsteady (k : Nat) : Steady (state k) := steady_run t hw fuel k
  refine ⟨fun k => ⟨(hsteady k).settled.hardware, (hsteady k).results⟩, ?_⟩
  simp only [(hsteady _).answers_iff]

-- An import section that announces an import and has none: the push is never answered.
def cutImport : Connection :=
  { incoming := [.ok { opcode := OP_BYTECODE_PUSH, payload := emptyModule ++ [0x02, 0x01, 0x01] }]
    outgoing := [] }

theorem cutImport_unanswered :
    ¬(openSettings.singleCore Connection.transport fun _ _ hw _ => (hw, .ok [])).Answers
      (.start cutImport (SingleCoreExecutor.new () none)) := by
  intro h
  have hnone := (h.frame _ _ rfl rfl).1
  revert hnone
  decide

end SingleCore

end Board

end Milo.MainLoop
