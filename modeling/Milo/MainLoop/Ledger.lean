import Milo.Engine.Threaded.Sequential
import Milo.Lib.Fifo
import Milo.MainLoop

namespace Milo.MainLoop

open Milo.Rust Milo.Engine.Link Milo.Engine.Executor Milo.Transport

-- The main loop with a ThreadedExecutor, as the sim entry point has it.
def Settings.threaded {T H W : Type} (settings : Settings) (transport : MiloTransport T)
    (runtime : Runtime H) : Board T (ThreadedExecutor H W) H :=
  { settings with transport := transport, executor := ThreadedExecutor.executor runtime }

def Event.receivedFrame : Event → Option Frame
  | .received (.ok frame) => some frame
  | _ => none

def Event.takenResult : Event → Option ExecResult
  | .reported result _ => some result
  | _ => none

def Event.writtenFrame : Event → Option Frame
  | .reported result (.ok ()) => some (resultFrame result)
  | .answered _ response (.ok ()) => some response
  | _ => none

def receivedFrames (log : List Event) : List Frame := log.filterMap Event.receivedFrame

def takenResults (log : List Event) : List ExecResult := log.filterMap Event.takenResult

def writtenFrames (log : List Event) : List Frame := log.filterMap Event.writtenFrame

-- What a main loop owes for the frames it has read: the modules it has run one after
-- the other, and the payload that answers each code-loading frame.
structure Ledger (H : Type) where
  seq : Sequential H
  answers : List (Frame × Bytes)

namespace Ledger

variable {H : Type} (settings : Settings) (runtime : Runtime H)

def new (hw : H) (fuel : Option UInt64) : Ledger H := { seq := .new hw fuel, answers := [] }

def accept (l : Ledger H) (frame : Frame) (wasm : Bytes) : Ledger H where
  seq := l.seq.submit runtime wasm
  answers := l.answers ++ [(frame, (resultFrame (l.seq.answer runtime wasm)).payload)]

def refuse (l : Ledger H) (frame : Frame) (message : String) : Ledger H :=
  { l with answers := l.answers ++ [(frame, intoBytes message)] }

def enter (l : Ledger H) (frame : Frame) : Ledger H :=
  match (Request.ofOpcode frame.opcode).loads with
  | none => l
  | some signed =>
      match settings.authorizeModule frame.payload signed with
      | .ok (.ok wasm) => l.accept runtime frame wasm
      | .ok (.error message) => l.refuse frame message
      -- a validation that panics or never ends leaves no answer
      | .error _ => l

def enterAll (l : Ledger H) (frames : List Frame) : Ledger H :=
  frames.foldl (enter settings runtime) l

-- The payloads owed, in the order of the frames.
def payloads (l : Ledger H) : List Bytes := l.answers.map Prod.snd

variable {settings runtime} {l : Ledger H} {frame : Frame}

theorem enter_control {request : Request} (hreq : Request.ofOpcode frame.opcode = request)
    (h : request.loads = none) : l.enter settings runtime frame = l := by
  unfold enter
  rw [hreq, h]

theorem enter_refused {signed : Bool} {message : String}
    (h : (Request.ofOpcode frame.opcode).loads = some signed)
    (hauth : settings.authorizeModule frame.payload signed = .ok (.error message)) :
    l.enter settings runtime frame = l.refuse frame message := by
  unfold enter
  simp only [h, hauth]

theorem enter_accepted {request : Request} {signed : Bool} {wasm : Bytes}
    (hreq : Request.ofOpcode frame.opcode = request) (h : request.loads = some signed)
    (hauth : settings.authorizeModule frame.payload signed = .ok (.ok wasm)) :
    l.enter settings runtime frame = l.accept runtime frame wasm := by
  unfold enter
  simp only [hreq, h, hauth]

theorem enterAll_append (frames : List Frame) (frame : Frame) :
    l.enterAll settings runtime (frames ++ [frame]) =
      (l.enterAll settings runtime frames).enter settings runtime frame := by
  simp only [enterAll, List.foldl_append, List.foldl_cons, List.foldl_nil]

-- What a frame comes to in the ledger. The last case is that of the frames that load
-- no code and of a validation that does not return.
inductive Entered (settings : Settings) (runtime : Runtime H) (l : Ledger H) (frame : Frame) :
    Ledger H → Prop
  | accepted (signed : Bool) (wasm : Bytes) (h : (Request.ofOpcode frame.opcode).loads = some signed)
      (hauth : settings.authorizeModule frame.payload signed = .ok (.ok wasm)) :
      Entered settings runtime l frame (l.accept runtime frame wasm)
  | refused (signed : Bool) (message : String)
      (h : (Request.ofOpcode frame.opcode).loads = some signed)
      (hauth : settings.authorizeModule frame.payload signed = .ok (.error message)) :
      Entered settings runtime l frame (l.refuse frame message)
  | kept (h : ∀ signed outcome, (Request.ofOpcode frame.opcode).loads = some signed →
      settings.authorizeModule frame.payload signed ≠ .ok outcome) :
      Entered settings runtime l frame l

theorem enter_entered (settings : Settings) (runtime : Runtime H) (l : Ledger H) (frame : Frame) :
    Entered settings runtime l frame (l.enter settings runtime frame) := by
  cases hloads : (Request.ofOpcode frame.opcode).loads with
  | none =>
      rw [enter_control rfl hloads]
      exact .kept fun signed outcome h => by rw [hloads] at h; cases h
  | some signed =>
      cases hauth : settings.authorizeModule frame.payload signed with
      | ok outcome =>
          cases outcome with
          | ok wasm =>
              rw [enter_accepted rfl hloads hauth]
              exact .accepted signed wasm hloads hauth
          | error message =>
              rw [enter_refused hloads hauth]
              exact .refused signed message hloads hauth
      | error fault =>
          have henter : l.enter settings runtime frame = l := by simp only [enter, hloads, hauth]
          rw [henter]
          refine .kept fun signed' outcome h hok => ?_
          obtain rfl := Option.some.inj (hloads.symm.trans h)
          rw [hauth] at hok
          cases hok

-- What is owed stays owed.
theorem Entered.payloads_isPrefix {l' : Ledger H} (h : Entered settings runtime l frame l') :
    l.payloads <+: l'.payloads := by
  cases h with
  | accepted signed wasm hloads hauth => exact ⟨_, List.map_append.symm⟩
  | refused signed message hloads hauth => exact ⟨_, List.map_append.symm⟩
  | kept hauth => exact List.prefix_rfl

theorem payloads_isPrefix_enterAll (l : Ledger H) (frames : List Frame) :
    l.payloads <+: (l.enterAll settings runtime frames).payloads := by
  induction frames generalizing l with
  | nil => exact List.prefix_rfl
  | cons frame frames ih => exact (enter_entered settings runtime l frame).payloads_isPrefix.trans (ih _)

-- A frame whose validation comes to an end is answered if it loads code.
theorem enter_frames (l : Ledger H)
    (hauth : ∀ signed, (Request.ofOpcode frame.opcode).loads = some signed →
      ∃ outcome, settings.authorizeModule frame.payload signed = .ok outcome) :
    (l.enter settings runtime frame).answers.map Prod.fst =
      l.answers.map Prod.fst ++ [frame].filter loadsCode := by
  have hentered := enter_entered settings runtime l frame
  generalize l.enter settings runtime frame = l' at hentered ⊢
  cases hentered with
  | accepted signed wasm hloads _ => simp [accept, loadsCode, hloads]
  | refused signed message hloads _ => simp [refuse, loadsCode, hloads]
  | kept hfails =>
      cases hloads : (Request.ofOpcode frame.opcode).loads with
      | none => simp [loadsCode, hloads]
      | some signed =>
          obtain ⟨outcome, ho⟩ := hauth signed hloads
          exact absurd ho (hfails signed outcome hloads)

end Ledger

namespace Board

section Log

variable {T E H : Type} {board : Board T E H} {s : Receiver T E}

theorem receive_receivedFrames (t : T) (outcome : Except LinkError Frame) :
    receivedFrames (receive s t outcome).log = receivedFrames s.log ++ outcome.toOption.toList := by
  cases outcome <;> simp [receive, receivedFrames, Event.receivedFrame, Except.toOption]

theorem takenResults_receive (t : T) (outcome : Except LinkError Frame) :
    takenResults (receive s t outcome).log = takenResults s.log := by
  simp [receive, takenResults, Event.takenResult]

theorem takenResults_answer (request response : Frame) :
    takenResults (board.answer s request response).log = takenResults s.log := by
  simp [answer, takenResults, Event.takenResult]

theorem takenResults_stop : takenResults (board.stop s).log = takenResults s.log := by
  simp [stop, takenResults, Event.takenResult]

theorem takenResults_submit (wasm : Bytes) :
    takenResults (board.submit s wasm).log = takenResults s.log := by
  simp [submit, takenResults, Event.takenResult]

theorem report_receivedFrames : receivedFrames (board.report s).log = receivedFrames s.log := by
  unfold report
  split
  · rfl
  · simp [receivedFrames, Event.receivedFrame]

theorem Handled.receivedFrames_eq {s' : Receiver T E} {frame : Frame} (h : board.Handled s frame s') :
    receivedFrames s'.log = receivedFrames s.log := by
  cases h with
  | pushed _ _ _ _ =>
      rw [report_receivedFrames]
      simp [submit, receivedFrames, Event.receivedFrame]
  | swapped _ _ _ _ =>
      rw [report_receivedFrames]
      simp [submit, stop, receivedFrames, Event.receivedFrame]
  | param _ =>
      unfold setParam
      split <;> rfl
  | _ => simp [answer, stop, queryStatus, receivedFrames, Event.receivedFrame]

theorem Handled.authorizes {s' : Receiver T E} {frame : Frame} {signed : Bool}
    (h : board.Handled s frame s') (hloads : (Request.ofOpcode frame.opcode).loads = some signed) :
    ∃ outcome, board.authorizeModule frame.payload signed = .ok outcome := by
  cases h with
  | refused signed' message hloads' hauth =>
      obtain rfl := Option.some.inj (hloads.symm.trans hloads')
      exact ⟨_, hauth⟩
  | pushed signed' wasm hreq hauth =>
      rw [hreq] at hloads
      obtain rfl := Option.some.inj hloads
      exact ⟨_, hauth⟩
  | swapped signed' wasm hreq hauth =>
      rw [hreq] at hloads
      obtain rfl := Option.some.inj hloads
      exact ⟨_, hauth⟩
  | discovery hreq => rw [hreq] at hloads; cases hloads
  | stopped hreq => rw [hreq] at hloads; cases hloads
  | queried hreq => rw [hreq] at hloads; cases hloads
  | param hreq => rw [hreq] at hloads; cases hloads
  | unknown hreq => rw [hreq] at hloads; cases hloads

-- What one iteration does to the list of frames received.
theorem Stepped.receivedFrames_eq {s' : Receiver T E} (h : board.Stepped s s') :
    receivedFrames s'.log = receivedFrames s.log ∨
      ∃ frame, receivedFrames s'.log = receivedFrames s.log ++ [frame] ∧
        ∀ signed, (Request.ofOpcode frame.opcode).loads = some signed →
          ∃ outcome, board.authorizeModule frame.payload signed = .ok outcome := by
  cases h with
  | ended fault => exact .inl rfl
  | idle e t _ hr =>
      left
      have hreceive := receive_receivedFrames (s := s) t (.error e)
      rw [report_receivedFrames, hreceive]
      exact List.append_nil _
  | handled frame t s' _ hr hs =>
      right
      have hreceive := receive_receivedFrames (s := s) t (.ok frame)
      exact ⟨frame, hs.receivedFrames_eq.trans hreceive, fun signed => hs.authorizes⟩

end Log

-- The executor and the results taken from it agree with a ledger.
def Accounts {T H W : Type} (s : Receiver T (ThreadedExecutor H W)) (l : Ledger H) : Prop :=
  s.exec.Simulates (takenResults s.log) l.seq

namespace Accounts

variable {T H W : Type} {settings : Settings} {transport : MiloTransport T} {runtime : Runtime H}
variable {s s' : Receiver T (ThreadedExecutor H W)} {l : Ledger H}

theorem of_log_eq {log : List Event} (h : Accounts s l) (hlog : takenResults log = takenResults s.log) :
    s.exec.Simulates (takenResults log) l.seq := by
  rw [hlog]
  exact h

theorem receive (h : Accounts s l) (t : T) (outcome : Except LinkError Frame) :
    Accounts (receive s t outcome) l :=
  h.of_log_eq (takenResults_receive t outcome)

theorem answer (h : Accounts s l) (request response : Frame) :
    Accounts ((settings.threaded transport runtime).answer s request response) l :=
  h.of_log_eq (takenResults_answer request response)

theorem stop (h : Accounts s l) : Accounts ((settings.threaded transport runtime).stop s) l := by
  unfold Accounts
  rw [takenResults_stop]
  exact (ThreadedExecutor.Simulates.elapse h).stop

theorem submit (h : Accounts s l) (frame : Frame) (wasm : Bytes) :
    Accounts ((settings.threaded transport runtime).submit s wasm) (l.accept runtime frame wasm) := by
  unfold Accounts
  rw [takenResults_submit]
  exact (ThreadedExecutor.Simulates.elapse h).submit wasm

theorem report (h : Accounts s l) : Accounts ((settings.threaded transport runtime).report s) l := by
  have hp := (ThreadedExecutor.Simulates.elapse h).pollResult
  unfold Board.report
  split
  · rename_i exec hpoll
    rw [show s.exec.elapse.pollResult = (none, exec) from hpoll] at hp
    simpa [Accounts] using hp
  · rename_i result exec hpoll
    rw [show s.exec.elapse.pollResult = (some result, exec) from hpoll] at hp
    simpa [Accounts, takenResults, Event.takenResult] using hp

theorem queryStatus (h : Accounts s l) (request : Frame) :
    Accounts ((settings.threaded transport runtime).queryStatus s request) l :=
  answer (s := { s with exec := s.exec.elapse.elapse })
    (ThreadedExecutor.Simulates.elapse h).elapse request _

theorem handled {frame : Frame} (h : Accounts s l)
    (hs : (settings.threaded transport runtime).Handled s frame s') :
    Accounts s' (l.enter settings runtime frame) := by
  cases hs with
  | discovery hreq =>
      rw [Ledger.enter_control hreq rfl]
      exact h.answer _ _
  | refused signed message hloads hauth =>
      have henter : l.enter settings runtime frame = l.refuse frame message :=
        Ledger.enter_refused hloads hauth
      rw [henter]
      exact h.answer _ _
  | pushed signed wasm hreq hauth =>
      have henter : l.enter settings runtime frame = l.accept runtime frame wasm :=
        Ledger.enter_accepted hreq rfl hauth
      rw [henter]
      exact (h.submit frame wasm).report
  | swapped signed wasm hreq hauth =>
      have henter : l.enter settings runtime frame = l.accept runtime frame wasm :=
        Ledger.enter_accepted hreq rfl hauth
      rw [henter]
      exact (h.stop.submit frame wasm).report
  | stopped hreq =>
      rw [Ledger.enter_control hreq rfl]
      exact h.stop.answer _ _
  | queried hreq =>
      rw [Ledger.enter_control hreq rfl]
      exact h.queryStatus frame
  | param hreq =>
      rw [Ledger.enter_control hreq rfl]
      unfold setParam
      split <;> exact h
  | unknown hreq =>
      rw [Ledger.enter_control hreq rfl]
      exact h.answer _ _

theorem stepped {start : Ledger H} (hs : (settings.threaded transport runtime).Stepped s s')
    (h : Accounts s (start.enterAll settings runtime (receivedFrames s.log))) :
    Accounts s' (start.enterAll settings runtime (receivedFrames s'.log)) := by
  cases hs with
  | ended fault => exact h
  | idle e t _ hr =>
      have hreceive := receive_receivedFrames (s := s) t (.error e)
      rw [report_receivedFrames, hreceive, Except.toOption, Option.toList_none, List.append_nil]
      exact (h.receive t _).report
  | handled frame t s' _ hr hs =>
      have hreceive := receive_receivedFrames (s := s) t (.ok frame)
      rw [hs.receivedFrames_eq, hreceive, Except.toOption, Option.toList_some, Ledger.enterAll_append]
      exact (h.receive t _).handled hs

end Accounts

-- Over any transport, the results taken so far and those still in the executor are
-- the answers to the modules accepted so far, in order.
theorem accounts_run {T H W : Type} (settings : Settings) (transport : MiloTransport T)
    (runtime : Runtime H) (t : T) (hw : H) (fuel : Option UInt64) (stopHook startHook : Option (W → W))
    (world : W) (n : Nat) :
    let s := (settings.threaded transport runtime).run
      (.start t (.new hw fuel stopHook startHook world)) n
    Accounts s ((Ledger.new hw fuel).enterAll settings runtime (receivedFrames s.log)) := by
  apply run_induction (motive := fun s =>
    Accounts s ((Ledger.new hw fuel).enterAll settings runtime (receivedFrames s.log)))
  · exact ThreadedExecutor.simulates_new hw fuel stopHook startHook world
  · intro s s' hs h
    exact h.stepped hs

-- And there is exactly one answer for each code-loading frame received.
theorem Stepped.answered_frames {T H W : Type} {settings : Settings} {transport : MiloTransport T}
    {runtime : Runtime H} {s s' : Receiver T (ThreadedExecutor H W)} {start : Ledger H}
    (hs : (settings.threaded transport runtime).Stepped s s')
    (h : (start.enterAll settings runtime (receivedFrames s.log)).answers.map Prod.fst =
      (receivedFrames s.log).filter loadsCode) :
    (start.enterAll settings runtime (receivedFrames s'.log)).answers.map Prod.fst =
      (receivedFrames s'.log).filter loadsCode := by
  rcases hs.receivedFrames_eq with he | ⟨frame, he, hauth⟩
  · rw [he]
    exact h
  · rw [he, Ledger.enterAll_append, List.filter_append, ← h]
    exact Ledger.enter_frames _ hauth

theorem answered_frames_run {T H W : Type} (settings : Settings) (transport : MiloTransport T)
    (runtime : Runtime H) (s : Receiver T (ThreadedExecutor H W)) (start : Ledger H)
    (h0 : (start.enterAll settings runtime (receivedFrames s.log)).answers.map Prod.fst =
      (receivedFrames s.log).filter loadsCode) (n : Nat) :
    let frames := receivedFrames ((settings.threaded transport runtime).run s n).log
    (start.enterAll settings runtime frames).answers.map Prod.fst = frames.filter loadsCode := by
  apply run_induction (motive := fun s =>
    (start.enterAll settings runtime (receivedFrames s.log)).answers.map Prod.fst =
      (receivedFrames s.log).filter loadsCode)
  · exact h0
  · exact fun s s' hs h => hs.answered_frames h

end Board

end Milo.MainLoop
