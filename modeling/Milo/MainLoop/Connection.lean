import Milo.MainLoop.Order

namespace Milo.MainLoop

open Milo.Rust Milo.Engine.Link Milo.Engine.Executor Milo.Transport

def asksStatus (frame : Frame) : Bool :=
  match Request.ofOpcode frame.opcode with
  | .stop => true
  | .queryStatus => true
  | _ => false

-- The answers given to stop and status requests, next to these.
def Event.statusAnswer : Event → Option (Frame × Bytes)
  | .answered request response _ =>
      if asksStatus request then some (request, response.payload) else none
  | _ => none

def statusAnswers (log : List Event) : List (Frame × Bytes) := log.filterMap Event.statusAnswer

def statusPayloads (frames : List Frame) : List Bytes :=
  (frames.filter (·.opcode = OP_STATUS_RESPONSE)).map (·.payload)

namespace Board

variable {E H : Type}

-- What a part of an iteration writes: these frames, among them answers to status
-- requests, which it logs as such.
structure Wrote (s s' : Receiver Connection E) (frames : List Frame) (answers : List (Frame × Bytes)) :
    Prop where
  outgoing : s'.transport.outgoing = s.transport.outgoing ++ frames
  written : writtenFrames s'.log = writtenFrames s.log ++ frames
  statuses : statusAnswers s'.log = statusAnswers s.log ++ answers
  payloads : statusPayloads frames = answers.map Prod.snd
  incoming : s'.transport.incoming = s.transport.incoming

variable {s s' s'' : Receiver Connection E}

theorem Wrote.trans {frames frames' : List Frame} {answers answers' : List (Frame × Bytes)}
    (h : Wrote s s' frames answers) (h' : Wrote s' s'' frames' answers') :
    Wrote s s'' (frames ++ frames') (answers ++ answers') where
  outgoing := by rw [h'.outgoing, h.outgoing, List.append_assoc]
  written := by rw [h'.written, h.written, List.append_assoc]
  statuses := by rw [h'.statuses, h.statuses, List.append_assoc]
  payloads := by
    rw [List.map_append, ← h.payloads, ← h'.payloads]
    simp only [statusPayloads, List.filter_append, List.map_append]
  incoming := h'.incoming.trans h.incoming

theorem wrote_nothing (hlog : s'.log = s.log) (ht : s'.transport = s.transport) :
    Wrote s s' [] [] where
  outgoing := by rw [ht, List.append_nil]
  written := by rw [hlog, List.append_nil]
  statuses := by rw [hlog, List.append_nil]
  payloads := rfl
  incoming := by rw [ht]

-- An event that writes no frame.
theorem wrote_of_quiet {e : Event} (hlog : s'.log = s.log ++ [e]) (ht : s'.transport = s.transport)
    (hw : e.writtenFrame = none) (hs : e.statusAnswer = none) : Wrote s s' [] [] where
  outgoing := by rw [ht, List.append_nil]
  written := by simp [hlog, writtenFrames, hw]
  statuses := by simp [hlog, statusAnswers, hs]
  payloads := rfl
  incoming := by rw [ht]

variable {board : Board Connection E H}

theorem wrote_answer (hboard : board.transport = Connection.transport) {request response : Frame}
    {answers : List (Frame × Bytes)}
    (hs : (Event.answered request response (.ok ())).statusAnswer.toList = answers)
    (hp : statusPayloads [response] = answers.map Prod.snd) :
    Wrote s (board.answer s request response) [response] answers := by
  have hwrite : board.transport.writeFrame s.transport response =
      (.ok (), { s.transport with outgoing := s.transport.outgoing ++ [response] }) := by
    rw [hboard]
    rfl
  refine ⟨?_, ?_, ?_, hp, ?_⟩
  · simp only [answer, hwrite]
  · simp [answer, hwrite, writtenFrames, Event.writtenFrame]
  · simp only [answer, hwrite, statusAnswers, List.filterMap_append, ← hs]
    cases hsa : (Event.answered request response (.ok ())).statusAnswer <;> simp [hsa]
  · simp only [answer, hwrite]

theorem wrote_control (hboard : board.transport = Connection.transport) {request response : Frame}
    (hask : asksStatus request = false) (hop : response.opcode ≠ OP_STATUS_RESPONSE) :
    Wrote s (board.answer s request response) [response] [] := by
  have hs : (Event.answered request response (.ok ())).statusAnswer.toList = [] := by
    simp [Event.statusAnswer, hask]
  have hp : statusPayloads [response] = [] := by simp [statusPayloads, hop]
  exact wrote_answer hboard hs hp

theorem wrote_status (hboard : board.transport = Connection.transport) {request response : Frame}
    (hask : asksStatus request = true) (hop : response.opcode = OP_STATUS_RESPONSE) :
    Wrote s (board.answer s request response) [response] [(request, response.payload)] := by
  have hs : (Event.answered request response (.ok ())).statusAnswer.toList =
      [(request, response.payload)] := by
    simp [Event.statusAnswer, hask]
  have hp : statusPayloads [response] = [response.payload] := by simp [statusPayloads, hop]
  exact wrote_answer hboard hs hp

theorem wrote_report (hboard : board.transport = Connection.transport) :
    ∃ frames, Wrote s (board.report s) frames [] := by
  unfold report
  split
  · exact ⟨[], wrote_nothing rfl rfl⟩
  · rename_i result exec _
    have hwrite : board.transport.writeFrame s.transport (resultFrame result) =
        (.ok (), { s.transport with outgoing := s.transport.outgoing ++ [resultFrame result] }) := by
      rw [hboard]
      rfl
    rw [hwrite]
    refine ⟨[resultFrame result], rfl, ?_, ?_, rfl, rfl⟩
    · simp [writtenFrames, Event.writtenFrame]
    · simp [statusAnswers, Event.statusAnswer]

theorem Handled.wrote (hboard : board.transport = Connection.transport) {frame : Frame}
    (h : board.Handled s frame s') :
    ∃ frames answers, Wrote s s' frames answers ∧ answers.map Prod.fst = [frame].filter asksStatus := by
  have hsubmit (s : Receiver Connection E) (wasm : Bytes) : Wrote s (board.submit s wasm) [] [] :=
    wrote_of_quiet rfl rfl rfl rfl
  have hstop (s : Receiver Connection E) : Wrote s (board.stop s) [] [] :=
    wrote_of_quiet rfl rfl rfl rfl
  have hresult : OP_EXEC_RESULT ≠ OP_STATUS_RESPONSE := by decide
  cases h with
  | discovery hreq =>
      have hask : asksStatus frame = false := by simp [asksStatus, hreq]
      have hop : OP_DISCOVERY ≠ OP_STATUS_RESPONSE := by decide
      exact ⟨_, _, wrote_control hboard hask hop, by simp [hask]⟩
  | refused signed message hloads _ =>
      have hask : asksStatus frame = false := by
        cases hreq : Request.ofOpcode frame.opcode <;> simp_all [asksStatus, Request.loads]
      exact ⟨_, _, wrote_control hboard hask hresult, by simp [hask]⟩
  | pushed signed wasm hreq _ =>
      have hask : asksStatus frame = false := by simp [asksStatus, hreq]
      obtain ⟨frames, hreport⟩ := wrote_report (s := board.submit s wasm) hboard
      exact ⟨_, _, (hsubmit s wasm).trans hreport, by simp [hask]⟩
  | swapped signed wasm hreq _ =>
      have hask : asksStatus frame = false := by simp [asksStatus, hreq]
      have hsubmitted := (hstop s).trans (hsubmit (board.stop s) wasm)
      obtain ⟨frames, hreport⟩ := wrote_report (s := board.submit (board.stop s) wasm) hboard
      exact ⟨_, _, hsubmitted.trans hreport, by simp [hask]⟩
  | stopped hreq =>
      have hask : asksStatus frame = true := by simp [asksStatus, hreq]
      have hanswer : Wrote (board.stop s) (board.answer (board.stop s) frame stoppedFrame) _ _ :=
        wrote_status hboard hask rfl
      exact ⟨_, _, (hstop s).trans hanswer, by simp [hask]⟩
  | queried hreq =>
      have hask : asksStatus frame = true := by simp [asksStatus, hreq]
      obtain ⟨exec, response, hop, he⟩ : ∃ exec response, response.opcode = OP_STATUS_RESPONSE ∧
          board.queryStatus s frame = board.answer { s with exec := exec } frame response :=
        ⟨_, _, rfl, rfl⟩
      have hexec : Wrote s { s with exec := exec } [] [] := wrote_nothing rfl rfl
      rw [he]
      exact ⟨_, _, hexec.trans (wrote_status hboard hask hop), by simp [hask]⟩
  | param hreq =>
      have hask : asksStatus frame = false := by simp [asksStatus, hreq]
      refine ⟨[], [], ?_, by simp [hask]⟩
      unfold setParam
      split
      · exact wrote_nothing rfl rfl
      · exact wrote_nothing rfl rfl
  | unknown hreq =>
      have hask : asksStatus frame = false := by simp [asksStatus, hreq]
      exact ⟨_, _, wrote_control hboard hask hresult, by simp [hask]⟩

-- What an iteration does on its connection: it takes frames from what is coming in
-- and writes others, and it has answered the status requests it received.
structure Conversed (s s' : Receiver Connection E) (received frames : List Frame)
    (answers : List (Frame × Bytes)) : Prop where
  received_eq : receivedFrames s'.log = receivedFrames s.log ++ received
  incoming : s.transport.incomingFrames = received ++ s'.transport.incomingFrames
  outgoing : s'.transport.outgoing = s.transport.outgoing ++ frames
  written : writtenFrames s'.log = writtenFrames s.log ++ frames
  statuses : statusAnswers s'.log = statusAnswers s.log ++ answers
  payloads : statusPayloads frames = answers.map Prod.snd
  answered : answers.map Prod.fst = received.filter asksStatus

theorem wrote_receive (t : Connection) (outcome : Except LinkError Frame)
    (ht : t.outgoing = s.transport.outgoing) :
    (receive s t outcome).transport.outgoing = s.transport.outgoing ∧
      writtenFrames (receive s t outcome).log = writtenFrames s.log ∧
      statusAnswers (receive s t outcome).log = statusAnswers s.log := by
  refine ⟨ht, ?_, ?_⟩
  · simp [receive, writtenFrames, Event.writtenFrame]
  · simp [receive, statusAnswers, Event.statusAnswer]

theorem Stepped.conversed (hboard : board.transport = Connection.transport)
    (h : board.Stepped s s') : ∃ received frames answers, Conversed s s' received frames answers := by
  cases h with
  | ended fault =>
      exact ⟨[], [], [], by simp, rfl, by simp, by simp, by simp, rfl, rfl⟩
  | idle e t _ hr =>
      rw [hboard] at hr
      obtain ⟨hin, hout⟩ := Connection.readFrame_error hr
      obtain ⟨hro, hrw, hrs⟩ := wrote_receive t (.error e) hout
      obtain ⟨frames, hwrote⟩ := wrote_report (s := receive s t (.error e)) hboard
      refine ⟨[], frames, [], ?_, ?_, ?_, ?_, ?_, hwrote.payloads, rfl⟩
      · rw [report_receivedFrames]
        exact receive_receivedFrames t (.error e)
      · rw [hin, Connection.incomingFrames, Connection.incomingFrames, hwrote.incoming]
        rfl
      · rw [hwrote.outgoing, hro]
      · rw [hwrote.written, hrw]
      · rw [hwrote.statuses, hrs]
  | handled frame t s' _ hr hs =>
      rw [hboard] at hr
      obtain ⟨hin, hout⟩ := Connection.readFrame_ok hr
      obtain ⟨hro, hrw, hrs⟩ := wrote_receive t (.ok frame) hout
      obtain ⟨frames, answers, hwrote, hanswered⟩ := hs.wrote hboard
      refine ⟨[frame], frames, answers, ?_, ?_, ?_, ?_, ?_, hwrote.payloads, hanswered⟩
      · rw [hs.receivedFrames_eq]
        exact receive_receivedFrames t (.ok frame)
      · rw [hin, Connection.incomingFrames, Connection.incomingFrames, hwrote.incoming]
        rfl
      · rw [hwrote.outgoing, hro]
      · rw [hwrote.written, hrw]
      · rw [hwrote.statuses, hrs]

end Board

end Milo.MainLoop
