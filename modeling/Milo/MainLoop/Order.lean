import Milo.MainLoop.Ledger

namespace Milo.Engine.Executor.ThreadedExecutor

variable {H W : Type} {e : ThreadedExecutor H W} {returned : List ExecResult} {s : Sequential H}

theorem Simulates.available_submit {runtime : Runtime H} (h : e.Simulates returned s)
    (bytecode : Bytes) :
    (e.submit runtime bytecode).available = e.available ++ [s.answer runtime bytecode] := by
  apply (List.append_right_inj returned).mp
  rw [(h.submit bytecode).answers, Sequential.submit_answers, List.map_append, ← h.answers,
    List.append_assoc]
  rfl

theorem Simulates.available_pollResult (h : e.Simulates returned s) :
    e.available = e.pollResult.1.toList ++ e.pollResult.2.available := by
  apply (List.append_right_inj returned).mp
  rw [h.answers, ← h.pollResult.answers, List.append_assoc]

theorem available_elapse (e : ThreadedExecutor H W) : e.elapse.available = e.available := by
  unfold available held elapse
  cases e.handle <;> rfl

theorem available_stop (e : ThreadedExecutor H W) : e.stop.available = e.available := rfl

end Milo.Engine.Executor.ThreadedExecutor

namespace Milo.MainLoop

open Milo.Lib Milo.Rust Milo.Engine.Link Milo.Engine.Executor Milo.Transport

def resultPayloads (frames : List Frame) : List Bytes :=
  (frames.filter (·.opcode = OP_EXEC_RESULT)).map (·.payload)

-- The payloads of the OP_EXEC_RESULT frames sent so far.
def sentResults (log : List Event) : List Bytes := resultPayloads (writtenFrames log)

def resultPayload (result : ExecResult) : Bytes := (resultFrame result).payload

theorem sentResults_append (log : List Event) (e : Event) :
    sentResults (log ++ [e]) = sentResults log ++ resultPayloads e.writtenFrame.toList := by
  cases hw : e.writtenFrame <;> simp [sentResults, writtenFrames, resultPayloads, hw]

theorem sentResults_of_none {e : Event} (he : e.writtenFrame = none) (log : List Event) :
    sentResults (log ++ [e]) = sentResults log := by
  rw [sentResults_append, he]
  exact List.append_nil _

namespace Board

variable {H W : Type} {settings : Settings} {runtime : Runtime H}

-- The payloads owed, those sent and those the executor still holds are in the
-- relation Rel of a queue.
structure Tracks (Rel : List Bytes → List Bytes → List Bytes → Prop) (l : Ledger H)
    (s : Receiver Connection (ThreadedExecutor H W)) : Prop where
  accounts : Accounts s l
  related : Rel l.payloads (sentResults s.log) (s.exec.available.map resultPayload)

-- A refusal overtakes whatever is outstanding.
def Overtakes (Rel : List Bytes → List Bytes → List Bytes → Prop) (l : Ledger H)
    (s : Receiver Connection (ThreadedExecutor H W)) : Prop :=
  ∀ payload, Rel (l.payloads ++ [payload]) (sentResults s.log ++ [payload])
    (s.exec.available.map resultPayload)

namespace Tracks

variable {Rel : List Bytes → List Bytes → List Bytes → Prop} (hq : Queueing Rel)
variable {l : Ledger H} {s s' : Receiver Connection (ThreadedExecutor H W)}

theorem receive (h : Tracks Rel l s) (t : Connection) (outcome : Except LinkError Frame) :
    Tracks Rel l (receive s t outcome) := by
  have hsent : sentResults (Board.receive s t outcome).log = sentResults s.log :=
    sentResults_of_none rfl s.log
  refine ⟨h.accounts.receive t outcome, ?_⟩
  rw [hsent]
  exact h.related

theorem stop (h : Tracks Rel l s) :
    Tracks Rel l ((settings.threaded Connection.transport runtime).stop s) := by
  have hsent : sentResults ((settings.threaded Connection.transport runtime).stop s).log =
      sentResults s.log := sentResults_of_none rfl s.log
  have havail : s.exec.elapse.stop.available = s.exec.available :=
    s.exec.elapse.available_stop.trans s.exec.available_elapse
  refine ⟨h.accounts.stop, ?_⟩
  rw [hsent]
  change Rel _ _ (s.exec.elapse.stop.available.map resultPayload)
  rw [havail]
  exact h.related

include hq in
theorem submit (h : Tracks Rel l s) (frame : Frame) (wasm : Bytes) :
    Tracks Rel (l.accept runtime frame wasm)
      ((settings.threaded Connection.transport runtime).submit s wasm) := by
  have hsent : sentResults ((settings.threaded Connection.transport runtime).submit s wasm).log =
      sentResults s.log := sentResults_of_none rfl s.log
  have havail : (s.exec.elapse.submit runtime wasm).available = _ :=
    (ThreadedExecutor.Simulates.elapse h.accounts).available_submit wasm
  have hpayloads : (l.accept runtime frame wasm).payloads =
      l.payloads ++ [resultPayload (l.seq.answer runtime wasm)] := by
    simp [Ledger.payloads, Ledger.accept, resultPayload]
  refine ⟨h.accounts.submit frame wasm, ?_⟩
  rw [hsent, hpayloads]
  change Rel _ _ ((s.exec.elapse.submit runtime wasm).available.map resultPayload)
  rw [havail, s.exec.available_elapse, List.map_append]
  exact hq.accept _ h.related

include hq in
theorem report (h : Tracks Rel l s) :
    Tracks Rel l ((settings.threaded Connection.transport runtime).report s) := by
  have havail := (ThreadedExecutor.Simulates.elapse h.accounts).available_pollResult
  have hrelated := h.related
  rw [← s.exec.available_elapse, havail] at hrelated
  refine ⟨h.accounts.report, ?_⟩
  unfold Board.report
  split
  · rename_i exec hpoll
    have hpoll : s.exec.elapse.pollResult = (none, exec) := hpoll
    rw [hpoll] at hrelated
    exact hrelated
  · rename_i result exec hpoll
    have hpoll : s.exec.elapse.pollResult = (some result, exec) := hpoll
    have hsent : sentResults (s.log ++ [.reported result (.ok ())]) =
        sentResults s.log ++ [resultPayload result] := sentResults_append s.log _
    rw [hpoll] at hrelated
    change Rel _ (sentResults (s.log ++ [.reported result (.ok ())])) _
    rw [hsent]
    exact hq.serve hrelated

-- A response that is no result leaves the results as they are.
theorem answer (h : Tracks Rel l s) (request response : Frame)
    (hop : response.opcode ≠ OP_EXEC_RESULT) :
    Tracks Rel l ((settings.threaded Connection.transport runtime).answer s request response) := by
  have hsent : sentResults (s.log ++ [.answered request response (.ok ())]) = sentResults s.log := by
    have hnone : resultPayloads [response] = [] := by simp [resultPayloads, hop]
    rw [sentResults_append]
    exact (congrArg _ hnone).trans (List.append_nil _)
  refine ⟨h.accounts.answer request response, ?_⟩
  change Rel _ (sentResults (s.log ++ [.answered request response (.ok ())])) _
  rw [hsent]
  exact h.related

theorem refuse (h : Tracks Rel l s) (frame : Frame) (message : String) (ho : Overtakes Rel l s) :
    Tracks Rel (l.refuse frame message)
      ((settings.threaded Connection.transport runtime).answer s frame (execResultFrame message)) := by
  have hsent : sentResults (s.log ++ [.answered frame (execResultFrame message) (.ok ())]) =
      sentResults s.log ++ [intoBytes message] := sentResults_append s.log _
  have hpayloads : (l.refuse frame message).payloads = l.payloads ++ [intoBytes message] := by
    simp [Ledger.payloads, Ledger.refuse]
  refine ⟨h.accounts.answer frame _, ?_⟩
  change Rel _ (sentResults (s.log ++ [.answered frame (execResultFrame message) (.ok ())])) _
  rw [hsent, hpayloads]
  exact ho (intoBytes message)

theorem queryStatus (h : Tracks Rel l s) (request : Frame) :
    Tracks Rel l ((settings.threaded Connection.transport runtime).queryStatus s request) := by
  have havail : s.exec.elapse.elapse.available = s.exec.available :=
    s.exec.elapse.available_elapse.trans s.exec.available_elapse
  have helapse : Tracks Rel l { s with exec := s.exec.elapse.elapse } := by
    refine ⟨(ThreadedExecutor.Simulates.elapse h.accounts).elapse, ?_⟩
    change Rel _ _ (s.exec.elapse.elapse.available.map resultPayload)
    rw [havail]
    exact h.related
  have hop : OP_STATUS_RESPONSE ≠ OP_EXEC_RESULT := by decide
  exact helapse.answer request _ hop

-- The cases are those of the dispatch; only a refusal and an unknown opcode do not
-- go through the queue.
include hq in
theorem handled {frame : Frame} (h : Tracks Rel l s)
    (hs : (settings.threaded Connection.transport runtime).Handled s frame s')
    (hknown : Request.ofOpcode frame.opcode ≠ .unknown)
    (hrefused : ∀ signed message, (Request.ofOpcode frame.opcode).loads = some signed →
      settings.authorizeModule frame.payload signed = .ok (.error message) → Overtakes Rel l s) :
    Tracks Rel (l.enter settings runtime frame) s' := by
  cases hs with
  | discovery hreq =>
      have hop : OP_DISCOVERY ≠ OP_EXEC_RESULT := by decide
      rw [Ledger.enter_control hreq rfl]
      exact h.answer frame _ hop
  | refused signed message hloads hauth =>
      have henter : l.enter settings runtime frame = l.refuse frame message :=
        Ledger.enter_refused hloads hauth
      rw [henter]
      exact h.refuse frame message (hrefused signed message hloads hauth)
  | pushed signed wasm hreq hauth =>
      have henter : l.enter settings runtime frame = l.accept runtime frame wasm :=
        Ledger.enter_accepted hreq rfl hauth
      rw [henter]
      exact (h.submit hq frame wasm).report hq
  | swapped signed wasm hreq hauth =>
      have henter : l.enter settings runtime frame = l.accept runtime frame wasm :=
        Ledger.enter_accepted hreq rfl hauth
      rw [henter]
      exact (h.stop.submit hq frame wasm).report hq
  | stopped hreq =>
      have hop : stoppedFrame.opcode ≠ OP_EXEC_RESULT := by decide
      rw [Ledger.enter_control hreq rfl]
      exact h.stop.answer frame _ hop
  | queried hreq =>
      rw [Ledger.enter_control hreq rfl]
      exact h.queryStatus frame
  | param hreq =>
      rw [Ledger.enter_control hreq rfl]
      unfold setParam
      split
      · exact ⟨h.accounts, h.related⟩
      · exact h
  | unknown hreq => exact absurd hreq hknown

end Tracks

def refuses (settings : Settings) (frame : Frame) : Bool :=
  match (Request.ofOpcode frame.opcode).loads with
  | none => false
  | some signed =>
      match settings.authorizeModule frame.payload signed with
      | .ok (.error _) => true
      | _ => false

def nextFrame (s : Receiver Connection (ThreadedExecutor H W)) : Option Frame :=
  match s.transport.incoming with
  | .ok frame :: _ => some frame
  | _ => none

-- The next frame, if there is one, has a known opcode, and if it is refused the
-- executor holds neither a worker nor a result.
def Orderly (settings : Settings) (s : Receiver Connection (ThreadedExecutor H W)) : Prop :=
  ∀ frame ∈ nextFrame s, Request.ofOpcode frame.opcode ≠ .unknown ∧
    (refuses settings frame = true → s.exec.available = [])

instance (settings : Settings) (s : Receiver Connection (ThreadedExecutor H W)) :
    Decidable (Orderly settings s) :=
  inferInstanceAs (Decidable (∀ frame ∈ nextFrame s, _ ∧ (_ → _)))

theorem nextFrame_of_readFrame {s : Receiver Connection (ThreadedExecutor H W)} {frame : Frame}
    {t : Connection} (hr : s.transport.readFrame = (.ok (.ok frame), t)) :
    nextFrame s = some frame := by
  unfold Connection.readFrame at hr
  unfold nextFrame
  cases hin : s.transport.incoming with
  | nil => rw [hin] at hr; simp at hr
  | cons outcome incoming =>
      rw [hin] at hr
      obtain rfl : outcome = .ok frame := Except.ok.inj (Prod.mk.inj hr).1
      rfl

theorem refuses_of_error {frame : Frame} {signed : Bool} {message : String}
    (hloads : (Request.ofOpcode frame.opcode).loads = some signed)
    (hauth : settings.authorizeModule frame.payload signed = .ok (.error message)) :
    refuses settings frame = true := by
  simp only [refuses, hloads, hauth]

theorem Tracks.stepped {Rel : List Bytes → List Bytes → List Bytes → Prop} (hq : Queueing Rel)
    {start : Ledger H} {s s' : Receiver Connection (ThreadedExecutor H W)}
    (h : Tracks Rel (start.enterAll settings runtime (receivedFrames s.log)) s)
    (hknown : ∀ frame ∈ nextFrame s, Request.ofOpcode frame.opcode ≠ .unknown)
    (hrefused : ∀ frame ∈ nextFrame s, refuses settings frame = true →
      Overtakes Rel (start.enterAll settings runtime (receivedFrames s.log)) s)
    (hs : (settings.threaded Connection.transport runtime).Stepped s s') :
    Tracks Rel (start.enterAll settings runtime (receivedFrames s'.log)) s' := by
  cases hs with
  | ended fault => exact ⟨h.accounts, h.related⟩
  | idle e t _ hr =>
      have hreceive := receive_receivedFrames (s := s) t (.error e)
      rw [report_receivedFrames, hreceive, Except.toOption, Option.toList_none, List.append_nil]
      exact (h.receive t _).report hq
  | handled frame t s' _ hr hs =>
      have hreceive := receive_receivedFrames (s := s) t (.ok frame)
      have hsent : sentResults (Board.receive s t (.ok frame)).log = sentResults s.log :=
        sentResults_of_none rfl s.log
      have hnext := nextFrame_of_readFrame hr
      rw [hs.receivedFrames_eq, hreceive, Except.toOption, Option.toList_some, Ledger.enterAll_append]
      apply (h.receive t _).handled hq hs (hknown frame hnext)
      intro signed message hloads hauth payload
      rw [hsent]
      exact hrefused frame hnext (refuses_of_error hloads hauth) payload

-- On one connection the n-th result sent answers the n-th code-loading frame, in
-- every run without an unknown opcode in which a refusal never finds a module still
-- running or a result still waiting.
theorem results_in_order (settings : Settings) (runtime : Runtime H)
    (incoming : List (Except LinkError Frame)) (hw : H) (fuel : Option UInt64)
    (stopHook startHook : Option (W → W)) (world : W) (n : Nat) :
    let state := (settings.threaded Connection.transport runtime).run
      (.start ⟨incoming, []⟩ (.new hw fuel stopHook startHook world))
    (∀ k < n, Orderly settings (state k)) →
      ∃ answers : List (Frame × Bytes),
        answers = ((Ledger.new hw fuel).enterAll settings runtime
          (receivedFrames (state n).log)).answers ∧
        answers.map Prod.fst = (receivedFrames (state n).log).filter loadsCode ∧
        sentResults (state n).log <+: answers.map Prod.snd := by
  intro state h
  have htracks : Tracks (InOrder 0) ((Ledger.new hw fuel).enterAll settings runtime
      (receivedFrames (state n).log)) (state n) := by
    induction n with
    | zero =>
        refine ⟨?_, .of_append_eq rfl⟩
        exact ThreadedExecutor.simulates_new hw fuel stopHook startHook world
    | succ n ih =>
        have hn := ih fun k hk => h k (Nat.lt_succ_of_lt hk)
        have horderly := h n (Nat.lt_succ_self n)
        refine hn.stepped (InOrder.queueing 0) (fun frame hf => (horderly frame hf).1) ?_
          (step_stepped _ (state n))
        intro frame hf hrefused payload
        have hrelated := hn.related
        rw [(horderly frame hf).2 hrefused] at hrelated ⊢
        exact hrelated.answer payload
  exact ⟨_, rfl, answered_frames_run settings _ runtime _ _ rfl n, htracks.related.isPrefix⟩

-- A refusal before a push keeps the order.
def refusedThenPushed : List (Except LinkError Frame) :=
  [.ok { opcode := OP_BYTECODE_PUSH, payload := [] },
    .ok { opcode := OP_BYTECODE_PUSH, payload := emptyModule }]

theorem results_in_order_refusedThenPushed :
    ∃ answers : List (Frame × Bytes),
      answers.map Prod.fst =
        [{ opcode := OP_BYTECODE_PUSH, payload := [] },
          { opcode := OP_BYTECODE_PUSH, payload := emptyModule }] ∧
      sentResults ((openSettings.threaded Connection.transport (silentRuntime 2)).run
        (.start ⟨refusedThenPushed, []⟩ (.new () none none none ())) 4).log <+:
          answers.map Prod.snd := by
  obtain ⟨answers, _, hframes, hprefix⟩ := results_in_order openSettings (silentRuntime 2)
    refusedThenPushed () none none none () 4 (by decide)
  exact ⟨answers, hframes, hprefix⟩

-- A refusal after a push is sent while the pushed module is still running.
def pushedThenRefused : List (Except LinkError Frame) :=
  [.ok { opcode := OP_BYTECODE_PUSH, payload := emptyModule },
    .ok { opcode := OP_BYTECODE_PUSH, payload := [] }]

theorem refusal_overtakes_result :
    let s := (openSettings.threaded Connection.transport (silentRuntime 5)).run
      (.start ⟨pushedThenRefused, []⟩ (.new () none none none ())) 2
    ¬sentResults s.log <+:
      ((Ledger.new () none).enterAll openSettings (silentRuntime 5)
        (receivedFrames s.log)).answers.map Prod.snd := by
  decide

end Board

end Milo.MainLoop
