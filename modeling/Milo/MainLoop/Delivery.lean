import Milo.MainLoop.Ledger

namespace Milo.Engine.Executor.ThreadedExecutor

variable {H W : Type}

theorem available_reap (e : ThreadedExecutor H W) : e.reap.available = e.available := by
  cases hh : e.handle with
  | none => simp only [reap, hh]
  | some worker =>
      obtain ⟨hhandle, _, hresults, _, _⟩ := reap_of_handle hh
      simp only [available, held, hhandle, hh, hresults, List.append_nil]

-- A result is ready for poll_result when no worker is at work and one is waiting.
theorem pollResult_isSome_iff (e : ThreadedExecutor H W) :
    (∃ result, e.pollResult.1 = some result) ↔ e.isRunning = false ∧ e.available ≠ [] := by
  have havail : e.collect.available = e.available := by
    unfold collect
    split
    · split_ifs
      · exact available_reap e
      · rfl
    · rfl
  have hhandle : e.collect.handle = none ↔ e.isRunning = false := by
    unfold collect isRunning
    cases hh : e.handle with
    | none => simp [hh]
    | some worker =>
        cases hw : worker.isFinished with
        | true => simp [hw, (reap_of_handle hh).1]
        | false => simp [hw, hh]
  rw [← havail, ← hhandle]
  unfold pollResult
  generalize e.collect = e
  cases hh : e.handle with
  | some worker => simp [hh]
  | none => cases hr : e.results <;> simp [hh, hr, available, held]

end Milo.Engine.Executor.ThreadedExecutor

namespace Milo.MainLoop

open Milo.Engine.Link Milo.Engine.Executor Milo.Transport

def Event.deliveredResult : Event → Option ExecResult
  | .reported result (.ok ()) => some result
  | _ => none

def deliveredResults (log : List Event) : List ExecResult := log.filterMap Event.deliveredResult

theorem deliveredResults_length_le (log : List Event) :
    (deliveredResults log).length ≤ (takenResults log).length := by
  unfold deliveredResults takenResults
  induction log with
  | nil => exact Nat.le_refl _
  | cons e log ih =>
      rw [List.filterMap_cons, List.filterMap_cons]
      cases e with
      | reported result outcome =>
          cases outcome with
          | ok u => exact Nat.succ_le_succ ih
          | error e => exact Nat.le_succ_of_le ih
      | _ => exact ih

-- All that was taken has been delivered when every write of a result succeeded.
theorem deliveredResults_eq_iff (log : List Event) :
    deliveredResults log = takenResults log ↔
      ∀ result outcome, .reported result outcome ∈ log → outcome = .ok () := by
  induction log with
  | nil => simp [deliveredResults, takenResults]
  | cons e log ih =>
      have hlen := deliveredResults_length_le log
      unfold deliveredResults takenResults at ih hlen ⊢
      rw [List.filterMap_cons, List.filterMap_cons]
      cases e with
      | reported result outcome =>
          simp only [List.mem_cons, Event.reported.injEq]
          cases outcome with
          | ok u =>
              simp only [Event.deliveredResult, Event.takenResult, List.cons.injEq, true_and, ih]
              constructor
              · rintro h result' outcome (⟨_, rfl⟩ | hmem)
                · rfl
                · exact h result' outcome hmem
              · exact fun h result' outcome hmem => h result' outcome (.inr hmem)
          | error e =>
              simp only [Event.deliveredResult, Event.takenResult]
              constructor
              · intro h
                rw [h, List.length_cons] at hlen
                omega
              · intro h
                cases h result (.error e) (.inl ⟨rfl, rfl⟩)
      | _ => simpa [Event.deliveredResult, Event.takenResult] using ih

namespace Board

section Reports

variable {T E H : Type} (board : Board T E H) {s s' : Receiver T E}

-- The next iteration comes to a poll_result, in this state.
inductive Reports (s : Receiver T E) : Receiver T E → Prop
  | idle (e : LinkError) (transport : T) (hf : s.fault = none)
      (h : board.transport.readFrame s.transport = (.ok (.error e), transport)) :
      Reports s (receive s transport (.error e))
  | pushed (frame : Frame) (transport : T) (signed : Bool) (wasm : Bytes) (hf : s.fault = none)
      (h : board.transport.readFrame s.transport = (.ok (.ok frame), transport))
      (hreq : Request.ofOpcode frame.opcode = .push signed)
      (hauth : board.authorizeModule frame.payload signed = .ok (.ok wasm)) :
      Reports s (board.submit (receive s transport (.ok frame)) wasm)
  | swapped (frame : Frame) (transport : T) (signed : Bool) (wasm : Bytes) (hf : s.fault = none)
      (h : board.transport.readFrame s.transport = (.ok (.ok frame), transport))
      (hreq : Request.ofOpcode frame.opcode = .hotSwap signed)
      (hauth : board.authorizeModule frame.payload signed = .ok (.ok wasm)) :
      Reports s (board.submit (board.stop (receive s transport (.ok frame))) wasm)

variable {board}

theorem Reports.step_eq (h : board.Reports s s') : board.step s = board.report s' := by
  cases h with
  | idle e transport hf hr => simp only [step, hf, loopBody, hr]
  | pushed frame transport signed wasm hf hr hreq hauth =>
      simp only [step, hf, loopBody, hr, dispatch, hreq, hauth]
      rfl
  | swapped frame transport signed wasm hf hr hreq hauth =>
      simp only [step, hf, loopBody, hr, dispatch, hreq, hauth]
      rfl

theorem Reports.mem_log_iff (h : board.Reports s s') (result : ExecResult)
    (outcome : Except LinkError Unit) :
    .reported result outcome ∈ s'.log ↔ .reported result outcome ∈ s.log := by
  cases h <;> simp [receive, submit, stop]

theorem mem_report_log_iff (result : ExecResult) (outcome : Except LinkError Unit) :
    .reported result outcome ∈ (board.report s).log ↔
      .reported result outcome ∈ s.log ∨
        (board.executor.pollResult (board.executor.elapse s.exec)).1 = some result ∧
          outcome = (board.transport.writeFrame s.transport (resultFrame result)).1 := by
  unfold report
  split
  · rename_i exec hp
    simp [hp]
  · rename_i taken exec hp
    simp only [hp, List.mem_append, List.mem_singleton, Event.reported.injEq, Option.some.injEq]
    constructor
    · rintro (h | ⟨rfl, rfl⟩)
      · exact .inl h
      · exact .inr ⟨rfl, rfl⟩
    · rintro (h | ⟨rfl, rfl⟩)
      · exact .inl h
      · exact .inr ⟨rfl, rfl⟩

-- Results are reported nowhere else.
theorem Stepped.reports (h : board.Stepped s s') (result : ExecResult)
    (outcome : Except LinkError Unit) (hmem : .reported result outcome ∈ s'.log) :
    .reported result outcome ∈ s.log ∨ ∃ r, board.Reports s r ∧ s' = board.report r := by
  cases h with
  | ended fault => exact .inl hmem
  | idle e transport hf hr => exact .inr ⟨_, .idle e transport hf hr, rfl⟩
  | handled frame transport _ hf hr hs =>
      cases hs with
      | pushed signed wasm hreq hauth =>
          exact .inr ⟨_, .pushed frame transport signed wasm hf hr hreq hauth, rfl⟩
      | swapped signed wasm hreq hauth =>
          exact .inr ⟨_, .swapped frame transport signed wasm hf hr hreq hauth, rfl⟩
      | param _ =>
          left
          unfold setParam at hmem
          split at hmem <;> simpa [receive] using hmem
      | _ =>
          left
          simpa [answer, stop, queryStatus, receive] using hmem

end Reports

section Tcp

variable {H W : Type} (settings : Settings) (runtime : Runtime H)

-- A client is connected and its socket takes the next write.
def TakesFrame (t : TcpServerTransport) : Prop :=
  t.client.isSome ∧ t.network.send.1 = .ok ()

-- A result that is ready at the poll_result of the next iteration finds a client.
def Deliverable (s : Receiver TcpServerTransport (ThreadedExecutor H W)) : Prop :=
  ∀ s', (settings.threaded TcpServerTransport.transport runtime).Reports s s' →
    s'.exec.elapse.isRunning = false → s'.exec.elapse.available ≠ [] → TakesFrame s'.transport

-- Each answer to an accepted module has reached a client or is still in the executor.
def NothingLost (start : Ledger H) (s : Receiver TcpServerTransport (ThreadedExecutor H W)) : Prop :=
  (start.enterAll settings runtime (receivedFrames s.log)).seq.answers.map Prod.snd =
    deliveredResults s.log ++ s.exec.available

variable {settings runtime}

theorem writeFrame_ok_iff (t : TcpServerTransport) (frame : Frame) :
    (t.writeFrame frame).1 = .ok () ↔ TakesFrame t := by
  unfold TcpServerTransport.writeFrame TakesFrame
  cases hc : t.client with
  | none => simp
  | some client =>
      cases hs : t.network.send with
      | mk outcome network => cases outcome <;> simp

theorem nothingLost_iff {start : Ledger H} {s : Receiver TcpServerTransport (ThreadedExecutor H W)}
    (h : Accounts s (start.enterAll settings runtime (receivedFrames s.log))) :
    NothingLost settings runtime start s ↔
      ∀ result outcome, .reported result outcome ∈ s.log → outcome = .ok () := by
  unfold NothingLost
  rw [← deliveredResults_eq_iff, ← h.answers]
  constructor
  · intro he
    exact (List.append_cancel_right he).symm
  · intro he
    rw [he]

-- One iteration loses a result exactly when it is not deliverable.
variable (settings runtime) in
theorem step_log_ok_iff (s : Receiver TcpServerTransport (ThreadedExecutor H W))
    (h : ∀ result outcome, .reported result outcome ∈ s.log → outcome = .ok ()) :
    (∀ result outcome,
      .reported result outcome ∈
        ((settings.threaded TcpServerTransport.transport runtime).step s).log → outcome = .ok ()) ↔
      Deliverable settings runtime s := by
  constructor
  · intro hstep s' hs' hidle havail
    obtain ⟨result, hpoll⟩ := s'.exec.elapse.pollResult_isSome_iff.mpr ⟨hidle, havail⟩
    rw [← writeFrame_ok_iff s'.transport (resultFrame result)]
    apply hstep result
    rw [hs'.step_eq, mem_report_log_iff]
    exact .inr ⟨hpoll, rfl⟩
  · intro hdeliverable result outcome hmem
    have hstepped := (settings.threaded TcpServerTransport.transport runtime).step_stepped s
    rcases hstepped.reports result outcome hmem with hmem | ⟨s', hs', he⟩
    · exact h result outcome hmem
    · rw [he, mem_report_log_iff, hs'.mem_log_iff] at hmem
      rcases hmem with hmem | ⟨hpoll, rfl⟩
      · exact h result outcome hmem
      · obtain ⟨hidle, havail⟩ := s'.exec.elapse.pollResult_isSome_iff.mp ⟨result, hpoll⟩
        exact (writeFrame_ok_iff s'.transport (resultFrame result)).mpr
          (hdeliverable s' hs' hidle havail)

-- A run keeps every result as long as each one that is polled finds a client whose
-- socket takes it, and not beyond.
theorem results_kept_iff (settings : Settings) (runtime : Runtime H) (network : Network) (hw : H)
    (fuel : Option UInt64) (stopHook startHook : Option (W → W)) (world : W) (n : Nat) :
    let state := (settings.threaded TcpServerTransport.transport runtime).run
      (.start (.bind network) (.new hw fuel stopHook startHook world))
    (∀ k ≤ n, NothingLost settings runtime (.new hw fuel) (state k)) ↔
      ∀ k < n, Deliverable settings runtime (state k) := by
  intro state
  have hiff (k : Nat) : NothingLost settings runtime (.new hw fuel) (state k) ↔
      ∀ result outcome, .reported result outcome ∈ (state k).log → outcome = .ok () :=
    nothingLost_iff (accounts_run settings _ runtime _ hw fuel stopHook startHook world k)
  simp only [hiff]
  induction n with
  | zero => simp [state, run, Receiver.start]
  | succ n ih =>
      have hstep := step_log_ok_iff settings runtime (state n)
      constructor
      · intro h k hk
        rcases Nat.lt_succ_iff_lt_or_eq.mp hk with hlt | rfl
        · exact ih.mp (fun j hj => h j (by omega)) k hlt
        · exact (hstep (h k (by omega))).mp (h (k + 1) (by omega))
      · intro h k hk
        have hprev := ih.mpr fun j hj => h j (by omega)
        rcases Nat.lt_succ_iff_lt_or_eq.mp (Nat.lt_succ_of_le hk) with hlt | rfl
        · exact hprev k (by omega)
        · exact (hstep (hprev n (Nat.le_refl n))).mpr (h n (by omega))

-- The client that pushed the module is gone when the module ends.
def leavingClient : Network where
  accepts := [.client]
  receives :=
    [.data ⟨{ opcode := OP_BYTECODE_PUSH, payload := emptyModule : Frame }.serialize, by decide, by decide⟩,
      .closed]
  sends := []

theorem result_lost :
    ¬NothingLost openSettings (silentRuntime 2) (.new () none)
      ((openSettings.threaded TcpServerTransport.transport (silentRuntime 2)).run
        (.start (.bind leavingClient) (.new () none none none ())) 2) := by
  unfold NothingLost
  decide

end Tcp

end Board

end Milo.MainLoop
