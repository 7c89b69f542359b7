import Milo.Engine.Threaded.StopFlag
import Milo.MainLoop.Ledger

namespace Milo.Engine.Executor.ThreadedExecutor

variable {H W : Type} {runtime : Runtime H} {e : ThreadedExecutor H W}

-- A stop has been called since the last submit.
def stoppedSince (operations : List (Operation H)) : Bool :=
  operations.foldl (fun stopped operation =>
    match operation with
    | .submit _ => false
    | .stop => true
    | _ => stopped) false

-- The held worker has come to its end and has not been joined.
def Uncollected (e : ThreadedExecutor H W) : Prop :=
  ∃ worker, e.handle = some worker ∧ worker.isFinished = true

-- What the stored status says, by whether a worker is held.
structure Reports (stopped : Bool) (e : ThreadedExecutor H W) : Prop where
  held : e.handle.isSome → e.lastStatus = if stopped then .stopped else .running
  free : e.handle = none → e.lastStatus ≠ .running

theorem reports_new (hw : H) (fuel : Option UInt64) (stopHook startHook : Option (W → W)) (world : W) :
    Reports false (new hw fuel stopHook startHook world) :=
  ⟨fun hsome => (by cases hsome), nofun⟩

theorem reap_free (e : ThreadedExecutor H W) (h : e.handle = none → e.lastStatus ≠ .running) :
    e.reap.handle = none ∧ e.reap.lastStatus ≠ .running := by
  unfold reap
  cases hh : e.handle with
  | none => exact ⟨hh, h hh⟩
  | some worker =>
      have hstatus : (if e.lastStatus ≠ .stopped then .completed else e.lastStatus) ≠ ExecStatus.running := by
        split_ifs with hstopped
        · exact nofun
        · rw [not_not.mp hstopped]
          exact nofun
      dsimp only
      split
      · exact ⟨rfl, hstatus⟩
      · exact ⟨rfl, hstatus⟩

theorem preempt_free (e : ThreadedExecutor H W) (h : e.handle = none → e.lastStatus ≠ .running) :
    e.preempt.handle = none ∧ e.preempt.lastStatus ≠ .running := by
  cases hh : e.handle with
  | none => exact (preempt_of_none hh).symm ▸ ⟨hh, h hh⟩
  | some worker =>
      rw [preempt_of_some (by simp [hh])]
      exact reap_free e.runStopHook h

theorem Reports.of_free {stopped : Bool} (h : e.handle = none ∧ e.lastStatus ≠ .running) :
    Reports stopped e :=
  ⟨fun hsome => by simp [h.1] at hsome, fun _ => h.2⟩

theorem Reports.collect {stopped : Bool} (h : Reports stopped e) : Reports stopped e.collect := by
  unfold ThreadedExecutor.collect
  split
  · split_ifs
    · exact .of_free (reap_free e h.free)
    · exact h
  · exact h

theorem elapse_held : e.elapse.handle.isSome = e.handle.isSome := by
  cases hh : e.handle <;> simp [elapse, hh]

theorem Reports.elapse {stopped : Bool} (h : Reports stopped e) : Reports stopped e.elapse := by
  refine ⟨fun hsome => h.held (elapse_held ▸ hsome), fun hnone => h.free ?_⟩
  have hheld := elapse_held (e := e)
  rw [hnone] at hheld
  exact Option.not_isSome_iff_eq_none.mp (by simp [← hheld])

theorem Reports.perform (runtime : Runtime H) {operations : List (Operation H)}
    (h : Reports (stoppedSince operations) e) (operation : Operation H) :
    Reports (stoppedSince (operations ++ [operation])) (operation.perform runtime e) := by
  have hstopped : stoppedSince (operations ++ [operation]) =
      match operation with
      | .submit _ => false
      | .stop => true
      | _ => stoppedSince operations := by
    simp only [stoppedSince, List.foldl_append, List.foldl_cons, List.foldl_nil]
  rw [hstopped]
  cases operation with
  | submit bytecode =>
      change Reports false (e.submit runtime bytecode)
      unfold ThreadedExecutor.submit
      obtain ⟨hhandle, -⟩ := preempt_free e h.free
      dsimp only
      split
      · exact .of_free ⟨hhandle, nofun⟩
      · exact ⟨fun _ => rfl, nofun⟩
  | pollResult =>
      have hc := h.collect
      change Reports (stoppedSince operations) e.pollResult.2
      unfold ThreadedExecutor.pollResult
      dsimp only
      split
      · rename_i hhandle _
        exact .of_free ⟨hhandle, nofun⟩
      · exact hc
  | isRunning => exact h
  | stop => exact ⟨fun _ => rfl, fun _ => nofun⟩
  | status => exact h
  | takeHardware => exact .of_free (preempt_free e h.free)
  | giveHardware hw => exact ⟨h.held, h.free⟩
  | elapse => exact h.elapse

def performAll (runtime : Runtime H) (e : ThreadedExecutor H W) (operations : List (Operation H)) :
    ThreadedExecutor H W :=
  operations.foldl (fun e operation => operation.perform runtime e) e

theorem Reports.performAll (runtime : Runtime H) (before : List (Operation H))
    (h : Reports (stoppedSince before) e) (operations : List (Operation H)) :
    Reports (stoppedSince (before ++ operations)) (performAll runtime e operations) := by
  induction operations generalizing before e with
  | nil => rwa [List.append_nil]
  | cons operation operations ih =>
      have hrest := ih _ (h.perform runtime operation)
      rwa [List.append_assoc, List.singleton_append] at hrest

theorem Uncollected.held (h : e.Uncollected) : e.handle.isSome := by
  obtain ⟨worker, hhandle, -⟩ := h
  simp [hhandle]

theorem isRunning_iff : e.isRunning = true ↔ e.handle.isSome ∧ ¬e.Uncollected := by
  unfold isRunning Uncollected
  cases hh : e.handle with
  | none => simp
  | some worker => simp

-- In the states the calls can lead to, the stored status still says running when the
-- held worker has come to its end.
theorem Reports.status_iff {stopped : Bool} (h : Reports stopped e) :
    e.status = .running ↔ e.handle.isSome ∧ (e.Uncollected → stopped = false) := by
  unfold status
  cases hr : e.isRunning with
  | true =>
      obtain ⟨hsome, hnot⟩ := isRunning_iff.mp hr
      simp [hsome, hnot]
  | false =>
      have hnot : e.handle.isSome → e.Uncollected := by
        intro hsome
        by_contra hnot
        rw [isRunning_iff.mpr ⟨hsome, hnot⟩] at hr
        cases hr
      cases hh : e.handle with
      | none => simp [h.free hh]
      | some worker =>
          have hsome : e.handle.isSome := by simp [hh]
          cases stopped <;> simp [h.held hsome, hnot hsome]

theorem Uncollected.elapse (h : e.Uncollected) : e.elapse.Uncollected := by
  obtain ⟨worker, hhandle, hfinished⟩ := h
  have hzero : worker.remaining = 0 := of_decide_eq_true hfinished
  refine ⟨{ worker with remaining := worker.remaining - 1 }, ?_, ?_⟩
  · simp only [ThreadedExecutor.elapse, hhandle, Option.map_some]
  · simp [Worker.isFinished, hzero]

theorem performAll_reports (runtime : Runtime H) (hw : H) (fuel : Option UInt64)
    (stopHook startHook : Option (W → W)) (world : W) (operations : List (Operation H)) :
    let e := performAll runtime (new hw fuel stopHook startHook world) operations
    Reports (stoppedSince operations) e := by
  have h := (reports_new hw fuel stopHook startHook world).performAll
    runtime [] operations
  rwa [List.nil_append] at h

end Milo.Engine.Executor.ThreadedExecutor

namespace Milo.MainLoop.Board

open Milo.Rust Milo.Engine.Link Milo.Engine.Executor Milo.Transport
open Milo.Engine.Executor.ThreadedExecutor (Operation performAll stoppedSince)

-- The two sources of a status answer agree unless a worker has come to its end and no
-- stop has been called since it was submitted. In an answer to a query they are read one
-- after the other, so the worker must not come to its end between the two either.
theorem status_running_iff {T H W : Type} (settings : Settings) (transport : MiloTransport T)
    (runtime : Runtime H) (hw : H) (fuel : Option UInt64) (stopHook startHook : Option (W → W))
    (world : W) (operations : List (Operation H)) (s : Receiver T (ThreadedExecutor H W))
    (request : Frame) :
    let e := performAll runtime (.new hw fuel stopHook startHook world) operations
    ((e.status = .running ↔ e.isRunning = true) ↔
      (e.Uncollected → stoppedSince operations = true)) ∧
    ∃ status running outcome,
      ((settings.threaded transport runtime).queryStatus { s with exec := e } request).log =
        s.log ++ [.answered request
          { opcode := OP_STATUS_RESPONSE, payload := intoBytes (statusJson status running) } outcome] ∧
      ((status = .running ↔ running = true) ↔
        (e.elapse.elapse.Uncollected → e.elapse.Uncollected ∧ stoppedSince operations = true)) := by
  intro e
  have hreports : e.Reports (stoppedSince operations) :=
    ThreadedExecutor.performAll_reports runtime hw fuel stopHook startHook world operations
  have hstopped : stoppedSince operations = false ↔ ¬stoppedSince operations = true := by simp
  constructor
  · rw [hreports.status_iff, ThreadedExecutor.isRunning_iff, hstopped]
    by_cases huncollected : e.Uncollected
    · simp [huncollected, huncollected.held]
    · simp [huncollected]
  · refine ⟨e.elapse.status, e.elapse.elapse.isRunning, _, rfl, ?_⟩
    rw [hreports.elapse.status_iff, ThreadedExecutor.isRunning_iff,
      ThreadedExecutor.elapse_held (e := e.elapse), hstopped]
    have hheld := ThreadedExecutor.Uncollected.held (e := e.elapse.elapse)
    rw [ThreadedExecutor.elapse_held (e := e.elapse)] at hheld
    by_cases hbefore : e.elapse.Uncollected
    · have hafter := hbefore.elapse
      simp [hbefore, hafter, hheld hafter]
    · by_cases hafter : e.elapse.elapse.Uncollected
      · simp [hbefore, hafter, hheld hafter]
      · simp [hbefore, hafter]

-- A module that ends at once, before anybody polls.
theorem finished_status_disagrees :
    let e : ThreadedExecutor Unit Unit :=
      performAll (silentRuntime 0) (.new () none none none ()) [.submit []]
    ¬(e.status = .running ↔ e.isRunning = true) ∧
      statusJson e.status e.isRunning = "\x7b\"status\":\"running\",\"running\":false\x7d" := by
  decide

end Milo.MainLoop.Board
