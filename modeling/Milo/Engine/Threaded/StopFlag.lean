import Milo.Engine.Threaded.Sequential

namespace Milo.Engine.Executor

-- The hooks of the sim target, over its flag SIM_STOPPED.
def simStopHook : Bool → Bool := fun _ => true

def simStartHook : Bool → Bool := fun _ => false

namespace ThreadedExecutor

-- The calls of the executor, with the progress of the worker between them.
inductive Operation (H : Type) where
  | submit (bytecode : Bytes)
  | pollResult
  | isRunning
  | stop
  | status
  | takeHardware
  | giveHardware (hw : H)
  | elapse

def Operation.perform {H W : Type} (runtime : Runtime H) (e : ThreadedExecutor H W) :
    Operation H → ThreadedExecutor H W
  | .submit bytecode => e.submit runtime bytecode
  | .pollResult => e.pollResult.2
  | .isRunning => e
  | .stop => e.stop
  | .status => e
  | .takeHardware => e.takeHardware.2
  | .giveHardware hw => e.giveHardware hw
  | .elapse => e.elapse

-- What a call does to the flag and the worker threads, one thing after the other.
inductive Act where
  | stopHook
  | join
  | startHook
  | spawn
  | other
deriving DecidableEq

structure Moment (H W : Type) where
  operation : Operation H
  act : Act
  before : ThreadedExecutor H W
  after : ThreadedExecutor H W

section Moments

variable {H W : Type} (runtime : Runtime H) (e : ThreadedExecutor H W) (operation : Operation H)

def runStopHook : ThreadedExecutor H W := { e with world := runHook e.stopHook e.world }

def runStartHook : ThreadedExecutor H W :=
  { e with hardware := none, world := runHook e.startHook e.world }

def preemptMoments : List (Moment H W) :=
  if e.handle.isSome then
    [⟨operation, .stopHook, e, e.runStopHook⟩, ⟨operation, .join, e.runStopHook, e.preempt⟩]
  else []

def collectMoments : List (Moment H W) :=
  match e.handle with
  | some worker => if worker.isFinished then [⟨operation, .join, e, e.collect⟩] else []
  | none => []

def moments : List (Moment H W) :=
  match operation with
  | .submit bytecode =>
      e.preemptMoments operation ++
        if e.preempt.hardware.isSome then
          [⟨operation, .startHook, e.preempt, e.preempt.runStartHook⟩,
            ⟨operation, .spawn, e.preempt.runStartHook, e.submit runtime bytecode⟩]
        else [⟨operation, .other, e.preempt, e.submit runtime bytecode⟩]
  | .pollResult => e.collectMoments operation ++ [⟨operation, .other, e.collect, e.pollResult.2⟩]
  | .stop => [⟨operation, .stopHook, e, e.stop⟩]
  | .takeHardware =>
      e.preemptMoments operation ++ [⟨operation, .other, e.preempt, e.takeHardware.2⟩]
  | .isRunning => []
  | .status => []
  | .giveHardware hw => [⟨operation, .other, e, e.giveHardware hw⟩]
  | .elapse => [⟨operation, .other, e, e.elapse⟩]

end Moments

-- The moments of a run, in order.
def timeline {H W : Type} (runtime : Runtime H) (e : ThreadedExecutor H W) :
    List (Operation H) → List (Moment H W)
  | [] => []
  | operation :: operations =>
      moments runtime e operation ++ timeline runtime (operation.perform runtime e) operations

-- The worker threads that have been spawned and not been joined yet.
def workers {H W : Type} (history : List (Moment H W)) : Int :=
  (history.countP (·.act = .spawn) : Int) - history.countP (·.act = .join)

-- The stop hook has been run since the last worker was spawned.
def stopAsked {H W : Type} (history : List (Moment H W)) : Bool :=
  history.foldl (fun asked m =>
    match m.act with
    | .stopHook => true
    | .spawn => false
    | _ => asked) false

-- The moments lead from one state of the executor to the other.
def Path {H W : Type} : ThreadedExecutor H W → List (Moment H W) → ThreadedExecutor H W → Prop
  | e, [], e' => e = e'
  | e, m :: history, e' => m.before = e ∧ Path m.after history e'

section Path

variable {H W : Type} {runtime : Runtime H} {e e' e'' : ThreadedExecutor H W}
variable {operation : Operation H} {history history' : List (Moment H W)}

theorem Path.append (h : Path e history e') (h' : Path e' history' e'') :
    Path e (history ++ history') e'' := by
  induction history generalizing e with
  | nil =>
      obtain rfl : e = e' := h
      exact h'
  | cons m history ih => exact ⟨h.1, ih h.2⟩

theorem preempt_of_some (h : e.handle.isSome) : e.preempt = e.runStopHook.reap := if_pos h

theorem preempt_of_none (h : e.handle = none) : e.preempt = e := by
  unfold preempt
  rw [if_neg (by simp [h])]

theorem preempt_path (e : ThreadedExecutor H W) : Path e (e.preemptMoments operation) e.preempt := by
  unfold preemptMoments
  cases hh : e.handle with
  | none => exact (preempt_of_none hh).symm
  | some worker => exact ⟨rfl, rfl, rfl⟩

theorem collect_path (e : ThreadedExecutor H W) : Path e (e.collectMoments operation) e.collect := by
  unfold collectMoments collect
  cases hh : e.handle with
  | none => rfl
  | some worker =>
      dsimp only
      split_ifs with hf
      · exact ⟨rfl, rfl⟩
      · rfl

theorem moments_path (runtime : Runtime H) (e : ThreadedExecutor H W) (operation : Operation H) :
    Path e (moments runtime e operation) (operation.perform runtime e) := by
  cases operation with
  | submit bytecode =>
      refine (preempt_path e).append ?_
      split_ifs
      · exact ⟨rfl, rfl, rfl⟩
      · exact ⟨rfl, rfl⟩
  | pollResult => exact (collect_path e).append ⟨rfl, rfl⟩
  | isRunning => rfl
  | stop => exact ⟨rfl, rfl⟩
  | status => rfl
  | takeHardware => exact (preempt_path e).append ⟨rfl, rfl⟩
  | giveHardware hw => exact ⟨rfl, rfl⟩
  | elapse => exact ⟨rfl, rfl⟩

end Path

section Flag

variable {H : Type} {runtime : Runtime H} {e : ThreadedExecutor H Bool} {operation : Operation H}
variable {m : Moment H Bool} {history : List (Moment H Bool)}

-- An executor with the hooks of the sim target.
structure SimHooks (e : ThreadedExecutor H Bool) : Prop where
  stop : e.stopHook = some simStopHook
  start : e.startHook = some simStartHook

-- The calls that may run the stop hook.
def Moment.StopCall (m : Moment H Bool) : Prop :=
  m.operation = .stop ∨
    m.before.handle.isSome ∧ (m.operation = .takeHardware ∨ ∃ bytecode, m.operation = .submit bytecode)

-- What a moment does to the worker and the flag.
inductive Moment.Sound (m : Moment H Bool) : Prop
  | stopHook (act : m.act = .stopHook) (call : m.StopCall)
      (handle : m.after.handle.isSome = m.before.handle.isSome) (flag : m.after.world = true)
  | join (act : m.act = .join) (before : m.before.handle.isSome) (after : m.after.handle = none)
      (flag : m.after.world = m.before.world)
  | startHook (act : m.act = .startHook) (before : m.before.handle = none)
      (after : m.after.handle = none)
  | spawn (act : m.act = .spawn) (before : m.before.handle = none) (after : m.after.handle.isSome)
      (cleared : m.before.world = false) (flag : m.after.world = false)
  | other (act : m.act = .other) (handle : m.after.handle.isSome = m.before.handle.isSome)
      (flag : m.after.world = m.before.world)

theorem reap_eq (worker : Worker H) (h : e.handle = some worker) :
    e.reap.handle = none ∧ e.reap.world = e.world ∧ e.reap.stopHook = e.stopHook ∧
      e.reap.startHook = e.startHook := by
  unfold reap
  rw [h]
  dsimp only
  split
  · exact ⟨rfl, rfl, rfl, rfl⟩
  · exact ⟨rfl, rfl, rfl, rfl⟩

theorem SimHooks.reap (h : SimHooks e) : SimHooks e.reap := by
  cases hh : e.handle with
  | none =>
      have hreap : e.reap = e := by
        unfold ThreadedExecutor.reap
        rw [hh]
      rwa [hreap]
  | some worker =>
      obtain ⟨-, -, hstop, hstart⟩ := reap_eq worker hh
      exact ⟨hstop.trans h.stop, hstart.trans h.start⟩

theorem SimHooks.preempt (h : SimHooks e) : SimHooks e.preempt := by
  cases hh : e.handle with
  | none => rwa [preempt_of_none hh]
  | some worker =>
      rw [preempt_of_some (by simp [hh])]
      exact SimHooks.reap (e := e.runStopHook) ⟨h.stop, h.start⟩

theorem SimHooks.collect (h : SimHooks e) : SimHooks e.collect := by
  unfold ThreadedExecutor.collect
  split
  · split_ifs
    · exact h.reap
    · exact h
  · exact h

theorem pollResult_eq (e : ThreadedExecutor H Bool) :
    e.pollResult.2.handle = e.collect.handle ∧ e.pollResult.2.world = e.collect.world ∧
      e.pollResult.2.stopHook = e.collect.stopHook ∧ e.pollResult.2.startHook = e.collect.startHook := by
  unfold pollResult
  dsimp only
  split
  · exact ⟨rfl, rfl, rfl, rfl⟩
  · exact ⟨rfl, rfl, rfl, rfl⟩

theorem submit_of_none {bytecode : Bytes} (h : e.preempt.hardware = none) :
    e.submit runtime bytecode =
      { e.preempt with results := e.preempt.results ++ [noHardware], lastStatus := .completed } := by
  simp only [submit, h]

theorem submit_of_some {hw : H} {bytecode : Bytes} (h : e.preempt.hardware = some hw) :
    e.submit runtime bytecode =
      { e.preempt.runStartHook with
        lastStatus := .running
        handle := some (spawn runtime e.preempt hw bytecode)
        spawned := e.preempt.spawned + 1 } := by
  simp only [submit, h, runStartHook]

theorem SimHooks.perform (h : SimHooks e) (operation : Operation H) :
    SimHooks (operation.perform runtime e) := by
  cases operation with
  | submit bytecode =>
      have hp := h.preempt
      cases hhw : e.preempt.hardware with
      | none =>
          change SimHooks (e.submit runtime bytecode)
          rw [submit_of_none hhw]
          exact ⟨hp.stop, hp.start⟩
      | some hw =>
          change SimHooks (e.submit runtime bytecode)
          rw [submit_of_some hhw]
          exact ⟨hp.stop, hp.start⟩
  | pollResult =>
      obtain ⟨-, -, hstop, hstart⟩ := pollResult_eq e
      exact ⟨hstop.trans h.collect.stop, hstart.trans h.collect.start⟩
  | isRunning => exact h
  | stop => exact ⟨h.stop, h.start⟩
  | status => exact h
  | takeHardware => exact ⟨h.preempt.stop, h.preempt.start⟩
  | giveHardware hw => exact ⟨h.stop, h.start⟩
  | elapse => exact ⟨h.stop, h.start⟩

theorem runStopHook_world (h : SimHooks e) : e.runStopHook.world = true := by
  simp only [runStopHook, h.stop, runHook, simStopHook]

theorem runStartHook_world (h : SimHooks e) : e.runStartHook.world = false := by
  simp only [runStartHook, h.start, runHook, simStartHook]

theorem preemptMoments_sound (h : SimHooks e)
    (hcall : operation = .takeHardware ∨ ∃ bytecode, operation = .submit bytecode) :
    ∀ m ∈ e.preemptMoments operation, m.Sound := by
  intro m hm
  cases hh : e.handle with
  | none => simp [preemptMoments, hh] at hm
  | some worker =>
      have hsome : e.handle.isSome := by simp [hh]
      simp only [preemptMoments, hsome, if_true, List.mem_cons, List.not_mem_nil, or_false] at hm
      obtain ⟨hhandle, hworld, -, -⟩ := reap_eq (e := e.runStopHook) worker hh
      rcases hm with rfl | rfl
      · exact .stopHook rfl (.inr ⟨hsome, hcall⟩) rfl (runStopHook_world h)
      · rw [preempt_of_some hsome]
        exact .join rfl hsome hhandle hworld

theorem moments_sound (h : SimHooks e) (operation : Operation H) :
    ∀ m ∈ moments runtime e operation, m.Sound := by
  cases operation with
  | submit bytecode =>
      intro m hm
      rcases List.mem_append.mp hm with hm | hm
      · exact preemptMoments_sound h (.inr ⟨bytecode, rfl⟩) m hm
      · have hhandle := preempt_handle e
        cases hhw : e.preempt.hardware with
        | none =>
            simp only [hhw, Option.isSome_none, Bool.false_eq_true, if_false, List.mem_singleton] at hm
            rw [hm, submit_of_none hhw]
            exact .other rfl rfl rfl
        | some hw =>
            simp only [hhw, Option.isSome_some, if_true, List.mem_cons, List.not_mem_nil, or_false] at hm
            rcases hm with rfl | rfl
            · exact .startHook rfl hhandle hhandle
            · rw [submit_of_some hhw]
              exact .spawn rfl hhandle rfl (runStartHook_world h.preempt) (runStartHook_world h.preempt)
  | pollResult =>
      intro m hm
      rcases List.mem_append.mp hm with hm | hm
      · unfold collectMoments at hm
        split at hm
        · rename_i worker hh
          split_ifs at hm with hf
          · rw [List.mem_singleton] at hm
            have hcollect : e.collect = e.reap := by simp only [collect, hh, hf, if_true]
            obtain ⟨hhandle, hworld, -, -⟩ := reap_eq worker hh
            rw [hm, hcollect]
            exact .join rfl (by simp [hh]) hhandle hworld
          · cases hm
        · cases hm
      · obtain ⟨hhandle, hworld, -, -⟩ := pollResult_eq e
        rw [List.mem_singleton] at hm
        rw [hm]
        exact .other rfl (congrArg Option.isSome hhandle) hworld
  | isRunning => exact fun m hm => absurd hm List.not_mem_nil
  | stop =>
      intro m hm
      rw [List.mem_singleton.mp hm]
      exact .stopHook rfl (.inl rfl) rfl (runStopHook_world h)
  | status => exact fun m hm => absurd hm List.not_mem_nil
  | takeHardware =>
      intro m hm
      rcases List.mem_append.mp hm with hm | hm
      · exact preemptMoments_sound h (.inl rfl) m hm
      · rw [List.mem_singleton.mp hm]
        exact .other rfl rfl rfl
  | giveHardware hw =>
      intro m hm
      rw [List.mem_singleton.mp hm]
      exact .other rfl rfl rfl
  | elapse =>
      intro m hm
      rw [List.mem_singleton.mp hm]
      exact .other rfl (by cases hh : e.handle <;> simp [elapse, hh]) rfl

-- What the history says about the state it has led to.
structure Tracks (history : List (Moment H Bool)) (e : ThreadedExecutor H Bool) : Prop where
  workers : workers history = if e.handle.isSome then 1 else 0
  flag : e.handle.isSome → e.world = stopAsked history

theorem workers_snoc (history : List (Moment H Bool)) (m : Moment H Bool) :
    workers (history ++ [m]) =
      workers history + (if m.act = .spawn then 1 else 0) - (if m.act = .join then 1 else 0) := by
  simp only [workers, List.countP_append, List.countP_singleton, decide_eq_true_eq]
  split_ifs <;> omega

theorem stopAsked_snoc (history : List (Moment H Bool)) (m : Moment H Bool) :
    stopAsked (history ++ [m]) =
      match m.act with
      | .stopHook => true
      | .spawn => false
      | _ => stopAsked history := by
  simp only [stopAsked, List.foldl_append, List.foldl_cons, List.foldl_nil]

theorem Tracks.step (h : Tracks history m.before) (hs : m.Sound) :
    Tracks (history ++ [m]) m.after := by
  have hworkers := workers_snoc history m
  have hasked := stopAsked_snoc history m
  rw [h.workers] at hworkers
  cases hs with
  | stopHook hact _ hhandle hflag =>
      simp only [hact, reduceCtorEq, if_false] at hworkers hasked
      exact ⟨by rw [hworkers, hhandle]; omega, fun _ => by rw [hflag, hasked]⟩
  | join hact hbefore hafter hflag =>
      simp only [hact, hbefore, reduceCtorEq, if_false, if_true] at hworkers
      exact ⟨by simp [hworkers, hafter], fun hsome => by simp [hafter] at hsome⟩
  | startHook hact hbefore hafter =>
      simp only [hact, hbefore, reduceCtorEq, if_false, Option.isSome_none, Bool.false_eq_true] at hworkers
      exact ⟨by simp [hworkers, hafter], fun hsome => by simp [hafter] at hsome⟩
  | spawn hact hbefore hafter _ hflag =>
      simp only [hact, hbefore, reduceCtorEq, if_false, if_true, Option.isSome_none,
        Bool.false_eq_true] at hworkers hasked
      exact ⟨by simp [hworkers, hafter], fun _ => by rw [hflag, hasked]⟩
  | other hact hhandle hflag =>
      simp only [hact, reduceCtorEq, if_false] at hworkers hasked
      refine ⟨by rw [hworkers, hhandle]; omega, fun hsome => ?_⟩
      rw [hflag, hasked]
      exact h.flag (hhandle ▸ hsome)

theorem Tracks.upTo (history : List (Moment H Bool)) {e' : ThreadedExecutor H Bool}
    {before after : List (Moment H Bool)}
    (h : Tracks history e) (hpath : Path e (before ++ m :: after) e')
    (hsound : ∀ m ∈ before, m.Sound) : Tracks (history ++ before) m.before := by
  induction before generalizing history e with
  | nil =>
      rw [List.append_nil, hpath.1]
      exact h
  | cons m' before ih =>
      have hstep : Tracks (history ++ [m']) m'.after :=
        Tracks.step (hpath.1 ▸ h) (hsound m' List.mem_cons_self)
      have := ih _ hstep hpath.2 fun m hm => hsound m (List.mem_cons_of_mem _ hm)
      rwa [List.append_assoc, List.singleton_append] at this

theorem timeline_path (operations : List (Operation H)) (e : ThreadedExecutor H Bool) :
    Path e (timeline runtime e operations)
      (operations.foldl (fun e operation => operation.perform runtime e) e) := by
  induction operations generalizing e with
  | nil => rfl
  | cons operation operations ih => exact (moments_path runtime e operation).append (ih _)

theorem timeline_sound (h : SimHooks e) (operations : List (Operation H)) :
    ∀ m ∈ timeline runtime e operations, m.Sound := by
  induction operations generalizing e with
  | nil => exact fun m hm => absurd hm List.not_mem_nil
  | cons operation operations ih =>
      intro m hm
      rcases List.mem_append.mp hm with hm | hm
      · exact moments_sound h operation m hm
      · exact ih (h.perform operation) m hm

-- At every moment of every run there is at most one worker, spawned under a cleared flag
-- when there was none; while it is held the flag says whether a stop has been asked for
-- since it was spawned, and the flag is only ever cleared when no worker is left.
theorem stop_flag_history (runtime : Runtime H) (hw : H) (fuel : Option UInt64) (world : Bool)
    (operations : List (Operation H)) :
    let start := new hw fuel (some simStopHook) (some simStartHook) world
    let history := timeline runtime start operations
    Path start history (operations.foldl (fun e operation => operation.perform runtime e) start) ∧
    ∀ before m after, history = before ++ m :: after →
      workers (before ++ [m]) = (if m.after.handle.isSome then 1 else 0) ∧
      (m.act = .spawn → workers before = 0 ∧ m.before.world = false) ∧
      (m.after.handle.isSome → (m.after.world = true ↔ stopAsked (before ++ [m]) = true)) ∧
      (m.act = .stopHook → m.StopCall) ∧
      (m.before.world = true → m.after.world = false → workers before = 0) := by
  intro start history
  have hpath : Path start history _ := timeline_path operations start
  refine ⟨hpath, fun before m after hsplit => ?_⟩
  have hsound : ∀ m ∈ history, m.Sound := timeline_sound ⟨rfl, rfl⟩ operations
  rw [hsplit] at hpath hsound
  have hm : m.Sound := hsound m (by simp)
  have hbefore : Tracks before m.before :=
    Tracks.upTo [] ⟨rfl, fun hsome => by cases hsome⟩ hpath fun m hm => hsound m (by simp [hm])
  have hafter := hbefore.step hm
  have hnone : m.before.handle = none → workers before = 0 := by
    intro hnone
    rw [hbefore.workers, hnone]
    rfl
  refine ⟨hafter.workers, ?_, ?_, ?_, ?_⟩
  · intro hact
    cases hm with
    | spawn _ hhandle _ hcleared _ => exact ⟨hnone hhandle, hcleared⟩
    | _ => simp_all
  · intro hsome
    rw [hafter.flag hsome]
  · intro hact
    cases hm with
    | stopHook _ hcall _ _ => exact hcall
    | _ => simp_all
  · intro hset hcleared
    cases hm with
    | startHook _ hhandle _ => exact hnone hhandle
    | _ => simp_all

end Flag

end ThreadedExecutor

end Milo.Engine.Executor
