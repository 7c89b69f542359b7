import Milo.Engine.Threaded

namespace Milo.Engine.Executor

-- What the threaded executor is for: modules run one after the other on the one
-- hardware backend, and each submit gets the answer next to its module.
structure Sequential (H : Type) where
  hardware : Option H
  fuel : Option UInt64
  started : Nat
  answers : List (Bytes × ExecResult)

namespace Sequential

variable {H : Type}

def new (hw : H) (fuel : Option UInt64) : Sequential H where
  hardware := some hw
  fuel := fuel
  started := 0
  answers := []

-- What a run leaves behind. A panicking module takes the hardware down with it.
def ending (runtime : Runtime H) (s : Sequential H) (hw : H) (bytecode : Bytes) :
    Option H × ExecResult :=
  match (runtime s.started s.fuel hw bytecode).outcome with
  | some (hw, outcome) => (some hw, ExecResult.ofRun outcome)
  | none => (none, threadPanicked)

def answer (runtime : Runtime H) (s : Sequential H) (bytecode : Bytes) : ExecResult :=
  match s.hardware with
  | none => noHardware
  | some hw => (s.ending runtime hw bytecode).2

def submit (runtime : Runtime H) (s : Sequential H) (bytecode : Bytes) : Sequential H :=
  let answers := s.answers ++ [(bytecode, s.answer runtime bytecode)]
  match s.hardware with
  | none => { s with answers := answers }
  | some hw =>
      { s with
        hardware := (s.ending runtime hw bytecode).1
        started := s.started + 1
        answers := answers }

def takeHardware (s : Sequential H) : Sequential H := { s with hardware := none }

theorem submit_answers (runtime : Runtime H) (s : Sequential H) (bytecode : Bytes) :
    (s.submit runtime bytecode).answers = s.answers ++ [(bytecode, s.answer runtime bytecode)] := by
  unfold submit
  cases s.hardware <;> rfl

end Sequential

namespace ThreadedExecutor

variable {H W : Type}

def endingResult : Option (H × ExecResult) → ExecResult
  | some (_, result) => result
  | none => threadPanicked

-- The result the held worker will leave behind.
def held (e : ThreadedExecutor H W) : List ExecResult :=
  match e.handle with
  | some worker => [endingResult worker.ending]
  | none => []

-- The results that have not been handed out yet, oldest first.
def available (e : ThreadedExecutor H W) : List ExecResult := e.results ++ e.held

-- The hardware once the held worker has been joined.
def nextHardware (e : ThreadedExecutor H W) : Option H :=
  match e.handle with
  | some worker => (worker.ending.map Prod.fst).or e.hardware
  | none => e.hardware

-- The executor simulates the sequential one when what it has handed out and what
-- is still available are together the answers so far.
structure Simulates (e : ThreadedExecutor H W) (returned : List ExecResult) (s : Sequential H) :
    Prop where
  hardware : e.nextHardware = s.hardware
  fuel : e.fuel = s.fuel
  spawned : e.spawned = s.started
  answers : returned ++ e.available = s.answers.map Prod.snd

section Step

variable {runtime : Runtime H} {e : ThreadedExecutor H W} {returned : List ExecResult}
  {s : Sequential H}

theorem reap_of_handle {worker : Worker H} (h : e.handle = some worker) :
    e.reap.handle = none ∧ e.reap.hardware = (worker.ending.map Prod.fst).or e.hardware ∧
      e.reap.results = e.results ++ [endingResult worker.ending] ∧ e.reap.fuel = e.fuel ∧
      e.reap.spawned = e.spawned := by
  obtain ⟨ending, remaining⟩ := worker
  unfold reap
  rw [h]
  cases ending with
  | none => exact ⟨rfl, rfl, rfl, rfl, rfl⟩
  | some pair => exact ⟨rfl, rfl, rfl, rfl, rfl⟩

theorem Simulates.reap (h : e.Simulates returned s) : e.reap.Simulates returned s := by
  cases hh : e.handle with
  | none => rwa [show e.reap = e by unfold ThreadedExecutor.reap; rw [hh]]
  | some worker =>
      obtain ⟨hhandle, hhw, hres, hfuel, hsp⟩ := reap_of_handle hh
      refine ⟨?_, hfuel.trans h.fuel, hsp.trans h.spawned, ?_⟩
      · rw [← h.hardware]
        simp only [nextHardware, hhandle, hh, hhw]
      · rw [← h.answers]
        simp only [available, held, hhandle, hh, hres, List.append_nil]

-- The hooks, the status and the progress of the worker do not matter to the answers.
theorem Simulates.of_eq {e' : ThreadedExecutor H W} (h : e.Simulates returned s)
    (hhw : e'.hardware = e.hardware) (hfuel : e'.fuel = e.fuel)
    (hending : e'.handle.map (·.ending) = e.handle.map (·.ending))
    (hres : e'.results = e.results) (hsp : e'.spawned = e.spawned) :
    e'.Simulates returned s := by
  have hnext : e'.nextHardware = e.nextHardware := by
    unfold nextHardware
    cases h1 : e.handle <;> cases h2 : e'.handle <;> simp_all
  have hheld : e'.held = e.held := by
    unfold held
    cases h1 : e.handle <;> cases h2 : e'.handle <;> simp_all
  exact ⟨hnext.trans h.hardware, hfuel.trans h.fuel, hsp.trans h.spawned, by
    rw [← h.answers, available, available, hres, hheld]⟩

theorem preempt_handle (e : ThreadedExecutor H W) : e.preempt.handle = none := by
  unfold preempt
  cases hh : e.handle with
  | none => rw [if_neg (by simp), hh]
  | some worker =>
      rw [if_pos (by simp)]
      exact (reap_of_handle (e := { e with world := runHook e.stopHook e.world, handle := some worker })
        rfl).1

theorem Simulates.preempt (h : e.Simulates returned s) : e.preempt.Simulates returned s := by
  unfold ThreadedExecutor.preempt
  split_ifs
  · have hstop : Simulates { e with world := runHook e.stopHook e.world } returned s :=
      h.of_eq rfl rfl rfl rfl rfl
    exact hstop.reap
  · exact h

theorem Simulates.submit (h : e.Simulates returned s) (bytecode : Bytes) :
    (e.submit runtime bytecode).Simulates returned (s.submit runtime bytecode) := by
  have hp := h.preempt
  have hhandle := preempt_handle e
  unfold ThreadedExecutor.submit
  generalize e.preempt = e at hp hhandle ⊢
  have hhw : e.hardware = s.hardware := by
    rw [← hp.hardware]
    simp only [nextHardware, hhandle]
  have hans : returned ++ e.results = s.answers.map Prod.snd := by
    rw [← hp.answers]
    simp only [available, held, hhandle, List.append_nil]
  cases hs : s.hardware with
  | none =>
      rw [hs] at hhw
      simp only [hhw, Sequential.submit, Sequential.answer, hs]
      refine ⟨?_, hp.fuel, hp.spawned, ?_⟩
      · simp only [nextHardware, hhandle]
      · simp only [available, held, hhandle, List.append_nil, List.map_append, List.map_cons,
          List.map_nil, ← hans, List.append_assoc]
  | some hw =>
      rw [hs] at hhw
      simp only [hhw, Sequential.submit, Sequential.answer, Sequential.ending, hs, spawn, hp.spawned,
        hp.fuel]
      cases ho : (runtime s.started s.fuel hw bytecode).outcome with
      | none =>
          refine ⟨rfl, rfl, rfl, ?_⟩
          simp only [available, held, Option.map_none, endingResult, List.map_append,
            List.map_cons, List.map_nil, ← hans, List.append_assoc]
      | some pair =>
          refine ⟨rfl, rfl, rfl, ?_⟩
          simp only [available, held, Option.map_some, endingResult, List.map_append,
            List.map_cons, List.map_nil, ← hans, List.append_assoc]

theorem Simulates.pollResult (h : e.Simulates returned s) :
    e.pollResult.2.Simulates (returned ++ e.pollResult.1.toList) s := by
  have hc : e.collect.Simulates returned s := by
    unfold collect
    split
    · split_ifs
      · exact h.reap
      · exact h
    · exact h
  unfold ThreadedExecutor.pollResult
  generalize e.collect = e at hc ⊢
  dsimp only
  split
  · rename_i result results hhandle hresults
    refine ⟨?_, hc.fuel, hc.spawned, ?_⟩
    · rw [← hc.hardware]
      rfl
    · rw [← hc.answers]
      simp only [available, held, hhandle, hresults, Option.toList_some, List.append_assoc,
        List.cons_append, List.append_nil, List.nil_append]
  · simpa using hc

theorem Simulates.takeHardware (h : e.Simulates returned s) :
    e.takeHardware.2.Simulates returned s.takeHardware := by
  have hp := h.preempt
  have hhandle := preempt_handle e
  unfold ThreadedExecutor.takeHardware
  generalize e.preempt = e at hp hhandle ⊢
  refine ⟨?_, hp.fuel, hp.spawned, ?_⟩
  · simp only [nextHardware, hhandle, Sequential.takeHardware]
  · rw [Sequential.takeHardware, ← hp.answers]
    simp only [available, held, hhandle]

theorem Simulates.stop (h : e.Simulates returned s) : e.stop.Simulates returned s :=
  h.of_eq rfl rfl rfl rfl rfl

theorem Simulates.elapse (h : e.Simulates returned s) : e.elapse.Simulates returned s :=
  h.of_eq rfl rfl (by cases hh : e.handle <;> simp [ThreadedExecutor.elapse, hh]) rfl rfl

theorem simulates_new (hw : H) (fuel : Option UInt64) (stopHook startHook : Option (W → W))
    (world : W) :
    (new hw fuel stopHook startHook world).Simulates [] (Sequential.new hw fuel) :=
  ⟨rfl, rfl, rfl, rfl⟩

end Step

-- The calls of a client of the executor, with the progress of the worker between them.
inductive Call where
  | submit (bytecode : Bytes)
  | pollResult
  | stop
  | isRunning
  | status
  | takeHardware
  | elapse

-- The executor and the results poll_result has returned.
structure Served (H W : Type) where
  exec : ThreadedExecutor H W
  returned : List ExecResult

def Served.call (runtime : Runtime H) (s : Served H W) : Call → Served H W
  | .submit bytecode => { s with exec := s.exec.submit runtime bytecode }
  | .pollResult =>
      { exec := s.exec.pollResult.2, returned := s.returned ++ s.exec.pollResult.1.toList }
  | .stop => { s with exec := s.exec.stop }
  | .isRunning => s
  | .status => s
  | .takeHardware => { s with exec := s.exec.takeHardware.2 }
  | .elapse => { s with exec := s.exec.elapse }

def Served.run (runtime : Runtime H) (s : Served H W) (calls : List Call) : Served H W :=
  calls.foldl (Served.call runtime) s

def sequentialCall (runtime : Runtime H) (s : Sequential H) : Call → Sequential H
  | .submit bytecode => s.submit runtime bytecode
  | .takeHardware => s.takeHardware
  | _ => s

def sequentialRun (runtime : Runtime H) (s : Sequential H) (calls : List Call) : Sequential H :=
  calls.foldl (sequentialCall runtime) s

def submitted : List Call → List Bytes
  | [] => []
  | .submit bytecode :: calls => bytecode :: submitted calls
  | _ :: calls => submitted calls

theorem Simulates.call {runtime : Runtime H} {v : Served H W} {s : Sequential H}
    (h : v.exec.Simulates v.returned s) (c : Call) :
    (v.call runtime c).exec.Simulates (v.call runtime c).returned (sequentialCall runtime s c) := by
  cases c with
  | submit bytecode => exact h.submit bytecode
  | pollResult => exact h.pollResult
  | stop => exact h.stop
  | isRunning => exact h
  | status => exact h
  | takeHardware => exact h.takeHardware
  | elapse => exact h.elapse

theorem Simulates.run {runtime : Runtime H} {v : Served H W} {s : Sequential H}
    (h : v.exec.Simulates v.returned s) (calls : List Call) :
    (v.run runtime calls).exec.Simulates (v.run runtime calls).returned
      (sequentialRun runtime s calls) := by
  induction calls generalizing v s with
  | nil => exact h
  | cons c calls ih => exact ih (h.call c)

theorem sequentialRun_submitted (runtime : Runtime H) (s : Sequential H) (calls : List Call) :
    (sequentialRun runtime s calls).answers.map Prod.fst =
      s.answers.map Prod.fst ++ submitted calls := by
  induction calls generalizing s with
  | nil => simp [sequentialRun, submitted]
  | cons c calls ih =>
      have hstep : (sequentialCall runtime s c).answers.map Prod.fst =
          s.answers.map Prod.fst ++ submitted [c] := by
        cases c with
        | submit bytecode =>
            simp [sequentialCall, Sequential.submit_answers, submitted]
        | _ => simp [sequentialCall, submitted, Sequential.takeHardware]
      have hcons : submitted (c :: calls) = submitted [c] ++ submitted calls := by
        cases c <;> simp [submitted]
      change (sequentialRun runtime (sequentialCall runtime s c) calls).answers.map Prod.fst = _
      rw [ih, hstep, hcons, List.append_assoc]

-- Whatever the calls and the workers do, each submit has exactly one answer, and
-- the results returned, queued and held are those answers in submission order.
theorem results_answer_submits (runtime : Runtime H) (hw : H) (fuel : Option UInt64)
    (stopHook startHook : Option (W → W)) (world : W) (calls : List Call) :
    ∃ answers : List (Bytes × ExecResult),
      answers = (sequentialRun runtime (Sequential.new hw fuel) calls).answers ∧
      answers.map Prod.fst = submitted calls ∧
      answers.map Prod.snd =
        (Served.run runtime ⟨new hw fuel stopHook startHook world, []⟩ calls).returned ++
        (Served.run runtime ⟨new hw fuel stopHook startHook world, []⟩ calls).exec.results ++
        (Served.run runtime ⟨new hw fuel stopHook startHook world, []⟩ calls).exec.held := by
  refine ⟨_, rfl, ?_, ?_⟩
  · simpa [Sequential.new] using
      sequentialRun_submitted runtime (Sequential.new hw fuel) calls
  · have hnew : Simulates (Served.exec ⟨new hw fuel stopHook startHook world, []⟩) []
        (Sequential.new hw fuel) := simulates_new hw fuel stopHook startHook world
    rw [← (Simulates.run hnew calls).answers, available, List.append_assoc]

end ThreadedExecutor

end Milo.Engine.Executor
