import Milo.Engine.Executor

namespace Milo.Engine.Executor

-- What becomes of a module on a worker thread: the hardware and the outcome of
-- the run, none when the thread panics, and how long the thread takes. The time
-- is counted in elapse steps, so every interleaving with the calls of the main
-- loop is some choice of durations.
structure ModuleRun (H : Type) where
  outcome : Option (H × Except MiloError (List String))
  duration : Nat

-- The run of the n-th module to be spawned, under its fuel, hardware and bytes.
-- It is arbitrary, so it also covers what stop flags and parameters do to it.
abbrev Runtime (H : Type) := Nat → Option UInt64 → H → Bytes → ModuleRun H

-- A runtime on which every module ends well, without a log line.
def silentRuntime (duration : Nat) : Runtime Unit :=
  fun _ _ hw _ => { outcome := some (hw, .ok []), duration := duration }

-- The value a join handle will yield and the time until it does.
structure Worker (H : Type) where
  ending : Option (H × ExecResult)
  remaining : Nat

def Worker.isFinished {H : Type} (worker : Worker H) : Bool := worker.remaining = 0

def threadPanicked : ExecResult := .failed "executor thread panicked"

def noHardware : ExecResult := .failed "no hardware available"

theorem display_head (e : MiloError) : e.display.toList.head? ≠ some 'n' := by
  cases e with
  | moduleInvalid text =>
      change ("invalid wasm module: " ++ text).toList.head? ≠ _
      simp
  | missingExport name =>
      change ("missing export: " ++ name).toList.head? ≠ _
      simp
  | fuelExhausted => decide
  | trapped text =>
      change ("execution trapped: " ++ text).toList.head? ≠ _
      simp

-- The interpreter never words an error as the executor does a missing backend.
theorem ofRun_ne_noHardware (outcome : Except MiloError (List String)) :
    ExecResult.ofRun outcome ≠ noHardware := by
  intro h
  cases outcome with
  | ok logs => exact Bool.noConfusion (congrArg ExecResult.ok h)
  | error e =>
      have htext := Option.some.inj (congrArg ExecResult.error h)
      refine display_head e ?_
      rw [htext]
      decide

-- The hooks of the hardware backend act on statics, here the world W.
structure ThreadedExecutor (H W : Type) where
  hardware : Option H
  fuel : Option UInt64
  lastStatus : ExecStatus
  handle : Option (Worker H)
  results : List ExecResult
  stopHook : Option (W → W)
  startHook : Option (W → W)
  world : W
  spawned : Nat

namespace ThreadedExecutor

variable {H W : Type}

def new (hw : H) (fuel : Option UInt64) (stopHook startHook : Option (W → W)) (world : W) :
    ThreadedExecutor H W where
  hardware := some hw
  fuel := fuel
  lastStatus := .idle
  handle := none
  results := []
  stopHook := stopHook
  startHook := startHook
  world := world
  spawned := 0

def runHook (hook : Option (W → W)) (world : W) : W :=
  match hook with
  | some f => f world
  | none => world

def reap (e : ThreadedExecutor H W) : ThreadedExecutor H W :=
  match e.handle with
  | none => e
  | some worker =>
      let status := if e.lastStatus ≠ .stopped then .completed else e.lastStatus
      match worker.ending with
      | some (hw, result) =>
          { e with
            handle := none
            hardware := some hw
            results := e.results ++ [result]
            lastStatus := status }
      | none =>
          { e with handle := none, results := e.results ++ [threadPanicked], lastStatus := status }

-- The common start of submit and take_hardware: stop and reap a held worker.
def preempt (e : ThreadedExecutor H W) : ThreadedExecutor H W :=
  if e.handle.isSome then reap { e with world := runHook e.stopHook e.world } else e

def spawn (runtime : Runtime H) (e : ThreadedExecutor H W) (hw : H) (bytecode : Bytes) : Worker H :=
  let run := runtime e.spawned e.fuel hw bytecode
  { ending := run.outcome.map fun (hw, outcome) => (hw, ExecResult.ofRun outcome)
    remaining := run.duration }

def submit (runtime : Runtime H) (e : ThreadedExecutor H W) (bytecode : Bytes) :
    ThreadedExecutor H W :=
  let e := e.preempt
  match e.hardware with
  | none => { e with results := e.results ++ [noHardware], lastStatus := .completed }
  | some hw =>
      { e with
        hardware := none
        world := runHook e.startHook e.world
        lastStatus := .running
        handle := some (spawn runtime e hw bytecode)
        spawned := e.spawned + 1 }

-- The reap at the start of poll_result, for a worker that has finished.
def collect (e : ThreadedExecutor H W) : ThreadedExecutor H W :=
  match e.handle with
  | some worker => if worker.isFinished then e.reap else e
  | none => e

def pollResult (e : ThreadedExecutor H W) : Option ExecResult × ThreadedExecutor H W :=
  let e := e.collect
  match e.handle, e.results with
  | none, result :: results => (some result, { e with results := results, lastStatus := .idle })
  | _, _ => (none, e)

def isRunning (e : ThreadedExecutor H W) : Bool :=
  match e.handle with
  | some worker => !worker.isFinished
  | none => false

def stop (e : ThreadedExecutor H W) : ThreadedExecutor H W :=
  { e with world := runHook e.stopHook e.world, lastStatus := .stopped }

def status (e : ThreadedExecutor H W) : ExecStatus :=
  if e.isRunning then .running else e.lastStatus

def takeHardware (e : ThreadedExecutor H W) : Option H × ThreadedExecutor H W :=
  let e := e.preempt
  (e.hardware, { e with hardware := none })

def giveHardware (e : ThreadedExecutor H W) (hw : H) : ThreadedExecutor H W :=
  { e with hardware := some hw }

-- The worker thread gets on.
def elapse (e : ThreadedExecutor H W) : ThreadedExecutor H W :=
  { e with handle := e.handle.map fun worker => { worker with remaining := worker.remaining - 1 } }

def executor (runtime : Runtime H) : MiloExecutor (ThreadedExecutor H W) H where
  submit := submit runtime
  pollResult := pollResult
  isRunning := isRunning
  stop := stop
  status := status
  takeHardware := takeHardware
  giveHardware := giveHardware
  elapse := elapse

end ThreadedExecutor

end Milo.Engine.Executor
