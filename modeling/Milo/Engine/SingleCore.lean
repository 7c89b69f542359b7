import Milo.Engine.Threaded

namespace Milo.Engine.Executor

-- What MiloRuntime::execute makes of the n-th module, under its fuel, hardware and
-- bytes, and the hardware it hands back. It is arbitrary, but it returns.
abbrev InlineRuntime (H : Type) :=
  Nat → Option UInt64 → H → Bytes → H × Except MiloError (List String)

-- The count of the modules executed is no field of the source: it tells the runs of
-- one module apart.
structure SingleCoreExecutor (H : Type) where
  hardware : Option H
  fuel : Option UInt64
  lastStatus : ExecStatus
  lastResult : Option ExecResult
  executed : Nat

namespace SingleCoreExecutor

variable {H : Type}

def new (hw : H) (fuel : Option UInt64) : SingleCoreExecutor H where
  hardware := some hw
  fuel := fuel
  lastStatus := .idle
  lastResult := none
  executed := 0

def submit (runtime : InlineRuntime H) (e : SingleCoreExecutor H) (bytecode : Bytes) :
    SingleCoreExecutor H :=
  match e.hardware with
  | none => { e with lastResult := some noHardware, lastStatus := .completed }
  | some hw =>
      let (hw, outcome) := runtime e.executed e.fuel hw bytecode
      { e with
        hardware := some hw
        lastResult := some (.ofRun outcome)
        lastStatus := .completed
        executed := e.executed + 1 }

def pollResult (e : SingleCoreExecutor H) : Option ExecResult × SingleCoreExecutor H :=
  if e.lastStatus = .completed then
    (e.lastResult, { e with lastStatus := .idle, lastResult := none })
  else (none, e)

def isRunning (e : SingleCoreExecutor H) : Bool := e.lastStatus = .running

def stop (e : SingleCoreExecutor H) : SingleCoreExecutor H := { e with lastStatus := .stopped }

def status (e : SingleCoreExecutor H) : ExecStatus := e.lastStatus

def takeHardware (e : SingleCoreExecutor H) : Option H × SingleCoreExecutor H :=
  (e.hardware, { e with hardware := none })

def giveHardware (e : SingleCoreExecutor H) (hw : H) : SingleCoreExecutor H :=
  { e with hardware := some hw }

-- No other thread has a part in it.
def executor (runtime : InlineRuntime H) : MiloExecutor (SingleCoreExecutor H) H where
  submit := submit runtime
  pollResult := pollResult
  isRunning := isRunning
  stop := stop
  status := status
  takeHardware := takeHardware
  giveHardware := giveHardware
  elapse := id

-- What holds between two frames: the backend is back and no result waits.
structure Settled (e : SingleCoreExecutor H) : Prop where
  hardware : e.hardware.isSome
  status : e.lastStatus ≠ .completed

theorem settled_new (hw : H) (fuel : Option UInt64) : (new hw fuel).Settled := ⟨rfl, nofun⟩

theorem Settled.stop {e : SingleCoreExecutor H} (h : e.Settled) : e.stop.Settled :=
  ⟨h.hardware, nofun⟩

theorem Settled.pollResult {e : SingleCoreExecutor H} (h : e.Settled) : e.pollResult = (none, e) :=
  if_neg h.status

-- A submit is answered by the very next poll_result, with the outcome of the run.
theorem Settled.pollResult_submit {e : SingleCoreExecutor H} (h : e.Settled)
    (runtime : InlineRuntime H) (bytecode : Bytes) :
    ∃ outcome e', (e.submit runtime bytecode).pollResult = (some (ExecResult.ofRun outcome), e') ∧
      e'.Settled := by
  obtain ⟨hw, hhw⟩ := Option.isSome_iff_exists.mp h.hardware
  have hsubmit : (e.submit runtime bytecode).pollResult =
      (some (ExecResult.ofRun (runtime e.executed e.fuel hw bytecode).2),
        { e with
          hardware := some (runtime e.executed e.fuel hw bytecode).1
          lastStatus := .idle
          lastResult := none
          executed := e.executed + 1 }) := by
    simp only [submit, hhw, SingleCoreExecutor.pollResult, if_true]
  exact ⟨_, _, hsubmit, rfl, nofun⟩

end SingleCoreExecutor

end Milo.Engine.Executor
