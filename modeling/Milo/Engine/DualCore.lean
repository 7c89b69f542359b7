import Milo.Engine.SingleCore
import Milo.Lib.Projection

namespace Milo.Engine.Executor

open Milo.Lib

-- The flags of executor_dual.rs. They are static: every part of the program may store
-- to them at any time.
structure Statics where
  execState : UInt8
  stopFlag : Bool
  resultReady : Bool
deriving DecidableEq, Repr

-- The count of the modules executed is no field of the source, as in SingleCoreExecutor.
structure DualCoreExecutor (H : Type) where
  hardware : Option H
  fuel : Option UInt64
  lastStatus : ExecStatus
  lastResult : Option ExecResult
  core1Available : Bool
  statics : Statics
  executed : Nat

namespace DualCoreExecutor

variable {H : Type}

def new (hw : H) (fuel : Option UInt64) (core1Available : Bool) : DualCoreExecutor H where
  hardware := some hw
  fuel := fuel
  lastStatus := .idle
  lastResult := none
  core1Available := core1Available
  statics := { execState := 0, stopFlag := false, resultReady := false }
  executed := 0

def submit (runtime : InlineRuntime H) (e : DualCoreExecutor H) (bytecode : Bytes) :
    DualCoreExecutor H :=
  if e.core1Available = false then
    match e.hardware with
    | none => { e with lastResult := some noHardware, lastStatus := .completed }
    | some hw =>
        let (hw, outcome) := runtime e.executed e.fuel hw bytecode
        { e with
          hardware := some hw
          lastResult := some (.ofRun outcome)
          lastStatus := .completed
          statics := { e.statics with stopFlag := false }
          executed := e.executed + 1 }
  else
    -- core 1 is only signalled: the bytecode goes nowhere
    { e with
      lastStatus := .running
      statics := { execState := 1, stopFlag := false, resultReady := false } }

def pollResult (e : DualCoreExecutor H) : Option ExecResult × DualCoreExecutor H :=
  if e.lastStatus = .completed then
    (e.lastResult, { e with lastStatus := .idle, lastResult := none })
  else if e.core1Available && e.statics.resultReady then
    (e.lastResult,
      { e with
        lastStatus := .idle
        lastResult := none
        statics := { e.statics with resultReady := false } })
  else (none, e)

def isRunning (e : DualCoreExecutor H) : Bool := e.lastStatus = .running

def stop (e : DualCoreExecutor H) : DualCoreExecutor H :=
  { e with lastStatus := .stopped, statics := { e.statics with stopFlag := true } }

def status (e : DualCoreExecutor H) : ExecStatus := e.lastStatus

def takeHardware (e : DualCoreExecutor H) : Option H × DualCoreExecutor H :=
  (e.hardware, { e with hardware := none })

def giveHardware (e : DualCoreExecutor H) (hw : H) : DualCoreExecutor H :=
  { e with hardware := some hw }

-- What the rest of the program does to the flags is an action of its own.
def executor (runtime : InlineRuntime H) : MiloExecutor (DualCoreExecutor H) H where
  submit := submit runtime
  pollResult := pollResult
  isRunning := isRunning
  stop := stop
  status := status
  takeHardware := takeHardware
  giveHardware := giveHardware
  elapse := id

end DualCoreExecutor

-- The calls of the trait MiloExecutor, and what they answer.
inductive Call (H : Type) where
  | submit (bytecode : Bytes)
  | pollResult
  | isRunning
  | stop
  | status
  | takeHardware
  | giveHardware (hw : H)

inductive Answer (H : Type) where
  | unit
  | result (result : Option ExecResult)
  | running (running : Bool)
  | status (status : ExecStatus)
  | hardware (hw : Option H)

def MiloExecutor.call {E H : Type} (exec : MiloExecutor E H) (e : E) : Call H → Answer H × E
  | .submit bytecode => (.unit, exec.submit e bytecode)
  | .pollResult => (exec.pollResult e).map .result id
  | .isRunning => (.running (exec.isRunning e), e)
  | .stop => (.unit, exec.stop e)
  | .status => (.status (exec.status e), e)
  | .takeHardware => (exec.takeHardware e).map .hardware id
  | .giveHardware hw => (.unit, exec.giveHardware e hw)

-- A call, or a store to the flags from elsewhere.
inductive DualAction (H : Type) where
  | call (call : Call H)
  | store (statics : Statics)

def DualAction.call? {H : Type} : DualAction H → Option (Call H)
  | .call c => some c
  | .store _ => none

variable {H : Type} (runtime : InlineRuntime H)

-- Each answer with the backend that the executor holds behind it.
def SingleCoreExecutor.step (e : SingleCoreExecutor H) (call : Call H) :
    (Answer H × Option H) × SingleCoreExecutor H :=
  let (answer, e) := (executor runtime).call e call
  ((answer, e.hardware), e)

def DualCoreExecutor.step (e : DualCoreExecutor H) :
    DualAction H → (Answer H × Option H) × DualCoreExecutor H
  | .call c =>
      let (answer, e) := (executor runtime).call e c
      ((answer, e.hardware), e)
  | .store statics => ((.unit, e.hardware), { e with statics := statics })

-- They agree in everything but the flags.
structure Alike (d : DualCoreExecutor H) (e : SingleCoreExecutor H) : Prop where
  fallback : d.core1Available = false
  hardware : d.hardware = e.hardware
  fuel : d.fuel = e.fuel
  lastStatus : d.lastStatus = e.lastStatus
  lastResult : d.lastResult = e.lastResult
  executed : d.executed = e.executed

variable {d : DualCoreExecutor H} {e : SingleCoreExecutor H}

theorem Alike.submit (h : Alike d e) (bytecode : Bytes) :
    Alike (d.submit runtime bytecode) (e.submit runtime bytecode) := by
  unfold DualCoreExecutor.submit SingleCoreExecutor.submit
  rw [if_pos h.fallback, h.hardware, h.executed, h.fuel]
  cases e.hardware with
  | none => exact ⟨h.fallback, rfl, rfl, rfl, rfl, rfl⟩
  | some hw => exact ⟨h.fallback, rfl, rfl, rfl, rfl, rfl⟩

-- Without core 1 the flag of a ready result is never looked at.
theorem Alike.pollResult (h : Alike d e) :
    d.pollResult.1 = e.pollResult.1 ∧ Alike d.pollResult.2 e.pollResult.2 := by
  unfold DualCoreExecutor.pollResult SingleCoreExecutor.pollResult
  rw [h.lastStatus, h.lastResult, h.fallback]
  split_ifs with hcompleted hready
  · exact ⟨rfl, rfl, h.hardware, h.fuel, rfl, rfl, h.executed⟩
  · cases hready
  · exact ⟨rfl, h⟩

theorem Alike.call (h : Alike d e) (c : Call H) :
    ((DualCoreExecutor.executor runtime).call d c).1 =
        ((SingleCoreExecutor.executor runtime).call e c).1 ∧
      Alike ((DualCoreExecutor.executor runtime).call d c).2
        ((SingleCoreExecutor.executor runtime).call e c).2 := by
  cases c with
  | submit bytecode => exact ⟨rfl, h.submit runtime bytecode⟩
  | pollResult => exact ⟨congrArg Answer.result h.pollResult.1, h.pollResult.2⟩
  | isRunning =>
      refine ⟨congrArg Answer.running ?_, h⟩
      exact congrArg (fun status : ExecStatus => decide (status = .running)) h.lastStatus
  | stop => exact ⟨rfl, h.fallback, h.hardware, h.fuel, rfl, h.lastResult, h.executed⟩
  | status => exact ⟨congrArg Answer.status h.lastStatus, h⟩
  | takeHardware =>
      exact ⟨congrArg Answer.hardware h.hardware, h.fallback, rfl, h.fuel, h.lastStatus,
        h.lastResult, h.executed⟩
  | giveHardware hw => exact ⟨rfl, h.fallback, rfl, h.fuel, h.lastStatus, h.lastResult, h.executed⟩

theorem alike_projects (runtime : InlineRuntime H) :
    Projects (DualCoreExecutor.step runtime) (SingleCoreExecutor.step runtime) DualAction.call?
      Alike where
  shown d e action c h hview := by
    cases action with
    | call c' =>
        obtain rfl : c' = c := Option.some.inj hview
        obtain ⟨hanswer, hnext⟩ := h.call runtime c'
        exact ⟨Prod.ext hanswer hnext.hardware, hnext⟩
    | store statics => cases hview
  hidden d e action h hview := by
    cases action with
    | call c => cases hview
    | store statics => exact ⟨h.fallback, h.hardware, h.fuel, h.lastStatus, h.lastResult, h.executed⟩

-- For any calls, and whatever is stored to the flags between them.
theorem dualCore_fallback (runtime : InlineRuntime H) (hw : H) (fuel : Option UInt64)
    (actions : List (DualAction H)) :
    observed (DualCoreExecutor.step runtime) DualAction.call? (DualCoreExecutor.new hw fuel false)
        actions =
      answers (SingleCoreExecutor.step runtime) (SingleCoreExecutor.new hw fuel)
        (actions.filterMap DualAction.call?) :=
  (alike_projects runtime).observed_eq ⟨rfl, rfl, rfl, rfl, rfl, rfl⟩ actions

end Milo.Engine.Executor
