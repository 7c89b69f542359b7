import Milo.Rust

namespace Milo.Engine.Executor

inductive MiloError where
  | moduleInvalid (text : String)
  | missingExport (name : String)
  | fuelExhausted
  | trapped (text : String)
deriving DecidableEq, Repr

-- The Display implementation of MiloError.
def MiloError.display : MiloError → String
  | .moduleInvalid e => s!"invalid wasm module: {e}"
  | .missingExport name => s!"missing export: {name}"
  | .fuelExhausted => "fuel exhausted (gas limit reached)"
  | .trapped e => s!"execution trapped: {e}"

structure ExecResult where
  ok : Bool
  logs : List String
  error : Option String
deriving DecidableEq, Repr

-- The result an executor builds from what MiloRuntime::execute returned.
def ExecResult.ofRun : Except MiloError (List String) → ExecResult
  | .ok logs => { ok := true, logs := logs, error := none }
  | .error e => { ok := false, logs := [], error := some e.display }

def ExecResult.failed (error : String) : ExecResult :=
  { ok := false, logs := [], error := some error }

inductive ExecStatus where
  | idle
  | running
  | completed
  | stopped
deriving DecidableEq, Repr

-- The trait MiloExecutor over an executor state E and a hardware backend H. The
-- last field is no method: it is what another thread does to the executor between
-- two calls.
structure MiloExecutor (E H : Type) where
  submit : E → Bytes → E
  pollResult : E → Option ExecResult × E
  isRunning : E → Bool
  stop : E → E
  status : E → ExecStatus
  takeHardware : E → Option H × E
  giveHardware : E → H → E
  elapse : E → E

def PARAM_SLOT_COUNT : Nat := 8

-- The static PARAM_SLOTS.
abbrev ParamSlots := Vector UInt32 PARAM_SLOT_COUNT

def ParamSlots.initial : ParamSlots := Vector.replicate PARAM_SLOT_COUNT 0

def getParam (slots : ParamSlots) (slot : UInt32) : UInt32 :=
  if h : slot.toNat < PARAM_SLOT_COUNT then slots[slot.toNat] else 0

def setParam (slots : ParamSlots) (slot value : UInt32) : ParamSlots :=
  if h : slot.toNat < PARAM_SLOT_COUNT then slots.set slot.toNat value else slots

end Milo.Engine.Executor
