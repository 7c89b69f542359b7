import Milo.MainLoop.Order

namespace Milo.Host

open Milo.Engine.Link Milo.Engine.Executor Milo.Transport Milo.MainLoop

-- The methods of MiloDevice. What they return is decoded from one payload and from
-- nothing else, so the model returns the payload.
inductive Operation where
  | push (wasmBytes : Bytes)
  | pushAsync (wasmBytes : Bytes)
  | pushSigned (signedPayload : Bytes)
  | pushSignedAsync (signedPayload : Bytes)
  | hotSwap (wasmBytes : Bytes)
  | hotSwapAsync (wasmBytes : Bytes)
  | hotSwapSigned (signedPayload : Bytes)
  | waitResult
  | stop
  | queryStatus
  | setParam (slot value : UInt32)

-- The frame a method writes first.
def Operation.request : Operation → Option Frame
  | .push wasmBytes => some { opcode := OP_BYTECODE_PUSH, payload := wasmBytes }
  | .pushAsync wasmBytes => some { opcode := OP_BYTECODE_PUSH, payload := wasmBytes }
  | .pushSigned signedPayload => some { opcode := OP_SIGNED_PUSH, payload := signedPayload }
  | .pushSignedAsync signedPayload => some { opcode := OP_SIGNED_PUSH, payload := signedPayload }
  | .hotSwap wasmBytes => some { opcode := OP_HOT_SWAP, payload := wasmBytes }
  | .hotSwapAsync wasmBytes => some { opcode := OP_HOT_SWAP, payload := wasmBytes }
  | .hotSwapSigned signedPayload => some { opcode := OP_SIGNED_SWAP, payload := signedPayload }
  | .waitResult => none
  | .stop => some { opcode := OP_STOP, payload := [] }
  | .queryStatus => some { opcode := OP_QUERY_STATUS, payload := [] }
  | .setParam slot value =>
      some { opcode := OP_SET_PARAM, payload := toBeBytes slot ++ toBeBytes value }

-- The opcode it reads for then.
def Operation.awaits : Operation → Option UInt8
  | .push _ | .pushSigned _ | .hotSwap _ | .hotSwapSigned _ | .waitResult => some OP_EXEC_RESULT
  | .stop | .queryStatus => some OP_STATUS_RESPONSE
  | .pushAsync _ | .pushSignedAsync _ | .hotSwapAsync _ | .setParam _ _ => none

structure MiloDevice where
  pendingResults : List Bytes
deriving DecidableEq

-- The wait inside a method: for which opcode, and for which of the requests written
-- so far; wait_result has written none.
structure Wait where
  want : UInt8
  request : Option Nat
deriving DecidableEq

-- A method that returned normally: its wait and its payload.
structure Return where
  wait : Wait
  payload : Bytes
deriving DecidableEq

-- A MiloDevice and a receiver at the two ends of a connection. The frames to the
-- receiver are under way in toDevice until they arrive in its transport; those to
-- the host are what its transport has written.
structure System (H W : Type) where
  device : MiloDevice
  waiting : Option Wait
  toDevice : List Frame
  receiver : Receiver Connection (ThreadedExecutor H W)
  -- the history: the frames the host has written and read, and what it returned
  requests : List Frame
  read : List Frame
  returned : List Return

namespace System

variable {H W : Type}

def start (exec : ThreadedExecutor H W) : System H W where
  device := { pendingResults := [] }
  waiting := none
  toDevice := []
  receiver := .start ⟨[], []⟩ exec
  requests := []
  read := []
  returned := []

def write (sys : System H W) (frame : Frame) : System H W :=
  { sys with toDevice := sys.toDevice ++ [frame], requests := sys.requests ++ [frame] }

def ret (sys : System H W) (wait : Wait) (payload : Bytes) : System H W :=
  { sys with waiting := none, returned := sys.returned ++ [⟨wait, payload⟩] }

-- The start of wait_result and of _read_routed: the pending queue comes first.
def await (sys : System H W) (wait : Wait) : System H W :=
  match sys.device.pendingResults with
  | payload :: pending =>
      if wait.want = OP_EXEC_RESULT then
        ret { sys with device := { pendingResults := pending } } wait payload
      else { sys with waiting := some wait }
  | [] => { sys with waiting := some wait }

-- A method is called, which happens when no other one is waiting.
def call (sys : System H W) (op : Operation) : System H W :=
  match sys.waiting with
  | some _ => sys
  | none =>
      let request := op.request.map fun _ => sys.requests.length
      let sys :=
        match op.request with
        | some frame => sys.write frame
        | none => sys
      match op.awaits with
      | some want => sys.await ⟨want, request⟩
      | none => sys

-- One turn of the loop in _read_routed, with a frame that has come in whole.
def readRouted (sys : System H W) : System H W :=
  match sys.waiting, sys.receiver.transport.outgoing with
  | some wait, frame :: outgoing =>
      let transport := { sys.receiver.transport with outgoing := outgoing }
      let sys :=
        { sys with
          receiver := { sys.receiver with transport := transport }
          read := sys.read ++ [frame] }
      if frame.opcode = wait.want then sys.ret wait frame.payload
      else if frame.opcode = OP_EXEC_RESULT then
        { sys with device := { pendingResults := sys.device.pendingResults ++ [frame.payload] } }
      else sys
  | _, _ => sys

-- A frame gets to the receiver.
def arrive (sys : System H W) : System H W :=
  match sys.toDevice with
  | [] => sys
  | frame :: toDevice =>
      let transport :=
        { sys.receiver.transport with incoming := sys.receiver.transport.incoming ++ [.ok frame] }
      { sys with toDevice := toDevice, receiver := { sys.receiver with transport := transport } }

inductive Action where
  | call (op : Operation)
  | arrive
  | iterate
  | readRouted
  | timeout

section Step

variable (settings : Settings) (runtime : Runtime H)

def step (sys : System H W) : Action → System H W
  | .call op => sys.call op
  | .arrive => sys.arrive
  | .iterate =>
      { sys with receiver := (settings.threaded Connection.transport runtime).step sys.receiver }
  | .readRouted => sys.readRouted
  -- the TimeoutError leaves the method, and the caller goes on
  | .timeout => { sys with waiting := none }

def run (sys : System H W) (actions : List Action) : System H W :=
  actions.foldl (step settings runtime) sys

end Step

end System

end Milo.Host
