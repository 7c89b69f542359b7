import Milo.Engine.Executor
import Milo.Engine.Signing
import Milo.Engine.Validation
import Milo.Transport

namespace Milo.MainLoop

open Milo.Rust Milo.Engine.Link Milo.Engine.Executor Milo.Engine.Signing Milo.Engine.Validation Milo.Transport

structure SecurityPolicy where
  trustedKey : Option PublicKey
  requireSigned : Bool

def SecurityPolicy.open : SecurityPolicy := { trustedKey := none, requireSigned := false }

def SecurityPolicy.signedOnly (key : PublicKey) : SecurityPolicy :=
  { trustedKey := some key, requireSigned := true }

-- The formats {:02x} and {:04x}.
def hex (digits n : Nat) : String := String.ofList ((Nat.toDigits 16 n).leftpad digits '0')

def escapeChar (c : Char) : String :=
  match c with
  | '"' => "\\\""
  | '\\' => "\\\\"
  | '\n' => "\\n"
  | '\r' => "\\r"
  | '\t' => "\\t"
  | c => if c.toNat < 0x20 then "\\u" ++ hex 4 c.toNat else c.toString

def jsonEscape (s : String) : String := String.join (s.toList.map escapeChar)

def errorJson (error : String) : String := "\x7b\"ok\":false,\"error\":\"" ++ error ++ "\"\x7d"

def rejectedImportsJson (rejected : List String) : String :=
  errorJson ("rejected imports: " ++ jsonEscape (String.intercalate ", " rejected))

def execResultToJson (result : ExecResult) : String :=
  if result.ok then
    "\x7b\"ok\":true,\"logs\":[" ++
      String.intercalate "," (result.logs.map fun log => "\"" ++ jsonEscape log ++ "\"") ++ "]\x7d"
  else errorJson (jsonEscape (result.error.getD "unknown"))

def statusJson (status : ExecStatus) (running : Bool) : String :=
  let status :=
    match status with
    | .idle => "idle"
    | .running => "running"
    | .completed => "completed"
    | .stopped => "stopped"
  "\x7b\"status\":\"" ++ status ++ "\",\"running\":" ++ (if running then "true" else "false") ++ "\x7d"

def stoppedJson : String := "\x7b\"stopped\":true\x7d"

def unknownOpcodeJson (opcode : UInt8) : String :=
  "\x7b\"error\":\"unknown opcode 0x" ++ hex 2 opcode.toNat ++ "\"\x7d"

def execResultFrame (json : String) : Frame :=
  { opcode := OP_EXEC_RESULT, payload := intoBytes json }

def resultFrame (result : ExecResult) : Frame := execResultFrame (execResultToJson result)

-- The arms of the dispatch. A code-loading request is signed or not.
inductive Request where
  | discovery
  | push (signed : Bool)
  | stop
  | queryStatus
  | setParam
  | hotSwap (signed : Bool)
  | unknown
deriving DecidableEq, Repr

def Request.ofOpcode (opcode : UInt8) : Request :=
  if opcode = OP_DISCOVERY then .discovery
  else if opcode = OP_BYTECODE_PUSH then .push false
  else if opcode = OP_SIGNED_PUSH then .push true
  else if opcode = OP_STOP then .stop
  else if opcode = OP_QUERY_STATUS then .queryStatus
  else if opcode = OP_SET_PARAM then .setParam
  else if opcode = OP_HOT_SWAP then .hotSwap false
  else if opcode = OP_SIGNED_SWAP then .hotSwap true
  else .unknown

-- The wire format of a code-loading request; none for the others.
def Request.loads : Request → Option Bool
  | .push signed => some signed
  | .hotSwap signed => some signed
  | _ => none

def loadsCode (frame : Frame) : Bool := (Request.ofOpcode frame.opcode).loads.isSome

-- What the main loop did, for statements about whole runs: a frame or an error came
-- in, a module was submitted, the executor was stopped, a result was taken and sent,
-- a request was answered at once.
inductive Event where
  | received (outcome : Except LinkError Frame)
  | submitted (bytecode : Bytes)
  | stopped
  | reported (result : ExecResult) (outcome : Except LinkError Unit)
  | answered (request response : Frame) (outcome : Except LinkError Unit)

structure Receiver (T E : Type) where
  transport : T
  exec : E
  params : ParamSlots
  log : List Event
  -- set once a panic or an endless loop has ended the program
  fault : Option Fault

def Receiver.start {T E : Type} (transport : T) (exec : E) : Receiver T E :=
  { transport := transport, exec := exec, params := .initial, log := [], fault := none }

-- The arguments and the build settings of a main loop; the width is that of usize.
structure Settings where
  manifestJson : String
  policy : SecurityPolicy
  ed25519 : Option Ed25519
  width : Nat

namespace Settings

variable (settings : Settings)

-- The signature gate and the policy gate of authorize_module.
def moduleBytes (payload : Bytes) (signed : Bool) : Except String Bytes :=
  if signed then
    match settings.policy.trustedKey with
    | none => .error (errorJson "no trusted key provisioned")
    | some key =>
        match verifySigned settings.ed25519 payload key with
        | .error e => .error (errorJson ("signature rejected: " ++ e))
        | .ok wasm => .ok wasm
  else if settings.policy.requireSigned then
    .error (errorJson "unsigned module rejected: policy requires signed bytecode")
  else .ok payload

def authorizeModule (payload : Bytes) (signed : Bool) : Except Fault (Except String Bytes) :=
  match settings.moduleBytes payload signed with
  | .error message => .ok (.error message)
  | .ok wasm => do
      let v ← validateWasmImports settings.width wasm
      if v.valid then return .ok wasm else return .error (rejectedImportsJson v.rejectedImports)

end Settings

-- A board entry point: its main loop over a transport and an executor strategy.
structure Board (T E H : Type) extends Settings where
  transport : MiloTransport T
  executor : MiloExecutor E H

namespace Board

variable {T E H : Type} (board : Board T E H)

-- The statement let _ = transport.write_frame(&response).
def answer (s : Receiver T E) (request response : Frame) : Receiver T E :=
  let written := board.transport.writeFrame s.transport response
  { s with transport := written.2, log := s.log ++ [.answered request response written.1] }

def submit (s : Receiver T E) (wasm : Bytes) : Receiver T E :=
  { s with
    exec := board.executor.submit (board.executor.elapse s.exec) wasm
    log := s.log ++ [.submitted wasm] }

def stop (s : Receiver T E) : Receiver T E :=
  { s with exec := board.executor.stop (board.executor.elapse s.exec), log := s.log ++ [.stopped] }

-- The recurring if let Some(result) = exec.poll_result().
def report (s : Receiver T E) : Receiver T E :=
  match board.executor.pollResult (board.executor.elapse s.exec) with
  | (none, exec) => { s with exec := exec }
  | (some result, exec) =>
      let written := board.transport.writeFrame s.transport (resultFrame result)
      { s with
        transport := written.2
        exec := exec
        log := s.log ++ [.reported result written.1] }

def stoppedFrame : Frame := { opcode := OP_STATUS_RESPONSE, payload := intoBytes stoppedJson }

-- The worker may get on between the calls of status and is_running.
def queryStatus (s : Receiver T E) (request : Frame) : Receiver T E :=
  let exec := board.executor.elapse s.exec
  let status := board.executor.status exec
  let exec := board.executor.elapse exec
  let running := board.executor.isRunning exec
  board.answer { s with exec := exec } request
    { opcode := OP_STATUS_RESPONSE, payload := intoBytes (statusJson status running) }

def setParam (s : Receiver T E) (payload : Bytes) : Receiver T E :=
  match payload with
  | b0 :: b1 :: b2 :: b3 :: b4 :: b5 :: b6 :: b7 :: _ =>
      let slot := UInt32.ofNat (fromBeBytes b0 b1 b2 b3)
      let value := UInt32.ofNat (fromBeBytes b4 b5 b6 b7)
      { s with params := Engine.Executor.setParam s.params slot value }
  | _ => s

def dispatch (s : Receiver T E) (frame : Frame) : Except Fault (Receiver T E) :=
  match Request.ofOpcode frame.opcode with
  | .discovery =>
      .ok (board.answer s frame { opcode := OP_DISCOVERY, payload := intoBytes board.manifestJson })
  | .push signed => do
      match ← board.authorizeModule frame.payload signed with
      | .error message => return board.answer s frame (execResultFrame message)
      | .ok wasm => return board.report (board.submit s wasm)
  | .stop => .ok (board.answer (board.stop s) frame stoppedFrame)
  | .queryStatus => .ok (board.queryStatus s frame)
  | .setParam => .ok (setParam s frame.payload)
  | .hotSwap signed => do
      match ← board.authorizeModule frame.payload signed with
      | .error message => return board.answer s frame (execResultFrame message)
      | .ok wasm => return board.report (board.submit (board.stop s) wasm)
  | .unknown => .ok (board.answer s frame (execResultFrame (unknownOpcodeJson frame.opcode)))

def receive (s : Receiver T E) (transport : T) (outcome : Except LinkError Frame) : Receiver T E :=
  { s with transport := transport, log := s.log ++ [.received outcome] }

-- The body of the loop in main_loop_with_policy.
def loopBody (s : Receiver T E) : Except Fault (Receiver T E) :=
  match board.transport.readFrame s.transport with
  | (.error fault, _) => .error fault
  | (.ok (.error e), transport) => .ok (board.report (receive s transport (.error e)))
  | (.ok (.ok frame), transport) => board.dispatch (receive s transport (.ok frame)) frame

def step (s : Receiver T E) : Receiver T E :=
  match s.fault with
  | some _ => s
  | none =>
      match board.loopBody s with
      | .ok s => s
      | .error fault => { s with fault := some fault }

-- The state before iteration n of main_loop_with_policy.
def run (s : Receiver T E) : Nat → Receiver T E
  | 0 => s
  | n + 1 => board.step (run s n)

theorem run_succ_left (s : Receiver T E) (n : Nat) : board.run s (n + 1) = board.run (board.step s) n := by
  induction n with
  | zero => rfl
  | succ n ih => rw [run, ih, run]

-- What dispatching a frame comes to, with the guards on the way.
inductive Handled (s : Receiver T E) (frame : Frame) : Receiver T E → Prop
  | discovery (h : Request.ofOpcode frame.opcode = .discovery) :
      Handled s frame
        (board.answer s frame { opcode := OP_DISCOVERY, payload := intoBytes board.manifestJson })
  | refused (signed : Bool) (message : String)
      (h : (Request.ofOpcode frame.opcode).loads = some signed)
      (hauth : board.authorizeModule frame.payload signed = .ok (.error message)) :
      Handled s frame (board.answer s frame (execResultFrame message))
  | pushed (signed : Bool) (wasm : Bytes) (h : Request.ofOpcode frame.opcode = .push signed)
      (hauth : board.authorizeModule frame.payload signed = .ok (.ok wasm)) :
      Handled s frame (board.report (board.submit s wasm))
  | swapped (signed : Bool) (wasm : Bytes) (h : Request.ofOpcode frame.opcode = .hotSwap signed)
      (hauth : board.authorizeModule frame.payload signed = .ok (.ok wasm)) :
      Handled s frame (board.report (board.submit (board.stop s) wasm))
  | stopped (h : Request.ofOpcode frame.opcode = .stop) :
      Handled s frame (board.answer (board.stop s) frame stoppedFrame)
  | queried (h : Request.ofOpcode frame.opcode = .queryStatus) :
      Handled s frame (board.queryStatus s frame)
  | param (h : Request.ofOpcode frame.opcode = .setParam) :
      Handled s frame (setParam s frame.payload)
  | unknown (h : Request.ofOpcode frame.opcode = .unknown) :
      Handled s frame (board.answer s frame (execResultFrame (unknownOpcodeJson frame.opcode)))

theorem dispatch_handled {s s' : Receiver T E} {frame : Frame}
    (h : board.dispatch s frame = .ok s') : board.Handled s frame s' := by
  unfold dispatch at h
  cases hreq : Request.ofOpcode frame.opcode with
  | discovery =>
      rw [hreq] at h
      obtain rfl := Except.ok.inj h
      exact .discovery hreq
  | push signed =>
      rw [hreq] at h
      obtain ⟨outcome, hauth, h⟩ := bind_eq_ok.mp h
      cases outcome with
      | error message =>
          obtain rfl := Except.ok.inj h
          exact .refused signed message (by rw [hreq]; rfl) hauth
      | ok wasm =>
          obtain rfl := Except.ok.inj h
          exact .pushed signed wasm hreq hauth
  | stop =>
      rw [hreq] at h
      obtain rfl := Except.ok.inj h
      exact .stopped hreq
  | queryStatus =>
      rw [hreq] at h
      obtain rfl := Except.ok.inj h
      exact .queried hreq
  | setParam =>
      rw [hreq] at h
      obtain rfl := Except.ok.inj h
      exact .param hreq
  | hotSwap signed =>
      rw [hreq] at h
      obtain ⟨outcome, hauth, h⟩ := bind_eq_ok.mp h
      cases outcome with
      | error message =>
          obtain rfl := Except.ok.inj h
          exact .refused signed message (by rw [hreq]; rfl) hauth
      | ok wasm =>
          obtain rfl := Except.ok.inj h
          exact .swapped signed wasm hreq hauth
  | unknown =>
      rw [hreq] at h
      obtain rfl := Except.ok.inj h
      exact .unknown hreq

-- What one iteration comes to.
inductive Stepped (s : Receiver T E) : Receiver T E → Prop
  | ended (fault : Fault) : Stepped s { s with fault := some fault }
  | idle (e : LinkError) (transport : T) (hf : s.fault = none)
      (h : board.transport.readFrame s.transport = (.ok (.error e), transport)) :
      Stepped s (board.report (receive s transport (.error e)))
  | handled (frame : Frame) (transport : T) (s' : Receiver T E) (hf : s.fault = none)
      (h : board.transport.readFrame s.transport = (.ok (.ok frame), transport))
      (hs : board.Handled (receive s transport (.ok frame)) frame s') : Stepped s s'

theorem step_stepped (s : Receiver T E) : board.Stepped s (board.step s) := by
  unfold step
  cases hf : s.fault with
  | some fault =>
      have hs : s = { s with fault := some fault } := by rw [← hf]
      exact hs ▸ .ended fault
  | none =>
      cases hb : board.loopBody s with
      | error fault => exact .ended fault
      | ok s' =>
          unfold loopBody at hb
          split at hb
          · cases hb
          · rename_i e transport hr
            obtain rfl := Except.ok.inj hb
            exact .idle e transport hf hr
          · rename_i frame transport hr
            exact .handled frame transport s' hf hr (board.dispatch_handled hb)

-- The induction over an execution of the main loop.
theorem run_induction {motive : Receiver T E → Prop} {s : Receiver T E} (h0 : motive s)
    (hstep : ∀ s s', board.Stepped s s' → motive s → motive s') (n : Nat) :
    motive (board.run s n) := by
  induction n with
  | zero => exact h0
  | succ n ih => exact hstep _ _ (board.step_stepped _) ih

end Board

-- The board and the module of the runs on fixed inputs: an open 64-bit board, and
-- the shortest bytes that the whitelist gate lets through.
def openSettings : Settings :=
  { manifestJson := "", policy := .open, ed25519 := none, width := 64 }

def emptyModule : Bytes := MAGIC ++ [0x01, 0x00, 0x00, 0x00]

end Milo.MainLoop
