import Milo.Host.Mcp
import Mathlib.Data.List.AList

-- The devices of the server and the emulators that it runs.
namespace Milo.Host.Mcp

def Raised.outcome (raised : Raised) : Outcome := .raised raised.name raised.text

-- Equal values are one key of a dict. The int of a value may raise.
structure Builtins (κ : Type) extends Python where
  key : Json → κ
  int : Json → Except Raised ℤ
  receiverBin : String

-- What the steps outside the server come to in a call: the receiver is built, a process is
-- started, its port answers, a transport connects and its device tells a manifest, and the
-- transport of a device closes. The emulators that have ended by themselves are seen when
-- the call is over. The tools that leave the tables alone come to anything.
structure World (κ : Type) where
  built : Bool
  popen : Option Raised
  waitPort : Except Raised Bool
  register : Except Raised Json
  close : κ → Option Raised
  ended : Nat → Bool
  others : Tools

-- The names of the devices, the processes by their names, and the numbers of the processes
-- that run.
structure Server (κ : Type) where
  registry : List κ
  procs : AList fun _ : κ => Nat
  nextPort : Nat
  started : Nat
  running : List Nat

section Tools

variable {κ : Type} [DecidableEq κ] (py : Builtins κ) (w : World κ)

def Server.init : Server κ where
  registry := []
  procs := ∅
  nextPort := 9600
  started := 0
  running := []

def Server.enter (s : Server κ) (key : κ) : Server κ :=
  { s with registry := if key ∈ s.registry then s.registry else s.registry ++ [key] }

def Server.stop (s : Server κ) (stopped : Nat → Bool) : Server κ :=
  { s with running := s.running.filter fun proc => !stopped proc }

def Server.takePort (s : Server κ) : Server κ := { s with nextPort := s.nextPort + 1 }

def Server.launch (s : Server κ) : Server κ :=
  { s with started := s.started + 1, running := s.started :: s.running }

def Server.record (s : Server κ) (key : κ) (proc : Nat) : Server κ :=
  { s with procs := s.procs.insert key proc }

-- The device of a name leaves the tables, and its process is stopped.
def Server.leave (s : Server κ) (key : κ) : Server κ :=
  { s with
    registry := s.registry.filter (· ≠ key)
    procs := s.procs.erase key
    running := s.running.filter fun proc => s.procs.lookup key ≠ some proc }

def unhashable (name : Json) : Outcome := .raised "TypeError" s!"unhashable type: '{name.typeName}'"

def PROFILES : List String := ["drone", "conveyor", "oven", "arm"]

-- Python's value or default.
def valueOr (value : Option Json) (default : Json) : Json :=
  (value.filter Json.truthy).getD default

-- The checks of tool_milo_spawn_sim, which let a profile and a name pass.
def spawnChecks (members : List (String × Json)) (s : Server κ) : Except Outcome (String × Json) :=
  let given := (get members "profile").getD (.str "drone")
  match given.str?.filter (· ∈ PROFILES) with
  | none =>
      .error (.returned (errorResult
        s!"unknown profile '{py.format given}' (drone|conveyor|oven|arm)"))
  | some profile =>
      let name := valueOr (get members "name") (.str s!"{profile}-{s.nextPort}")
      if name.hashable then
        if py.key name ∈ s.registry then
          .error (.returned (errorResult s!"device '{py.format name}' already registered"))
        else if w.built then .ok (profile, name)
        else
          .error (.returned (errorResult ("receiver binary not built (expected " ++
            py.receiverBin ++ "); run \x60cargo build\x60 in receiver/")))
      else .error (unhashable name)

def registered (name : Json) (more : List (String × Json)) (manifest : Json) : Outcome :=
  .returned (.object ([("ok", .bool true), ("device", name)] ++ more ++ [("manifest", manifest)]))

-- The rest of it. A process is recorded before its device is registered.
def spawn (profile : String) (name : Json) (s : Server κ) : Outcome × Server κ :=
  match w.popen with
  | some raised => (raised.outcome, s.takePort)
  | none =>
      match w.waitPort with
      | .error raised => (raised.outcome, s.takePort.launch)
      | .ok false =>
          (.returned (errorResult
            s!"emulated device '{py.format name}' did not come up on port {s.nextPort}"),
            s.takePort.launch.stop (· = s.started))
      | .ok true =>
          match w.register with
          | .error raised => (raised.outcome, s.takePort.launch.record (py.key name) s.started)
          | .ok manifest =>
              (registered name [("profile", .str profile), ("port", .int s.nextPort)] manifest,
                (s.takePort.launch.record (py.key name) s.started).enter (py.key name))

def toolMiloSpawnSim (members : List (String × Json)) (s : Server κ) : Outcome × Server κ :=
  match spawnChecks py w members s with
  | .error outcome => (outcome, s)
  | .ok (profile, name) => spawn py w profile name s

-- A list as a name is seen only when the device is entered.
def connect (name : Json) (s : Server κ) : Outcome × Server κ :=
  match w.register with
  | .error raised => (raised.outcome, s)
  | .ok manifest =>
      if name.hashable then (registered name [] manifest, s.enter (py.key name))
      else (unhashable name, s)

def toolMiloConnectTcp (members : List (String × Json)) (s : Server κ) : Outcome × Server κ :=
  let name := (get members "name").getD .null
  match py.int ((get members "port").getD (.int 9400)) with
  | .error raised => (raised.outcome, s)
  | .ok _ =>
      if name.truthy then connect py w name s
      else (.returned (errorResult "missing 'name'"), s)

def toolMiloConnectSerial (members : List (String × Json)) (s : Server κ) : Outcome × Server κ :=
  let name := (get members "name").getD .null
  if name.truthy && ((get members "port").getD .null).truthy then
    match py.int ((get members "baud").getD (.int 115200)) with
    | .error raised => (raised.outcome, s)
    | .ok _ => connect py w name s
  else (.returned (errorResult "missing 'name' or 'port'"), s)

def disconnectedResult (name : Json) : Json :=
  .object [("ok", .bool true), ("disconnected", name)]

-- The device leaves the registry when its transport is closed.
def unregister (name : Json) (s : Server κ) : Outcome × Server κ :=
  match w.close (py.key name) with
  | some raised => (raised.outcome, s)
  | none => (.returned (disconnectedResult name), s.leave (py.key name))

def toolMiloDisconnect (members : List (String × Json)) (s : Server κ) : Outcome × Server κ :=
  let name := (get members "device").getD .null
  if name.truthy then
    if name.hashable then
      if py.key name ∈ s.registry then unregister py w name s
      else (.returned (errorResult s!"device '{py.format name}' not found"), s)
    else (unhashable name, s)
  else (.returned (errorResult s!"device '{py.format name}' not found"), s)

-- The tools that change the tables.
def lifecycle (handler : String) : Option (List (String × Json) → Server κ → Outcome × Server κ) :=
  if handler = "milo_spawn_sim" then some (toolMiloSpawnSim py w)
  else if handler = "milo_connect_tcp" then some (toolMiloConnectTcp py w)
  else if handler = "milo_connect_serial" then some (toolMiloConnectSerial py w)
  else if handler = "milo_disconnect" then some (toolMiloDisconnect py w)
  else none

def Server.handle (s : Server κ) (handler : String) (arguments : Json) : Outcome × Server κ :=
  match lifecycle py w handler with
  | none => (w.others handler arguments, s)
  | some tool =>
      match arguments with
      | .object members => tool members s
      | value => (.raised "AttributeError" s!"'{value.typeName}' object has no attribute 'get'", s)

def Server.callTool (s : Server κ) (name arguments : Json) :
    Except Escape (Json × Bool) × Server κ :=
  (Mcp.callTool py.toPython (fun handler arguments => (s.handle py w handler arguments).1) name
    arguments,
    match name.str?.filter (· ∈ HANDLERS) with
    | none => s
    | some handler => (s.handle py w handler (orEmpty arguments)).2)

-- An Exception of close_all ends it before any process is terminated.
def Server.shutdown (s : Server κ) : Option Raised × Server κ :=
  match s.registry.findSome? w.close with
  | some raised => (some raised, s)
  | none =>
      (none, { s with
        registry := []
        procs := ∅
        running := s.running.filter (· ∉ s.procs.entries.map Sigma.snd) })

end Tools

section Serve

variable {κ : Type} [DecidableEq κ] (py : Builtins κ)

-- A line, and the world in which it is handled.
structure Input (κ : Type) where
  line : Line
  world : World κ

-- What is written for a line.
def Server.handleLine (s : Server κ) (input : Input κ) : Except Escape (Option Json) × Server κ :=
  match input.line with
  | .blank => (.ok none, s)
  | .invalid => (.ok none, s)
  | .refused => (.error .loadsError, s)
  | .value request =>
      let (response, s) := handleRequest py.toPython s (s.callTool py input.world) request
      (response.bind (written py.toPython), s)

-- The lines up to the first that raises, if there is one.
def Server.serveLines : Server κ → List (Input κ) → List (Option Json) × Option Escape × Server κ
  | s, [] => ([], none, s)
  | s, input :: inputs =>
      match s.handleLine py input with
      | (.error escape, s) => ([], some escape, s)
      | (.ok response, s) =>
          let (responses, escape, s) := s.serveLines inputs
          (response :: responses, escape, s)

-- What is written for each line that is handled, and what serve_stdio raises in the end: an
-- Exception of the shutdown takes the place of what has ended the lines.
def serveStdio (inputs : List (Input κ)) (w : World κ) : List (Option Json) × Option Escape × Server κ :=
  let (responses, escape, s) := (Server.init : Server κ).serveLines py inputs
  let (raised, s) := s.shutdown w
  (responses, (raised.map .raised).or escape, s)

end Serve

end Milo.Host.Mcp
