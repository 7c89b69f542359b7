import Mathlib.Data.Int.Notation
import Mathlib.Data.List.Basic

namespace Milo.Host.Mcp

-- A JSON value as json.loads gives it, a float by its repr. Of members with one key the
-- last one counts.
inductive Json where
  | null
  | bool (b : Bool)
  | int (n : ℤ)
  | float (repr : String)
  | str (s : String)
  | array (elements : List Json)
  | object (members : List (String × Json))

namespace Json

def typeName : Json → String
  | null => "NoneType"
  | bool _ => "bool"
  | int _ => "int"
  | float _ => "float"
  | str _ => "str"
  | array _ => "list"
  | object _ => "dict"

def truthy : Json → Bool
  | null => false
  | bool b => b
  | int n => n ≠ 0
  | float repr => repr ≠ "0.0" && repr ≠ "-0.0"
  | str s => s ≠ ""
  | array elements => !elements.isEmpty
  | object members => !members.isEmpty

def str? : Json → Option String
  | str s => some s
  | _ => none

def hashable : Json → Bool
  | array _ => false
  | object _ => false
  | _ => true

mutual

-- How deep a value is nested.
def depth : Json → ℕ
  | array elements => depthElements elements + 1
  | object members => depthMembers members + 1
  | _ => 0

def depthElements : List Json → ℕ
  | [] => 0
  | element :: elements => max element.depth (depthElements elements)

def depthMember : String × Json → ℕ
  | (_, value) => value.depth

def depthMembers : List (String × Json) → ℕ
  | [] => 0
  | member :: members => max (depthMember member) (depthMembers members)

end

end Json

theorem str?_eq_some_iff (value : Json) (s : String) : value.str? = some s ↔ value = .str s := by
  cases value <;> simp [Json.str?]

-- A dict: `request.get(key)`.
def get (members : List (String × Json)) (key : String) : Option Json := members.reverse.lookup key

-- An Exception.
structure Raised where
  name : String
  text : String
deriving DecidableEq

-- What an expression raises.
inductive Escape where
  | attributeError (text : String)
  | typeError (text : String)
  | loadsError
  | recursionError
  | raised (raised : Raised)
deriving DecidableEq

-- The members of a value that is used as a dict.
def asDict : Json → Except Escape (List (String × Json))
  | .object members => .ok members
  | value => .error (.attributeError s!"'{value.typeName}' object has no attribute 'get'")

-- f"{value}" and json.dumps(value, indent=2), with how deep a value may be nested for
-- json.dumps with and without the indent, which is enough for what the server makes itself.
structure Python where
  format : Json → String
  dumps : Json → String
  indentLevels : ℕ
  levels : ℕ
  enough : 8 ≤ indentLevels ∧ 8 ≤ levels

def Python.dumpsIndent (py : Python) (value : Json) : Except Escape String :=
  if value.depth ≤ py.indentLevels then .ok (py.dumps value) else .error .recursionError

def PROTOCOL_VERSION : String := "2024-11-05"

def SERVER_INFO : Json := .object [("name", .str "milo"), ("version", .str "0.9.0")]

def ofType (type : String) : Json := .object [("type", .str type)]

def described (type description : String) : Json :=
  .object [("type", .str type), ("description", .str description)]

def _DEVICE_ARG : Json := described "string" "Registered device name"

structure Tool where
  name : String
  description : String
  properties : List (String × Json)
  required : Option (List String)

def MCP_TOOLS : List Tool := [
  { name := "milo_spawn_sim"
    description :=
      "Launch a new EMULATED MILO device (real receiver runtime, simulated " ++
      "physics) and register it. Profiles: drone (quadcopter), conveyor (belt), " ++
      "oven (reflow), arm (3-joint). Use this to stand up a fleet with no hardware."
    properties := [
      ("profile", .object [("type", .str "string"),
        ("enum", .array [.str "drone", .str "conveyor", .str "oven", .str "arm"])]),
      ("name", described "string" "Optional device name"),
      ("telemetry_path", described "string" "Optional JSONL telemetry file")]
    required := some ["profile"] },
  { name := "milo_connect_tcp"
    description :=
      "Register a MILO device reachable over TCP (Wi-Fi receiver or a " ++
      "manually-started emulator)."
    properties := [("name", ofType "string"), ("host", ofType "string"), ("port", ofType "integer")]
    required := some ["name", "port"] },
  { name := "milo_connect_serial"
    description := "Register a MILO device on a USB-serial port (real ESP32-C3 / Pico hardware)."
    properties := [
      ("name", ofType "string"),
      ("port", described "string" "e.g. /dev/cu.usbmodem101"),
      ("baud", ofType "integer")]
    required := some ["name", "port"] },
  { name := "milo_disconnect"
    description := "Unregister a device; if it was spawned by milo_spawn_sim, stop its process."
    properties := [("device", _DEVICE_ARG)]
    required := some ["device"] },
  { name := "milo_devices"
    description :=
      "List all registered MILO devices with their hardware manifests " ++
      "(pins, buses, ADC channels, memory, wasm limits)."
    properties := []
    required := none },
  { name := "milo_push"
    description :=
      "Compile a Rust `run_logic` body to WebAssembly and run it on a device, " ++
      "waiting for the result. Use only the 12 MILO syscalls (gpio_set, gpio_get, " ++
      "delay_ms, get_uptime_us, i2c_transfer, spi_transfer, uart_write, uart_read, " ++
      "pwm_set, adc_read, log_msg, get_param). Read the device manifest first to " ++
      "pick valid pins/channels."
    properties := [
      ("device", _DEVICE_ARG),
      ("code", described "string"
        ("Rust source: a `#[unsafe(no_mangle)] pub " ++
          "extern \"C\" fn run_logic() \x7b ... \x7d` plus any helpers. No std/alloc.")),
      ("timeout", ofType "number")]
    required := some ["device", "code"] },
  { name := "milo_push_signed"
    description :=
      "Like milo_push but Ed25519-signs the module first — required by receivers " ++
      "provisioned with a trusted key (MILO_REQUIRE_SIGNED). Uses MILO_SIGNING_KEY / " ++
      "~/.milo/signing.key unless a signing_key is passed."
    properties := [
      ("device", _DEVICE_ARG),
      ("code", ofType "string"),
      ("signing_key", described "string" "Optional private key hex"),
      ("timeout", ofType "number")]
    required := some ["device", "code"] },
  { name := "milo_hot_swap"
    description :=
      "Stop the running module and immediately start new code in its place — live " ++
      "firmware replacement with no reboot. Ideal for in-field repair/adaptation."
    properties := [
      ("device", _DEVICE_ARG), ("code", ofType "string"), ("timeout", ofType "number")]
    required := some ["device", "code"] },
  { name := "milo_set_param"
    description :=
      "Write a runtime parameter slot (0-7). A running module reads it via " ++
      "get_param(slot) on its next loop — retask a device (or a whole fleet, one " ++
      "call each) without recompiling. Slot 7 is reserved by the sim for fault " ++
      "injection."
    properties := [
      ("device", _DEVICE_ARG), ("slot", ofType "integer"), ("value", ofType "integer")]
    required := some ["device", "slot", "value"] },
  { name := "milo_query"
    description :=
      "Query device execution status (idle/running/completed/stopped). Pass " ++
      "device='all' for the whole fleet."
    properties := [("device", ofType "string")]
    required := none },
  { name := "milo_stop"
    description := "Stop the currently running module on a device."
    properties := [("device", _DEVICE_ARG)]
    required := some ["device"] }]

def Tool.inputSchema (t : Tool) : Json :=
  .object ([("type", .str "object"), ("properties", .object t.properties)] ++
    (t.required.map fun names => ("required", .array (names.map .str))).toList)

def Tool.toJson (t : Tool) : Json :=
  .object [("name", .str t.name), ("description", .str t.description),
    ("inputSchema", t.inputSchema)]

-- The names under which handlers() has a tool.
def HANDLERS : List String := [
  "milo_spawn_sim", "milo_connect_tcp", "milo_connect_serial", "milo_disconnect", "milo_devices",
  "milo_push", "milo_push_signed", "milo_hot_swap", "milo_set_param", "milo_query", "milo_stop"]

theorem tools_have_handlers : MCP_TOOLS.map (·.name) = HANDLERS := rfl

theorem required_described : ∀ tool ∈ MCP_TOOLS, ∀ name ∈ tool.required.getD [],
    name ∈ tool.properties.map (·.1) := by decide

-- What a tool comes to: a value, or an Exception by its name and text.
inductive Outcome where
  | returned (result : Json)
  | raised (name text : String)

-- What the tools would come to at a call, by their names and arguments.
abbrev Tools := String → Json → Outcome

def orEmpty (arguments : Json) : Json := if arguments.truthy then arguments else .object []

def errorResult (text : String) : Json := .object [("error", .str text)]

section Protocol

variable (py : Python) (tools : Tools)

def callTool (name arguments : Json) : Except Escape (Json × Bool) :=
  if name.hashable then
    match name.str?.filter (· ∈ HANDLERS) with
    | none => .ok (errorResult s!"unknown tool: {py.format name}", true)
    | some handler =>
        match tools handler (orEmpty arguments) with
        | .raised error text => .ok (errorResult s!"{error}: {text}", true)
        | .returned result => do
            let members ← asDict result
            return (result, ((get members "error").map (·.truthy)).getD false)
  else .error (.typeError s!"unhashable type: '{name.typeName}'")

def _ok (reqId result : Json) : Json :=
  .object [("jsonrpc", .str "2.0"), ("id", reqId), ("result", result)]

def methodNotFound (reqId method : Json) : Json :=
  .object [("jsonrpc", .str "2.0"), ("id", reqId),
    ("error", .object [("code", .int (-32601)),
      ("message", .str s!"unknown method: {py.format method}")])]

def callResult (text : String) (isError : Bool) : Json :=
  .object [
    ("content", .array [.object [("type", .str "text"), ("text", .str text)]]),
    ("isError", .bool isError)]

section Handle

-- What the tools change, and call_tool.
variable {σ : Type} (s : σ) (call : Json → Json → Except Escape (Json × Bool) × σ)

def toolsCall (members : List (String × Json)) (reqId : Json) : Except Escape (Option Json) × σ :=
  match asDict ((get members "params").getD (.object [])) with
  | .error escape => (.error escape, s)
  | .ok params =>
      let (called, s) :=
        call ((get params "name").getD (.str "")) ((get params "arguments").getD (.object []))
      (do
        let (result, isError) ← called
        let text ← py.dumpsIndent result
        return some (_ok reqId (callResult text isError)), s)

def unknownMethod (reqId method : Json) : Option Json :=
  match reqId with
  | .null => none
  | _ => some (methodNotFound py reqId method)

def handleRequest (request : Json) : Except Escape (Option Json) × σ :=
  match asDict request with
  | .error escape => (.error escape, s)
  | .ok members =>
      let method := (get members "method").getD (.str "")
      let reqId := (get members "id").getD .null
      if method.str? = some "initialize" then
        (.ok (some (_ok reqId (.object [
          ("protocolVersion", .str PROTOCOL_VERSION),
          ("capabilities", .object [("tools", .object [("listChanged", .bool false)])]),
          ("serverInfo", SERVER_INFO)]))), s)
      else if method.str? = some "notifications/initialized" ∨ method.str? = some "initialized" then
        (.ok none, s)
      else if method.str? = some "ping" then (.ok (some (_ok reqId (.object []))), s)
      else if method.str? = some "tools/list" then
        (.ok (some (_ok reqId (.object [("tools", .array (MCP_TOOLS.map (·.toJson)))]))), s)
      else if method.str? = some "tools/call" then toolsCall py s call members reqId
      else (.ok (unknownMethod py reqId method), s)

end Handle

-- The response as it is written: stdout.write(json.dumps(response) + "\n").
def written : Option Json → Except Escape (Option Json)
  | none => .ok none
  | some response => if response.depth ≤ py.levels then .ok (some response) else .error .recursionError

end Protocol

-- A line of the input: blank, no JSON, refused by json.loads in another way (nested too
-- deep, or an integer of too many digits), or a value.
inductive Line where
  | blank
  | invalid
  | refused
  | value (request : Json)

end Milo.Host.Mcp
