import Milo.Engine.Validation
import Mathlib.Logic.Function.Basic

namespace Milo.Host

open Milo.Engine.Validation (MAGIC)

-- RUST_LIB_TEMPLATE up to the place of the body.
def RUST_LIB_HEAD : String :=
  "#![no_std]\n\n" ++
  "#[panic_handler]\n" ++
  "fn panic(_: &core::panic::PanicInfo) -> ! \x7b loop \x7b\x7d \x7d\n\n" ++
  "unsafe extern \"C\" \x7b\n" ++
  "    fn gpio_set(pin: u32, state: u32);\n" ++
  "    fn gpio_get(pin: u32) -> u32;\n" ++
  "    fn delay_ms(ms: u32);\n" ++
  "    fn get_uptime_us() -> u64;\n" ++
  "    fn i2c_transfer(addr: u32, tx_ptr: u32, tx_len: u32, rx_ptr: u32, rx_len: u32) -> i32;\n" ++
  "    fn log_msg(ptr: u32, len: u32);\n" ++
  "    fn pwm_set(channel: u32, duty_0_10000: u32);\n" ++
  "    fn adc_read(channel: u32) -> u32;\n" ++
  "    fn spi_transfer(bus: u32, tx_ptr: u32, tx_len: u32, rx_ptr: u32, rx_len: u32) -> i32;\n" ++
  "    fn uart_write(bus: u32, ptr: u32, len: u32) -> i32;\n" ++
  "    fn uart_read(bus: u32, ptr: u32, len_max: u32, timeout_ms: u32) -> i32;\n" ++
  "    fn get_param(slot: u32) -> u32;\n" ++
  "\x7d\n\n"

def libRs (body : String) : String := RUST_LIB_HEAD ++ body ++ "\n"

-- What is called from outside: cargo build, which gives its stderr or the module built
-- from the src/lib.rs it finds, and the hexdigest of sha256.
structure Toolchain where
  cargo : Option String → Except String Bytes
  sha256 : String → String

inductive CompileError where
  | runtimeError (stderr : String)
  | assertionError (text : String)
  | fileNotFoundError
deriving DecidableEq

-- The calls of compile_rust_to_wasm, each in its process and with its body.
structure Calls (P ι : Type) where
  process : ι → P
  body : ι → String

-- The next file step of a call.
inductive Pc where
  | acquire
  | lookup
  | write
  | build
  | read
  | writeTmp (wasmBytes : Bytes)
  | rename (wasmBytes : Bytes)
  | returned (outcome : Except CompileError Bytes)
deriving DecidableEq

-- The files under the cache root, which all processes share: src/lib.rs and
-- milo_driver.wasm of the warm project, and by their keys the cached modules and the .tmp
-- files. Each process has its own lock.
structure Machine (P ι : Type) where
  lib : Option String
  target : Option Bytes
  cache : String → Option Bytes
  tmp : String → Option Bytes
  lock : P → Option ι
  pc : ι → Pc

namespace Machine

variable {P ι : Type} [DecidableEq P] [DecidableEq ι] (tools : Toolchain) (calls : Calls P ι)

def start : Machine P ι where
  lib := none
  target := none
  cache := fun _ => none
  tmp := fun _ => none
  lock := fun _ => none
  pc := fun _ => .acquire

def source (i : ι) : String := libRs (calls.body i)

def key (i : ι) : String := tools.sha256 (source calls i)

def goto (m : Machine P ι) (i : ι) (pc : Pc) : Machine P ι :=
  { m with pc := Function.update m.pc i pc }

-- The end of the with block, by a return or an exception.
def finish (m : Machine P ι) (i : ι) (outcome : Except CompileError Bytes) : Machine P ι :=
  { m.goto i (.returned outcome) with lock := Function.update m.lock (calls.process i) none }

-- The next file step of a call, while others are at theirs.
def step (m : Machine P ι) (i : ι) : Machine P ι :=
  match m.pc i with
  | .acquire =>
      match m.lock (calls.process i) with
      | none => { m.goto i .lookup with lock := Function.update m.lock (calls.process i) (some i) }
      | some _ => m
  | .lookup =>
      match m.cache (key tools calls i) with
      | some wasmBytes => m.finish calls i (.ok wasmBytes)
      | none => m.goto i .write
  | .write => { m.goto i .build with lib := some (source calls i) }
  | .build =>
      match tools.cargo m.lib with
      | .error stderr => m.finish calls i (.error (.runtimeError stderr))
      | .ok wasmBytes => { m.goto i .read with target := some wasmBytes }
  | .read =>
      match m.target with
      | none => m.finish calls i (.error .fileNotFoundError)
      | some wasmBytes =>
          if wasmBytes.take 4 = MAGIC then m.goto i (.writeTmp wasmBytes)
          else m.finish calls i (.error (.assertionError "Compiler produced invalid wasm"))
  | .writeTmp wasmBytes =>
      { m.goto i (.rename wasmBytes) with
        tmp := Function.update m.tmp (key tools calls i) (some wasmBytes) }
  | .rename wasmBytes =>
      match m.tmp (key tools calls i) with
      | none => m.finish calls i (.error .fileNotFoundError)
      | some content =>
          { m.finish calls i (.ok wasmBytes) with
            tmp := Function.update m.tmp (key tools calls i) none
            cache := Function.update m.cache (key tools calls i) (some content) }
  | .returned _ => m

def run (schedule : List ι) : Machine P ι := schedule.foldl (step tools calls) start

end Machine

end Milo.Host
