import Milo.Rust
import Milo.Lib.Loop

namespace Milo.Engine.Validation

open Milo.Lib Milo.Rust

def ALLOWED_IMPORTS : List String :=
  ["gpio_set", "gpio_get", "delay_ms", "get_uptime_us", "i2c_transfer", "log_msg", "pwm_set",
    "adc_read", "spi_transfer", "uart_write", "uart_read", "get_param"]

structure ValidationResult where
  valid : Bool
  rejectedImports : List String
deriving DecidableEq, Repr

def readLeb128Loop : Bytes → UInt32 → Nat → Nat → UInt32 × Nat
  | [], result, _, pos => (result, pos)
  | byte :: data, result, shift, pos =>
      let result := result ||| ((byte &&& 0x7F).toUInt32 <<< UInt32.ofNat shift)
      if byte &&& 0x80 = 0 then (result, pos + 1)
      else if 35 ≤ shift + 7 then (result, pos + 1)
      else readLeb128Loop data result (shift + 7) (pos + 1)

def readLeb128U32 (data : Bytes) : UInt32 × Nat := readLeb128Loop data 0 0 0

-- Throughout, width is the number of bits of usize on the board.
section Parser

variable (width : Nat) (wasmBytes : Bytes)

-- A number at the cursor, and the cursor behind it.
def readNumber (pos : Nat) : Except Fault (UInt32 × Nat) := do
  let (value, bytesRead) := readLeb128U32 (← sliceFrom wasmBytes pos)
  return (value, add width pos bytesRead)

-- A length and that many bytes: the module name and the field name of an import.
def readName (pos : Nat) : Except Fault (String × Nat) := do
  let (len, pos) ← readNumber width wasmBytes pos
  let stop := add width pos len.toNat
  let name ← slice wasmBytes pos stop
  return ((fromUtf8 name).getD "", stop)

def skipDescriptor (kind : UInt8) (pos : Nat) : Except Fault Nat := do
  if kind = 0x00 then
    let (_, pos) ← readNumber width wasmBytes pos
    return pos
  else if kind = 0x01 then
    -- reftype, limits flag and minimum; a maximum is not skipped
    let (_, pos) ← readNumber width wasmBytes (add width pos 1)
    let (_, pos) ← readNumber width wasmBytes pos
    return pos
  else if kind = 0x02 then
    let (flags, pos) ← readNumber width wasmBytes pos
    let (_, pos) ← readNumber width wasmBytes pos
    if flags &&& 1 ≠ 0 then
      let (_, pos) ← readNumber width wasmBytes pos
      return pos
    else return pos
  else if kind = 0x03 then
    return add width (add width pos 1) 1
  else return pos

def importLoop : Nat → Nat → List String → Except Fault (List String)
  | 0, _, rejected => .ok rejected
  | numImports + 1, pos, rejected => do
      let (_, pos) ← readName width wasmBytes pos
      let (fieldName, pos) ← readName width wasmBytes pos
      let kind ← index wasmBytes pos
      let pos ← skipDescriptor width wasmBytes kind (add width pos 1)
      importLoop numImports pos
        (if kind = 0x00 ∧ !ALLOWED_IMPORTS.contains fieldName then rejected ++ [fieldName]
        else rejected)

def importSection (pos : Nat) : Except Fault ValidationResult := do
  let (numImports, pos) ← readNumber width wasmBytes pos
  let rejected ← importLoop width wasmBytes numImports.toNat pos []
  return { valid := rejected.isEmpty, rejectedImports := rejected }

-- Identifier, declared size and start of the content of the section at the cursor.
def sectionHeader (pos : Nat) : Except Fault (UInt8 × UInt32 × Nat) := do
  let sectionId ← index wasmBytes pos
  let (sectionSize, pos) ← readNumber width wasmBytes (add width pos 1)
  return (sectionId, sectionSize, pos)

def sectionBody (pos : Nat) : Flow Nat (Except Fault ValidationResult) :=
  if pos < wasmBytes.length then
    match sectionHeader width wasmBytes pos with
    | .error fault => .done (.error fault)
    | .ok (sectionId, sectionSize, pos) =>
        if sectionId = 2 then .done (importSection width wasmBytes pos)
        else .next (add width pos sectionSize.toNat)
  else .done (.ok { valid := true, rejectedImports := [] })

def MAGIC : Bytes := [0x00, 0x61, 0x73, 0x6D]

-- The section loop goes on only from cursors inside the payload, so one more
-- iteration than the payload has bytes decides whether it ever ends.
def validateWasmImports : Except Fault ValidationResult :=
  if wasmBytes.length < 8 then
    .ok { valid := false, rejectedImports := ["invalid wasm: too short"] }
  else if wasmBytes.take 4 ≠ MAGIC then
    .ok { valid := false, rejectedImports := ["invalid wasm: bad magic"] }
  else
    match loopFuel (sectionBody width wasmBytes) (wasmBytes.length + 1) 8 with
    | some result => result
    | none => .error .diverges

end Parser

end Milo.Engine.Validation
