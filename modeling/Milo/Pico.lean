import Milo.Engine.SingleCore
import Milo.MainLoop

namespace Milo.Pico

open Milo.Lib Milo.Rust Milo.Engine.Link Milo.Engine.Executor Milo.Engine.Validation Milo.Transport
open Milo.MainLoop

-- The fuel of a module on the Pico.
def FUEL : UInt64 := 500000000

-- What the loop of pico_entry has besides its frame buffer: the hardware, and as the
-- history how many modules it has executed and the bytes usb_write_all has written.
structure Receiver (H : Type) where
  hal : H
  executed : Nat
  written : Bytes
  -- set once a panic or an endless loop has ended the program
  fault : Option Fault

def Receiver.start {H : Type} (hal : H) : Receiver H :=
  { hal := hal, executed := 0, written := [], fault := none }

def unexpectedOpcodeJson (opcode : UInt8) : String :=
  "\x7b\"error\":\"unexpected opcode 0x" ++ hex 2 opcode.toNat ++ "\"\x7d"

-- The loop has its own copy of this text.
def rejectedJson (rejected : List String) : String :=
  "\x7b\"ok\":false,\"error\":\"rejected imports: " ++
    jsonEscape (String.intercalate ", " rejected) ++ "\"\x7d"

section Loop

variable {H : Type} (manifestJson : String) (width : Nat) (runtime : InlineRuntime H)

-- The serialized response, written by usb_write_all.
def Receiver.write (p : Receiver H) (frame : Frame) : Receiver H :=
  { p with written := p.written ++ frame.serialize }

def execute (p : Receiver H) (payload : Bytes) : Receiver H :=
  let (hal, outcome) := runtime p.executed (some FUEL) p.hal payload
  { p with hal := hal, executed := p.executed + 1 }.write (resultFrame (.ofRun outcome))

-- The part of the parser loop behind the parsing.
def handle (p : Receiver H) (frame : Frame) : Except Fault (Receiver H) :=
  if frame.opcode = OP_DISCOVERY then
    .ok (p.write { opcode := OP_DISCOVERY, payload := intoBytes manifestJson })
  else if frame.opcode ≠ OP_BYTECODE_PUSH then
    .ok (p.write (execResultFrame (unexpectedOpcodeJson frame.opcode)))
  else do
    let v ← validateWasmImports width frame.payload
    if !v.valid then return p.write (execResultFrame (rejectedJson v.rejectedImports))
    return execute runtime p frame.payload

-- One turn of the parser loop over the frame buffer.
def parse (s : Bytes × Receiver H) : Flow (Bytes × Receiver H) (Bytes × Receiver H) :=
  match bufferHead s.1 with
  | .oversized => .done ([], s.2)
  | .short => .done s
  | .frame frame rest =>
      match handle manifestJson width runtime s.2 frame with
      | .ok p => .next (rest, p)
      | .error fault => .done (rest, { s.2 with fault := some fault })

-- The body of the main loop for one USB read.
def receive (s : Bytes × Receiver H) (packet : Packet) : Bytes × Receiver H :=
  match s.2.fault with
  | some _ => s
  | none =>
      let s := (s.1 ++ packet.bytes, s.2)
      (loopFuel (parse manifestJson width runtime) (s.1.length + 1) s).getD s

def run (s : Bytes × Receiver H) (packets : List Packet) : Bytes × Receiver H :=
  packets.foldl (receive manifestJson width runtime) s

end Loop

end Milo.Pico
