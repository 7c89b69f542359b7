import Milo.Rust
import Milo.Lib.Loop

namespace Milo.Engine.Link

open Milo.Lib Milo.Rust

def OP_DISCOVERY : UInt8 := 0x01
def OP_BYTECODE_PUSH : UInt8 := 0x02
def OP_EXEC_RESULT : UInt8 := 0x03
def OP_STREAM_DATA : UInt8 := 0x04
def OP_STOP : UInt8 := 0x05
def OP_QUERY_STATUS : UInt8 := 0x06
def OP_STATUS_RESPONSE : UInt8 := 0x07
def OP_SET_PARAM : UInt8 := 0x08
def OP_HOT_SWAP : UInt8 := 0x09
def OP_SIGNED_PUSH : UInt8 := 0x0A
def OP_SIGNED_SWAP : UInt8 := 0x0B

def MAX_FRAME_LEN : Nat := 512 * 1024

structure Frame where
  opcode : UInt8
  payload : Bytes
deriving DecidableEq, Repr

inductive LinkError where
  | io (text : String)
  | unexpectedOpcode (expected got : UInt8)
  | connectionClosed
deriving DecidableEq, Repr

-- The value of u32::from_be_bytes as a usize.
def fromBeBytes (b0 b1 b2 b3 : UInt8) : Nat :=
  ((b0.toNat * 256 + b1.toNat) * 256 + b2.toNat) * 256 + b3.toNat

def toBeBytes (n : UInt32) : Bytes :=
  [(n >>> 24).toUInt8, (n >>> 16).toUInt8, (n >>> 8).toUInt8, n.toUInt8]

def Frame.serialize (frame : Frame) : Bytes :=
  frame.opcode :: (toBeBytes (UInt32.ofNat frame.payload.length) ++ frame.payload)

-- Filling a buffer of the given size from an input that arrives in chunks; none
-- when the input ends before the buffer is full.
def readExact : List Bytes → Nat → Option (Bytes × List Bytes)
  | input, 0 => some ([], input)
  | [], _ + 1 => none
  | chunk :: input, n + 1 =>
      if chunk.length ≤ n + 1 then
        match readExact input (n + 1 - chunk.length) with
        | none => none
        | some (got, rest) => some (chunk ++ got, rest)
      else some (chunk.take (n + 1), chunk.drop (n + 1) :: input)

-- What one call of a frame reader did: its result, none while it still waits for input
-- and where it panics, the payload buffer it sized from a length field, and the input left.
structure Reading where
  result : Option (Except LinkError Frame)
  allocated : Option Nat
  rest : List Bytes
  fault : Option Fault := none

-- The function read_frame over a std reader, which StdioTransport calls.
def readFrame (input : List Bytes) : Reading :=
  match readExact input 5 with
  | some ([opcode, b0, b1, b2, b3], rest) =>
      let len := fromBeBytes b0 b1 b2 b3
      if MAX_FRAME_LEN < len then
        { result := some (.error (.io (s!"frame payload {len} exceeds MAX_FRAME_LEN {MAX_FRAME_LEN}")))
          allocated := none
          rest := rest }
      else
        match readExact rest len with
        | none => { result := some (.error .connectionClosed), allocated := some len, rest := [] }
        | some (payload, rest) =>
            { result := some (.ok { opcode := opcode, payload := payload })
              allocated := some len
              rest := rest }
  | _ => { result := some (.error .connectionClosed), allocated := none, rest := [] }

-- How the two accumulating readers, the TCP server and the Pico loop, see the
-- head of their buffer.
inductive Head where
  | short
  | oversized
  | frame (frame : Frame) (rest : Bytes)
deriving DecidableEq, Repr

def bufferHead : Bytes → Head
  | opcode :: b0 :: b1 :: b2 :: b3 :: rest =>
      let len := fromBeBytes b0 b1 b2 b3
      if MAX_FRAME_LEN < len then .oversized
      else if rest.length < len then .short
      else .frame { opcode := opcode, payload := rest.take len } (rest.drop len)
  | _ => .short

theorem bufferHead_rest_lt {buf : Bytes} {frame : Frame} {rest : Bytes}
    (h : bufferHead buf = .frame frame rest) : rest.length < buf.length := by
  unfold bufferHead at h
  split at h
  · rename_i opcode b0 b1 b2 b3 tail
    dsimp only at h
    split_ifs at h
    obtain ⟨_, rfl⟩ := Head.frame.inj h
    simp only [List.length_drop, List.length_cons]
    omega
  · cases h

theorem bufferHead_payload_le {buf : Bytes} {frame : Frame} {rest : Bytes}
    (h : bufferHead buf = .frame frame rest) : frame.payload.length ≤ MAX_FRAME_LEN := by
  unfold bufferHead at h
  split at h
  · rename_i opcode b0 b1 b2 b3 tail
    dsimp only at h
    split_ifs at h
    obtain ⟨rfl, _⟩ := Head.frame.inj h
    simp only [List.length_take]
    omega
  · cases h

theorem header_cases {header : Bytes} (h : header.length = 5) :
    ∃ opcode b0 b1 b2 b3, header = [opcode, b0, b1, b2, b3] := by
  match header, h with
  | [opcode, b0, b1, b2, b3], _ => exact ⟨opcode, b0, b1, b2, b3, rfl⟩

theorem readExact_length {input : List Bytes} {n : Nat} {got : Bytes} {rest : List Bytes}
    (h : readExact input n = some (got, rest)) : got.length = n := by
  induction input generalizing n got rest with
  | nil =>
      cases n with
      | zero => obtain ⟨rfl, _⟩ := Prod.mk.inj (Option.some.inj h); rfl
      | succ n => cases h
  | cons chunk input ih =>
      cases n with
      | zero => obtain ⟨rfl, _⟩ := Prod.mk.inj (Option.some.inj h); rfl
      | succ n =>
          simp only [readExact] at h
          split_ifs at h with hle
          · split at h
            · cases h
            · rename_i got' rest' hr
              obtain ⟨rfl, _⟩ := Prod.mk.inj (Option.some.inj h)
              have := ih hr
              simp only [List.length_append]
              omega
          · obtain ⟨rfl, _⟩ := Prod.mk.inj (Option.some.inj h)
            simp only [List.length_take]
            omega

-- However the input is cut, what is read is its head and what is left its tail.
theorem readExact_flatten {input : List Bytes} {n : Nat} {got : Bytes} {rest : List Bytes}
    (h : readExact input n = some (got, rest)) : input.flatten = got ++ rest.flatten := by
  induction input generalizing n got rest with
  | nil =>
      cases n with
      | zero => obtain ⟨rfl, rfl⟩ := Prod.mk.inj (Option.some.inj h); rfl
      | succ n => cases h
  | cons chunk input ih =>
      cases n with
      | zero => obtain ⟨rfl, rfl⟩ := Prod.mk.inj (Option.some.inj h); rfl
      | succ n =>
          simp only [readExact] at h
          split_ifs at h with hle
          · split at h
            · cases h
            · rename_i got' rest' hr
              obtain ⟨rfl, rfl⟩ := Prod.mk.inj (Option.some.inj h)
              simp only [List.flatten_cons, ih hr, List.append_assoc]
          · obtain ⟨rfl, rfl⟩ := Prod.mk.inj (Option.some.inj h)
            simp only [List.flatten_cons, ← List.append_assoc, List.take_append_drop]

theorem readExact_eq_none {input : List Bytes} {n : Nat} (h : readExact input n = none) :
    input.flatten.length < n := by
  induction input generalizing n with
  | nil =>
      cases n with
      | zero => cases h
      | succ n => simp
  | cons chunk input ih =>
      cases n with
      | zero => cases h
      | succ n =>
          simp only [readExact] at h
          split_ifs at h with hle
          split at h
          · rename_i hr
            have := ih hr
            simp only [List.flatten_cons, List.length_append]
            omega
          · cases h

end Milo.Engine.Link
