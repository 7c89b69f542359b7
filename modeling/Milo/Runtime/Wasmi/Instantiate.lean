import Milo.Runtime.Wasmi.Instrs
import Milo.Runtime.Wasmi.InitExpr

-- What a module holds of its globals and data segments, and what an instance is given of them.
namespace Milo.Runtime.Wasmi

open Milo.Rust

-- The data segments as they are read.
inductive DataKind where
  | passive
  | active (memoryIndex : UInt32) (offsetExpr : List Operator)

structure Data where
  kind : DataKind
  data : Bytes

inductive DataSegment where
  | active (memoryIndex : UInt32) (offset : OpTree) (len : UInt32)
  | passive (bytes : Bytes)

-- The bytes of the active segments are behind each other in one vector.
structure DataSegments where
  segments : List DataSegment
  bytes : Bytes

namespace DataSegments

def empty : DataSegments := ⟨[], []⟩

def pushDataSegment (debugAssertions : Bool) (builder : DataSegments) (segment : Data) :
    Except Fault DataSegments :=
  match segment.kind with
  | .passive => .ok { builder with segments := builder.segments ++ [.passive segment.data] }
  | .active memoryIndex offsetExpr => do
      let offset ← ConstExpr.new debugAssertions offsetExpr
      if segment.data.length < 2 ^ 32 then
        .ok { segments := builder.segments ++ [.active memoryIndex offset (UInt32.ofNat segment.data.length)]
              bytes := builder.bytes ++ segment.data }
      else .error .panic

end DataSegments

inductive InitDataSegment where
  | active (memoryIndex : UInt32) (offset : OpTree) (bytes : Bytes)
  | passive (bytes : Bytes)

-- The iterator InitDataSegmentIter: it splits the bytes of an active segment off the others.
def InitDataSegment.next (bytes : Bytes) : DataSegment → Except Fault (InitDataSegment × Bytes)
  | .active memoryIndex offset len =>
      if len.toNat ≤ bytes.length then
        .ok (.active memoryIndex offset (bytes.take len.toNat), bytes.drop len.toNat)
      else .error .panic
  | .passive data => .ok (.passive data, bytes)

-- The globals that a module defines itself are behind those that it imports.
structure ModuleHeader where
  globals : List GlobalType
  lenImportedGlobals : Nat
  globalsInit : List OpTree
  dataSegments : DataSegments

-- A module as it is read.
structure WasmModule where
  importedGlobals : List GlobalType
  globals : List (GlobalType × List Operator)
  datas : List Data

def ModuleHeader.build (debugAssertions : Bool) (wasm : WasmModule) : Except Fault ModuleHeader := do
  let globalsInit ← wasm.globals.mapM fun global => ConstExpr.new debugAssertions global.2
  let dataSegments ← wasm.datas.foldlM (DataSegments.pushDataSegment debugAssertions) .empty
  return { globals := wasm.importedGlobals ++ wasm.globals.map Prod.fst
           lenImportedGlobals := wasm.importedGlobals.length
           globalsInit, dataSegments }

-- What a global.get is translated to: the constant or the function reference that an immutable
-- global of the module is known to hold, or an instruction that reads it.
inductive GlobalGet where
  | immediate (value : Val)
  | refFunc (functionIndex : UInt32)
  | instr (globalIndex : UInt32)

def Ref.ofUntyped (value : UntypedVal) : Ref := if h : value ≠ 0 then .val ⟨value, h⟩ else .null

-- A vector has no value without simd.
def withType (value : UntypedVal) : ValType → Except Fault Val
  | .i32 => .ok (.i32 value.toUInt32)
  | .i64 => .ok (.i64 value)
  | .f32 => .ok (.f32 value.toUInt32)
  | .f64 => .ok (.f64 value)
  | .funcRef => .ok (.funcRef (.ofUntyped value))
  | .externRef => .ok (.externRef (.ofUntyped value))
  | .v128 => .error .panic

-- The type and, of an internal global, the initial value.
def ModuleHeader.getGlobal (header : ModuleHeader) (index : UInt32) :
    Except Fault (GlobalType × Option OpTree) :=
  match header.globals[index.toNat]? with
  | none => .error .panic
  | some ty =>
      if index.toNat < header.lenImportedGlobals then .ok (ty, none)
      else
        match header.globalsInit[index.toNat - header.lenImportedGlobals]? with
        | some init => .ok (ty, some init)
        | none => .error .panic

def GlobalGet.of (index : UInt32) : GlobalType × Option OpTree → Except Fault GlobalGet
  | (⟨content, .const⟩, some init) =>
      match ConstExpr.evalConst init with
      | some value => return .immediate (← withType value content)
      | none =>
          match ConstExpr.funcref init with
          | some functionIndex => .ok (.refFunc functionIndex)
          | none => .ok (.instr index)
  | _ => .ok (.instr index)

def visitGlobalGet (header : ModuleHeader) (index : UInt32) : Except Fault GlobalGet := do
  GlobalGet.of index (← header.getGlobal index)

-- A function as it is referred to.
abbrev Func : Type := { bits : UInt64 // bits ≠ 0 }

-- An instance under construction. A data segment that was active has no bytes.
structure InstanceEntityBuilder (M : Nat) where
  memories : List (Fin M)
  globals : List Val
  funcs : List Func
  dataSegments : List (Option Bytes)

namespace InstanceEntityBuilder

variable {M : Nat} (builder : InstanceEntityBuilder M)

-- The globals and functions that the instance has up to now.
def context : EvalContext where
  getGlobal index := builder.globals[index.toNat]?
  getFunc index := (builder.funcs[index.toNat]?).map .val

-- It panics at a global or function that is not there.
def evalInitExpr (initExpr : OpTree) : Except Fault UntypedVal :=
  match initExpr.eval builder.context with
  | some value => .ok value
  | none => .error .panic

def extractGlobal (builder : InstanceEntityBuilder M) (global : GlobalType × OpTree) :
    Except Fault (InstanceEntityBuilder M) := do
  let value ← withType (← builder.evalInitExpr global.2) global.1.content
  return { builder with globals := builder.globals ++ [value] }

def extractGlobals (header : ModuleHeader) : Except Fault (InstanceEntityBuilder M) :=
  ((header.globals.drop header.lenImportedGlobals).zip header.globalsInit).foldlM extractGlobal builder

end InstanceEntityBuilder

-- The memories of the store and the instance, at the end or at the segment that does not fit.
structure Initialized (arch : Arch) (M : Nat) where
  result : Except MemoryError Unit
  memories : Fin M → Memory arch
  builder : InstanceEntityBuilder M

section

variable {arch : Arch} {M : Nat}

def Initialized.push (memories : Fin M → Memory arch) (builder : InstanceEntityBuilder M)
    (segment : Option Bytes) : Initialized arch M :=
  ⟨.ok (), memories, { builder with dataSegments := builder.dataSegments ++ [segment] }⟩

def writeSegment (memories : Fin M → Memory arch) (builder : InstanceEntityBuilder M) (memory : Fin M)
    (offset : UntypedVal) (bytes : Bytes) : Initialized arch M :=
  match arch.tryUsize offset.toNat with
  | none => ⟨.error .outOfBoundsAccess, memories, builder⟩
  | some offset =>
      match (memories memory).write offset bytes with
      | .error error => ⟨.error error, memories, builder⟩
      | .ok written => .push (Function.update memories memory written) builder none

def initializeSegment (memories : Fin M → Memory arch) (builder : InstanceEntityBuilder M) :
    InitDataSegment → Except Fault (Initialized arch M)
  | .active memoryIndex offset bytes =>
      match builder.memories[memoryIndex.toNat]? with
      | none => .error .panic
      | some memory => do .ok (writeSegment memories builder memory (← builder.evalInitExpr offset) bytes)
  | .passive bytes => .ok (.push memories builder (some bytes))

def initializeMemoryData (memories : Fin M → Memory arch) (builder : InstanceEntityBuilder M)
    (bytes : Bytes) : List DataSegment → Except Fault (Initialized arch M)
  | [] => .ok ⟨.ok (), memories, builder⟩
  | segment :: rest => do
      let (segment, bytes) ← InitDataSegment.next bytes segment
      let done ← initializeSegment memories builder segment
      match done.result with
      | .error _ => .ok done
      | .ok () => initializeMemoryData done.memories done.builder bytes rest

end

end Milo.Runtime.Wasmi
