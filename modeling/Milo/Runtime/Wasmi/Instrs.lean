import Milo.Runtime.Wasmi.Access
import Milo.Runtime.Wasmi.Memory

namespace Milo.Runtime.Wasmi

open Milo.Lib Milo.Rust

-- The memories and data segments of a store. A dropped segment, and one that was active, has
-- no bytes.
structure Store (arch : Arch) (L : Type) (M D : Nat) where
  memories : Fin M → Memory arch
  datas : Fin D → Option Bytes
  fuel : Fuel
  limiter : Option L

-- Which of them the memories and data segments of a module are.
structure Instance (m d M D : Nat) where
  memories : Fin m → Fin M
  datas : Fin d → Fin D

-- The instructions on memories, with the values of their slots. Growing one also says whether
-- the allocator finds the room.
inductive Op (m d : Nat) where
  | load (memory : Fin m) (bytes width : Nat) (extend : Extend) (ptr offset : UInt64)
  | store (memory : Fin m) (bytes width : Nat) (ptr offset : UInt64) (value : Scalar width)
  | memorySize (memory : Fin m)
  | memoryGrow (memory : Fin m) (delta : UInt64) (allocs : Bool)
  | memoryCopy (dstMemory srcMemory : Fin m) (dst src len : UInt64)
  | memoryFill (memory : Fin m) (dst : UInt64) (value : UInt8) (len : UInt64)
  | memoryInit (memory : Fin m) (data : Fin d) (dst : UInt64) (src len : UInt32)
  | dataDrop (data : Fin d)

inductive Reply where
  | unit
  | size (pages : Nat)
  | value (width : Nat) (value : Scalar width)

variable {arch : Arch} {L : Type} {m d M D : Nat}

namespace Memory

-- A memory with its bytes written in place, so that they are as many as before.
def withData (memory : Memory arch) (data : Bytes) : Memory arch :=
  if h : data.length = memory.data.length then { memory with bytes := memory.bytes.replace data h }
  else memory

end Memory

namespace Store

variable (store : Store arch L M D)

def setMemory (entity : Fin M) (memory : Memory arch) : Store arch L M D :=
  { store with memories := Function.update store.memories entity memory }

-- The end of a bulk instruction, its bounds checked: it is charged and done.
def bulk (entity : Fin M) (dst : Nat) (bytes : Bytes) : Except Error Reply × Store arch L M D :=
  match store.fuel.consumeFuelIf fun costs => costs.fuelForCopyingBytes (UInt64.ofNat bytes.length) with
  | .error error => (.error (.fuel error), store)
  | .ok fuel =>
      let memory := store.memories entity
      (.ok .unit, { store.setMemory entity (memory.withData (overwrite memory.data dst bytes)) with fuel })

def trap (code : TrapCode) : Except Error Reply × Store arch L M D := (.error (.trapCode code), store)

end Store

section Execute

variable (limits : ResourceLimiter L) (module : Instance m d M D) (store : Store arch L M D)

def executeLoad (memory : Fin m) (bytes width : Nat) (extend : Extend) (ptr offset : UInt64) :
    Except Error Reply × Store arch L M D :=
  match loadExtend arch bytes width extend (store.memories (module.memories memory)).data ptr offset with
  | .ok value => (.ok (.value width value), store)
  | .error code => store.trap code

def executeStore {width : Nat} (memory : Fin m) (bytes : Nat) (ptr offset : UInt64) (value : Scalar width) :
    Except Error Reply × Store arch L M D :=
  let entity := module.memories memory
  match storeWrap arch bytes (store.memories entity).data ptr offset value with
  | .ok data => (.ok .unit, store.setMemory entity ((store.memories entity).withData data))
  | .error code => store.trap code

def executeMemorySize (memory : Fin m) : Except Error Reply × Store arch L M D :=
  (.ok (.size (store.memories (module.memories memory)).size), store)

-- What memory.grow makes of the outcome: -1, a trap or a panic.
def growReply (ty : MemoryType) : Except MemoryError Nat → Except Fault (Except Error Reply)
  | .ok pages => .ok (.ok (.size pages))
  | .error .outOfBoundsGrowth | .error .outOfSystemMemory =>
      .ok (.ok (.size (if ty.indexType.is64 then 2 ^ 64 - 1 else 2 ^ 32 - 1)))
  | .error (.outOfFuel requiredFuel) => .ok (.error (.resumableOutOfFuel requiredFuel))
  | .error .resourceLimiterDeniedAllocation => .ok (.error (.trapCode .growthOperationLimited))
  | .error _ => .error .panic

def executeMemoryGrow (memory : Fin m) (delta : UInt64) (allocs : Bool) :
    Except Fault (Except Error Reply × Store arch L M D) :=
  if delta = 0 then .ok (executeMemorySize module store memory)
  else do
    let entity := module.memories memory
    let growth ← (store.memories entity).grow limits delta allocs (some store.fuel) store.limiter
    let reply ← growReply (store.memories entity).ty growth.result
    .ok (reply, { store.setMemory entity growth.memory with
                    fuel := growth.fuel.getD store.fuel, limiter := growth.limiter })

-- The three operands of a bulk instruction as indices.
def indices (arch : Arch) (dst src len : UInt64) : Option (Nat × Nat × Nat) := do
  let dst ← arch.tryUsize dst.toNat
  let src ← arch.tryUsize src.toNat
  let len ← arch.tryUsize len.toNat
  some (dst, src, len)

-- The source and the target are checked, whatever the length. The bytes of two memories are
-- only those of two entities: a pair of the same one is not resolved.
def executeMemoryCopy (dstMemory srcMemory : Fin m) (dst src len : UInt64) :
    Except Fault (Except Error Reply × Store arch L M D) :=
  match indices arch dst src len with
  | none => .ok (store.trap .memoryOutOfBounds)
  | some (dst, src, len) =>
      if srcMemory ≠ dstMemory ∧ module.memories srcMemory = module.memories dstMemory then .error .panic
      else
        match window (store.memories (module.memories srcMemory)).data src len,
            window (store.memories (module.memories dstMemory)).data dst len with
        | some bytes, some _ => .ok (store.bulk (module.memories dstMemory) dst bytes)
        | _, _ => .ok (store.trap .memoryOutOfBounds)

def executeMemoryFill (memory : Fin m) (dst : UInt64) (value : UInt8) (len : UInt64) :
    Except Error Reply × Store arch L M D :=
  match indices arch dst 0 len with
  | none => store.trap .memoryOutOfBounds
  | some (dst, _, len) =>
      match window (store.memories (module.memories memory)).data dst len with
      | some _ => store.bulk (module.memories memory) dst (List.replicate len value)
      | none => store.trap .memoryOutOfBounds

def executeMemoryInit (memory : Fin m) (data : Fin d) (dst : UInt64) (src len : UInt32) :
    Except Error Reply × Store arch L M D :=
  match indices arch dst src.toUInt64 len.toUInt64 with
  | none => store.trap .memoryOutOfBounds
  | some (dst, src, len) =>
      match window (store.memories (module.memories memory)).data dst len,
          window ((store.datas (module.datas data)).getD []) src len with
      | some _, some bytes => store.bulk (module.memories memory) dst bytes
      | _, _ => store.trap .memoryOutOfBounds

def executeDataDrop (data : Fin d) : Except Error Reply × Store arch L M D :=
  (.ok .unit, { store with datas := Function.update store.datas (module.datas data) none })

def execute : Op m d → Except Fault (Except Error Reply × Store arch L M D)
  | .load memory bytes width extend ptr offset =>
      .ok (executeLoad module store memory bytes width extend ptr offset)
  | .store memory bytes _ ptr offset value => .ok (executeStore module store memory bytes ptr offset value)
  | .memorySize memory => .ok (executeMemorySize module store memory)
  | .memoryGrow memory delta allocs => executeMemoryGrow limits module store memory delta allocs
  | .memoryCopy dstMemory srcMemory dst src len =>
      executeMemoryCopy module store dstMemory srcMemory dst src len
  | .memoryFill memory dst value len => .ok (executeMemoryFill module store memory dst value len)
  | .memoryInit memory data dst src len => .ok (executeMemoryInit module store memory data dst src len)
  | .dataDrop data => .ok (executeDataDrop module store data)

-- The instructions of a run, up to the first that traps.
def run (store : Store arch L M D) : List (Op m d) → Except Fault (List Reply × Option Error × Store arch L M D)
  | [] => .ok ([], none, store)
  | op :: ops => do
      match ← execute limits module store op with
      | (.error error, store) => .ok ([], some error, store)
      | (.ok reply, store) =>
          let (replies, ending, store) ← run store ops
          .ok (reply :: replies, ending, store)

end Execute

end Milo.Runtime.Wasmi
