import Milo.Runtime.Wasmi.Instrs.Run

-- The instructions as WebAssembly defines them: byte by byte, at addresses that are numbers.
namespace Milo.Runtime.Wasmi

open Milo.Lib Milo.Rust

variable {arch : Arch} {L : Type} {m d M D : Nat}

structure Linear (M D : Nat) where
  memories : Fin M → Bytes
  datas : Fin D → Bytes

namespace Linear

variable (linear : Linear M D)

def setMemory (entity : Fin M) (bytes : Bytes) : Linear M D :=
  { linear with memories := Function.update linear.memories entity bytes }

-- The bytes of the memories and segments that the indices of a module stand for.
def memory (module : Instance m d M D) (index : Fin m) : Bytes := linear.memories (module.memories index)

def data (module : Instance m d M D) (index : Fin d) : Bytes := linear.datas (module.datas index)

end Linear

-- Where an instruction does not trap.
def Op.InBounds (module : Instance m d M D) (linear : Linear M D) : Op m d → Prop
  | .load index bytes _ _ ptr offset | .store index bytes _ ptr offset _ =>
      ptr.toNat + offset.toNat + bytes ≤ (linear.memory module index).length
  | .memoryCopy dstIndex srcIndex dst src len =>
      src.toNat + len.toNat ≤ (linear.memory module srcIndex).length ∧
        dst.toNat + len.toNat ≤ (linear.memory module dstIndex).length
  | .memoryFill index dst _ len => dst.toNat + len.toNat ≤ (linear.memory module index).length
  | .memoryInit index data dst src len =>
      dst.toNat + len.toNat ≤ (linear.memory module index).length ∧
        src.toNat + len.toNat ≤ (linear.data module data).length
  | _ => True

-- What an instruction does that does not trap. A copy goes up where its target is not behind its
-- source, so that it reads no byte that it has written. A growth may fail at any time.
inductive Exec (module : Instance m d M D) (types : Fin M → MemoryType) (linear : Linear M D) :
    Op m d → Reply → Linear M D → Prop where
  | load {index : Fin m} {bytes width : Nat} {extend : Extend} {ptr offset : UInt64} {read : Bytes}
      (h : window (linear.memory module index) (ptr.toNat + offset.toNat) bytes = some read) :
      Exec module types linear (.load index bytes width extend ptr offset)
        (.value width (extendInto width extend (Scalar.fromLeBytes bytes read))) linear
  | store {index : Fin m} {bytes width : Nat} {ptr offset : UInt64} {value : Scalar width} {written : Bytes}
      (h : putAll (linear.memory module index) (ptr.toNat + offset.toNat)
        (wrapInto bytes value).intoLeBytes 0 bytes = some written) :
      Exec module types linear (.store index bytes width ptr offset value) .unit
        (linear.setMemory (module.memories index) written)
  | size {index : Fin m} {pages : Nat}
      (h : (linear.memory module index).length = pages * (types (module.memories index)).pageSize) :
      Exec module types linear (.memorySize index) (.size pages) linear
  | grow {index : Fin m} {delta : UInt64} {allocs : Bool} {pages : Nat}
      (h : (linear.memory module index).length = pages * (types (module.memories index)).pageSize)
      (habsolute : pages + delta.toNat ≤ (types (module.memories index)).absoluteMax)
      (hmaximum : ∀ max ∈ (types (module.memories index)).maximum, pages + delta.toNat ≤ max.toNat) :
      Exec module types linear (.memoryGrow index delta allocs) (.size pages)
        (linear.setMemory (module.memories index) (linear.memory module index ++
          List.replicate (delta.toNat * (types (module.memories index)).pageSize) 0))
  | growFailed {index : Fin m} {delta : UInt64} {allocs : Bool} :
      Exec module types linear (.memoryGrow index delta allocs)
        (.size (if (types (module.memories index)).indexType.is64 then 2 ^ 64 - 1 else 2 ^ 32 - 1))
        linear
  | copyUp {dstIndex srcIndex : Fin m} {dst src len : UInt64} {written : Bytes}
      (hsame : module.memories srcIndex = module.memories dstIndex) (hdown : dst ≤ src)
      (h : moveUp (linear.memory module dstIndex) dst.toNat src.toNat len.toNat = some written) :
      Exec module types linear (.memoryCopy dstIndex srcIndex dst src len) .unit
        (linear.setMemory (module.memories dstIndex) written)
  | copyDown {dstIndex srcIndex : Fin m} {dst src len : UInt64} {written : Bytes}
      (hsame : module.memories srcIndex = module.memories dstIndex) (hup : src < dst)
      (h : moveDown (linear.memory module dstIndex) dst.toNat src.toNat len.toNat = some written) :
      Exec module types linear (.memoryCopy dstIndex srcIndex dst src len) .unit
        (linear.setMemory (module.memories dstIndex) written)
  | copyAcross {dstIndex srcIndex : Fin m} {dst src len : UInt64} {written : Bytes}
      (hother : module.memories srcIndex ≠ module.memories dstIndex)
      (h : putAll (linear.memory module dstIndex) dst.toNat (linear.memory module srcIndex) src.toNat
        len.toNat = some written) :
      Exec module types linear (.memoryCopy dstIndex srcIndex dst src len) .unit
        (linear.setMemory (module.memories dstIndex) written)
  | fill {index : Fin m} {dst len : UInt64} {value : UInt8} {written : Bytes}
      (h : putAll (linear.memory module index) dst.toNat (List.replicate len.toNat value) 0 len.toNat =
        some written) :
      Exec module types linear (.memoryFill index dst value len) .unit
        (linear.setMemory (module.memories index) written)
  | init {index : Fin m} {data : Fin d} {dst : UInt64} {src len : UInt32} {written : Bytes}
      (h : putAll (linear.memory module index) dst.toNat (linear.data module data) src.toNat len.toNat =
        some written) :
      Exec module types linear (.memoryInit index data dst src len) .unit
        (linear.setMemory (module.memories index) written)
  | drop {data : Fin d} :
      Exec module types linear (.dataDrop data) .unit
        { linear with datas := Function.update linear.datas (module.datas data) [] }

inductive Step (module : Instance m d M D) (types : Fin M → MemoryType) (linear : Linear M D) :
    Op m d → Option Reply → Linear M D → Prop where
  | trap {op : Op m d} (h : ¬op.InBounds module linear) : Step module types linear op none linear
  | exec {op : Op m d} {reply : Reply} {linear' : Linear M D} (hbounds : op.InBounds module linear)
      (h : Exec module types linear op reply linear') : Step module types linear op (some reply) linear'

inductive Steps (module : Instance m d M D) (types : Fin M → MemoryType) :
    Linear M D → List (Op m d) → List Reply → Linear M D → Prop where
  | nil {linear : Linear M D} : Steps module types linear [] [] linear
  | cons {linear linear' linear'' : Linear M D} {op : Op m d} {reply : Reply} {ops : List (Op m d)}
      {replies : List Reply} (first : Step module types linear op (some reply) linear')
      (rest : Steps module types linear' ops replies linear'') :
      Steps module types linear (op :: ops) (reply :: replies) linear''

def Store.linear (store : Store arch L M D) : Linear M D where
  memories entity := (store.memories entity).data
  datas index := (store.datas index).getD []

-- The errors of an interpreter that has a limit: of its fuel or by its host.
def Error.Denied : Error → Prop
  | .fuel (.outOfFuel _) | .resumableOutOfFuel _ | .trapCode .growthOperationLimited => True
  | _ => False

section Refines

variable {limits : ResourceLimiter L} {module : Instance m d M D} {store store' : Store arch L M D}
  {result : Except Error Reply} {op : Op m d}

variable {ops : List (Op m d)} {replies : List Reply} {ending : Option Error}

-- How a run ends that the reference has followed up to there.
inductive Ends (module : Instance m d M D) (linear : Linear M D) : List (Op m d) → Option Error → Prop where
  | done : Ends module linear [] none
  | trapped {op : Op m d} {rest : List (Op m d)} (h : ¬op.InBounds module linear) :
      Ends module linear (op :: rest) (some (.trapCode .memoryOutOfBounds))
  | denied {op : Op m d} {rest : List (Op m d)} {error : Error} (h : error.Denied) :
      Ends module linear (op :: rest) (some error)

end Refines

end Milo.Runtime.Wasmi
