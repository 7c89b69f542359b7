import Milo.Lib.Window
import Milo.Runtime.Wasmi.Fuel
import Milo.Runtime.Wasmi.MemoryType

namespace Milo.Runtime.Wasmi

open Milo.Lib Milo.Rust

-- The bytes of a memory, on the heap or at the front of a static buffer of some capacity. What
-- a static buffer holds behind them is never read.
structure ByteBuffer (arch : Arch) where
  bytes : Bytes
  static : Option Nat
  fits : bytes.length < 2 ^ (arch.width - 1)
  within : ∀ capacity ∈ static, bytes.length ≤ capacity ∧ capacity < 2 ^ (arch.width - 1)

namespace ByteBuffer

variable {arch : Arch}

def new (arch : Arch) (allocs : Bool) (size : Nat) : Except MemoryError (ByteBuffer arch) :=
  if h : arch.reserves allocs size then
    .ok { bytes := List.replicate size 0
          static := none
          fits := by rw [List.length_replicate]; exact h.2
          within := by intro capacity hnone; cases hnone }
  else .error .outOfSystemMemory

-- A static slice is of at most isize::MAX bytes.
def newStatic (arch : Arch) (capacity : { n : Nat // n < 2 ^ (arch.width - 1) }) (size : Nat) :
    Except MemoryError (ByteBuffer arch) :=
  if h : size ≤ capacity then
    .ok { bytes := List.replicate size 0
          static := some capacity
          fits := by rw [List.length_replicate]; exact Nat.lt_of_le_of_lt h capacity.2
          within := by
            rintro _ ⟨⟩
            rw [List.length_replicate]
            exact ⟨h, capacity.2⟩ }
  else .error .invalidStaticBufferSize

-- Other bytes in the place of as many.
def replace (buffer : ByteBuffer arch) (bytes : Bytes) (h : bytes.length = buffer.bytes.length) :
    ByteBuffer arch where
  bytes := bytes
  static := buffer.static
  fits := h ▸ buffer.fits
  within := fun capacity hmem => h ▸ buffer.within capacity hmem

variable (buffer : ByteBuffer arch)

-- The bytes of a buffer with zeroes behind them up to a size.
def zeroFilled (newSize : Nat) : Bytes :=
  buffer.bytes ++ List.replicate (newSize - buffer.bytes.length) 0

variable {buffer} in
theorem length_zeroFilled {newSize : Nat} (h : buffer.bytes.length ≤ newSize) :
    (buffer.zeroFilled newSize).length = newSize := by
  unfold zeroFilled
  rw [List.length_append, List.length_replicate]
  omega

def growVec (newSize : Nat) (allocs : Bool) (hle : buffer.bytes.length ≤ newSize) :
    Except MemoryError (ByteBuffer arch) :=
  if h : arch.reserves allocs newSize then
    .ok { bytes := buffer.zeroFilled newSize
          static := none
          fits := by rw [length_zeroFilled hle]; exact h.2
          within := by intro capacity hnone; cases hnone }
  else .error .outOfSystemMemory

def growStatic (newSize capacity : Nat) (hcapacity : capacity < 2 ^ (arch.width - 1))
    (hle : buffer.bytes.length ≤ newSize) : Except MemoryError (ByteBuffer arch) :=
  if h : capacity < newSize then .error .invalidStaticBufferSize
  else
    .ok { bytes := buffer.zeroFilled newSize
          static := some capacity
          fits := by rw [length_zeroFilled hle]; omega
          within := by
            rintro _ ⟨⟩
            rw [length_zeroFilled hle]
            omega }

-- The first result is that of the assertion.
def grow (newSize : Nat) (allocs : Bool) : Except Fault (Except MemoryError (ByteBuffer arch)) :=
  if hle : buffer.bytes.length ≤ newSize then
    match hstatic : buffer.static with
    | none => .ok (buffer.growVec newSize allocs hle)
    | some capacity => .ok (buffer.growStatic newSize capacity (buffer.within capacity hstatic).2 hle)
  else .error .panic

variable {buffer} {newSize : Nat} {allocs : Bool}

-- What a growth comes to that is to a size no smaller.
theorem grow_cases (hle : buffer.bytes.length ≤ newSize) :
    (buffer.static = none ∧ ¬arch.reserves allocs newSize ∧
        buffer.grow newSize allocs = .ok (.error .outOfSystemMemory)) ∨
      (∃ capacity, buffer.static = some capacity ∧ capacity < newSize ∧
        buffer.grow newSize allocs = .ok (.error .invalidStaticBufferSize)) ∨
      ∃ grown, buffer.grow newSize allocs = .ok (.ok grown) ∧
        grown.bytes = buffer.zeroFilled newSize ∧ grown.static = buffer.static := by
  unfold grow
  rw [dif_pos hle]
  split
  next hstatic =>
    unfold growVec
    split_ifs with h
    · exact .inr (.inr ⟨_, rfl, rfl, hstatic.symm⟩)
    · exact .inl ⟨hstatic, h, rfl⟩
  next capacity hstatic =>
    unfold growStatic
    split_ifs with h
    · exact .inr (.inl ⟨capacity, hstatic, h, rfl⟩)
    · exact .inr (.inr ⟨_, rfl, rfl, hstatic.symm⟩)

end ByteBuffer

inductive LimiterError where
  | outOfSystemMemory
  | outOfBoundsGrowth
  | resourceLimiterDeniedAllocation
  | outOfFuel (requiredFuel : UInt64)

-- The conversion of an error for the limiter: it panics at one that growth is not to raise.
def LimiterError.ofMemory : MemoryError → Except Fault LimiterError
  | .outOfSystemMemory => .ok .outOfSystemMemory
  | .outOfBoundsGrowth => .ok .outOfBoundsGrowth
  | .resourceLimiterDeniedAllocation => .ok .resourceLimiterDeniedAllocation
  | .outOfFuel requiredFuel => .ok (.outOfFuel requiredFuel)
  | _ => .error .panic

def LimiterError.toMemory : LimiterError → MemoryError
  | .outOfSystemMemory => .outOfSystemMemory
  | .outOfBoundsGrowth => .outOfBoundsGrowth
  | .resourceLimiterDeniedAllocation => .resourceLimiterDeniedAllocation
  | .outOfFuel requiredFuel => .outOfFuel requiredFuel

-- What a host may set to limit growth, over a state of its own.
structure ResourceLimiter (L : Type) where
  memoryGrowing : L → (current desired : Nat) → (maximum : Option Nat) → Except LimiterError Bool × L
  memoryGrowFailed : L → LimiterError → L

namespace ResourceLimiter

variable {L : Type} (limits : ResourceLimiter L)

-- The limiter is asked before a memory is made or grown; denied is the error of a refusal.
def ask (denied : MemoryError) (limiter : Option L) (current desired : Nat) (maximum : Option Nat) :
    Except MemoryError Unit × Option L :=
  match limiter with
  | none => (.ok (), none)
  | some state =>
      match limits.memoryGrowing state current desired maximum with
      | (.ok true, state) => (.ok (), some state)
      | (.ok false, state) => (.error denied, some state)
      | (.error error, state) => (.error error.toMemory, some state)

-- And is told of what fails behind that.
def notify (limiter : Option L) (error : MemoryError) : Except Fault (Option L) :=
  match limiter with
  | none => .ok none
  | some state => do
      let error ← LimiterError.ofMemory error
      .ok (some (limits.memoryGrowFailed state error))

end ResourceLimiter

structure Memory (arch : Arch) where
  bytes : ByteBuffer arch
  ty : MemoryType
  valid : ty.Valid

-- What comes of growing a memory.
structure Growth (arch : Arch) (L : Type) where
  result : Except MemoryError Nat
  memory : Memory arch
  fuel : Option Fuel
  limiter : Option L

namespace Memory

section Ops

variable {arch : Arch} {L : Type} (limits : ResourceLimiter L)

-- The function new_impl, which makes the buffer on the heap or over a static one.
def newImpl (ty : { ty : MemoryType // ty.Valid }) (limiter : Option L)
    (makeBuffer : Nat → Except MemoryError (ByteBuffer arch)) :
    Except Fault (Except MemoryError (Memory arch) × Option L) :=
  match ty.1.minimumByteSize.bind arch.tryUsize with
  | none => .ok (.error .minimumSizeOverflow, limiter)
  | some minSize =>
      if ∃ max ∈ ty.1.maximum, max.toNat > ty.1.absoluteMax then
        .ok (.error .maximumSizeOverflow, limiter)
      else
        let maxSize := ty.1.maximum.map fun max =>
          (arch.tryUsize (max.toNat <<< ty.1.pageSizeLog2.toNat)).getD (2 ^ arch.width - 1)
        match limits.ask .resourceLimiterDeniedAllocation limiter 0 minSize maxSize with
        | (.error error, limiter) => .ok (.error error, limiter)
        | (.ok (), limiter) =>
            match makeBuffer minSize with
            | .ok bytes => .ok (.ok ⟨bytes, ty.1, ty.2⟩, limiter)
            | .error error => do
                let limiter ← limits.notify limiter error
                .ok (.error error, limiter)

variable (memory : Memory arch)

-- In pages.
def size : Nat := memory.bytes.bytes.length >>> memory.ty.pageSizeLog2.toNat

def sizeInBytes : Except Fault Nat :=
  match checkedMul64 memory.size memory.ty.pageSize with
  | some bytes => .ok bytes
  | none => .error .panic

def maxSizeInBytes : Except Fault (Option Nat) :=
  match memory.ty.maximum with
  | none => .ok none
  | some maxPages =>
      match checkedMul64 maxPages.toNat memory.ty.pageSize with
      | some maxBytes => .ok (some maxBytes)
      | none => .error .panic

-- The size in bytes that a growth is to lead to, unless it is out of bounds.
def desiredByteSize (additional : Nat) : Option Nat := do
  let desiredSize ← checkedAdd64 memory.size additional
  if desiredSize > memory.ty.absoluteMax then none
  else if ∃ maximumSize ∈ memory.ty.maximum, desiredSize > maximumSize.toNat then none
  else (checkedMul64 desiredSize memory.ty.pageSize).bind arch.tryUsize

-- The fuel of a growth, which is there when an instruction grows the memory.
def payGrowth (additional : Nat) : Option Fuel → Except Fault (Except FuelError (Option Fuel))
  | none => .ok (.ok none)
  | some fuel =>
      match checkedMul64 additional memory.ty.pageSize with
      | none => .error .panic
      | some additionalBytes =>
          .ok ((fuel.consumeFuelIf fun costs => costs.fuelForCopyingBytes (UInt64.ofNat additionalBytes)).map some)

-- The end of a growth: the limiter is told of an error.
def failGrowth (memory : Memory arch) (error : MemoryError) (fuel : Option Fuel) (limiter : Option L) :
    Except Fault (Growth arch L) := do
  let limiter ← limits.notify limiter error
  .ok ⟨.error error, memory, fuel, limiter⟩

def growBuffer (desired : Nat) (allocs : Bool) (fuel : Option Fuel) (limiter : Option L) :
    Except Fault (Growth arch L) := do
  match ← memory.bytes.grow desired allocs with
  | .ok bytes => .ok ⟨.ok memory.size, { memory with bytes }, fuel, limiter⟩
  | .error error => failGrowth limits memory error fuel limiter

-- A growth within bounds that the limiter agrees to: it is charged right before the buffer grows.
def growCharged (desired additional : Nat) (allocs : Bool) (fuel : Option Fuel) (limiter : Option L) :
    Except Fault (Growth arch L) := do
  match ← memory.payGrowth additional fuel with
  | .error (.outOfFuel requiredFuel) => failGrowth limits memory (.outOfFuel requiredFuel) fuel limiter
  | .error .fuelMeteringDisabled => memory.growBuffer limits desired allocs fuel limiter
  | .ok fuel => memory.growBuffer limits desired allocs fuel limiter

def grow (additional : UInt64) (allocs : Bool) (fuel : Option Fuel) (limiter : Option L) :
    Except Fault (Growth arch L) :=
  if additional = 0 then .ok ⟨.ok memory.size, memory, fuel, limiter⟩
  else do
    let currentByteSize ← memory.sizeInBytes
    let maximumByteSize ← memory.maxSizeInBytes
    match memory.desiredByteSize additional.toNat with
    | none => .ok ⟨.error .outOfBoundsGrowth, memory, fuel, limiter⟩
    | some desired =>
        match limits.ask .outOfBoundsGrowth limiter (arch.asUsize currentByteSize) desired
            (maximumByteSize.map arch.asUsize) with
        | (.error error, limiter) => .ok ⟨.error error, memory, fuel, limiter⟩
        | (.ok (), limiter) => memory.growCharged limits desired additional.toNat allocs fuel limiter

def data : Bytes := memory.bytes.bytes

-- The bytes of an access. Its end is a usize.
def accessSpan (arch : Arch) (start len : Nat) : Option (Nat × Nat) :=
  if start + len < 2 ^ arch.width then some (start, start + len) else none

def read (offset len : Nat) : Except MemoryError Bytes :=
  match accessSpan arch offset len with
  | none => .error .outOfBoundsAccess
  | some (start, stop) =>
      if stop ≤ memory.data.length then .ok ((memory.data.take stop).drop start)
      else .error .outOfBoundsAccess

def write (offset : Nat) (buffer : Bytes) : Except MemoryError (Memory arch) :=
  match accessSpan arch offset buffer.length with
  | none => .error .outOfBoundsAccess
  | some (start, _) =>
      if h : start + buffer.length ≤ memory.data.length then
        .ok { memory with bytes := memory.bytes.replace (overwrite memory.data start buffer)
                            (length_overwrite h) }
      else .error .outOfBoundsAccess

end Ops

end Memory

end Milo.Runtime.Wasmi
