import Milo.Runtime.Wasmi.Memory

namespace Milo.Runtime.Wasmi

open Milo.Lib Milo.Rust

namespace MemoryType

-- The bytes of the maximum are no u64.
def Unmeasurable (ty : MemoryType) : Prop := ∃ max ∈ ty.maximum, 2 ^ 64 ≤ max.toNat * ty.pageSize

variable {ty : MemoryType}

-- Only the largest type that there is has such a maximum.
theorem unmeasurable_iff (h : ty.Valid) :
    ty.Unmeasurable ↔ ty.indexType = .i64 ∧ ty.pageSize = 65536 ∧ ty.maximum = some 0x1000000000000 := by
  constructor
  · rintro ⟨max, hmem, hover⟩
    have hmax := (h.maximum_le max hmem).2
    have hle := Nat.le_trans (Nat.mul_le_mul_right _ hmax) ty.absoluteMax_mul_le
    have hlt := max.toNat_lt
    rw [absoluteMax_eq] at hmax
    rcases h.pageSize_eq with hone | hpage
    · rw [hone] at hover
      omega
    · rw [hpage] at hover hmax
      cases hindex : ty.indexType with
      | i32 =>
          rw [hindex] at hle
          have : (2 : Nat) ^ 64 ≤ 2 ^ 32 := by
            rw [hpage] at hle
            exact Nat.le_trans hover hle
          omega
      | i64 =>
          rw [hindex] at hmax
          have hfull : max.toNat = 2 ^ 48 := by
            have : IndexType.maxSize .i64 = 2 ^ 64 := rfl
            omega
          refine ⟨rfl, hpage, ?_⟩
          rw [Option.mem_def.mp hmem]
          congr 1
          exact UInt64.toNat_inj.mp hfull
  · rintro ⟨_, hpage, hmax⟩
    exact ⟨0x1000000000000, hmax, by rw [hpage]; decide⟩

end MemoryType

namespace Memory

variable {arch : Arch}

-- A memory is of whole pages, as many as its type allows.
structure Sized (memory : Memory arch) : Prop where
  whole : memory.data.length = memory.size * memory.ty.pageSize
  minimum_le : memory.ty.minimum.toNat ≤ memory.size
  le_absoluteMax : memory.size ≤ memory.ty.absoluteMax
  le_maximum : ∀ max ∈ memory.ty.maximum, memory.size ≤ max.toNat

section Sizes

variable {memory : Memory arch}

theorem size_eq (memory : Memory arch) : memory.size = memory.data.length / memory.ty.pageSize :=
  memory.ty.shiftRight_eq _

theorem size_of_whole {pages : Nat} (h : memory.data.length = pages * memory.ty.pageSize) :
    memory.size = pages := by
  rw [size_eq, h, Nat.mul_div_cancel _ memory.ty.pageSize_pos]

theorem length_lt (memory : Memory arch) : memory.data.length < 2 ^ 63 :=
  Nat.lt_of_lt_of_le memory.bytes.fits arch.half_lt

theorem sizeInBytes_eq (h : memory.Sized) : memory.sizeInBytes = .ok memory.data.length := by
  have hlt := memory.length_lt
  unfold sizeInBytes checkedMul64
  rw [← h.whole, if_pos (by omega)]

theorem maxSizeInBytes_panics_iff (memory : Memory arch) :
    (¬∃ bytes, memory.maxSizeInBytes = .ok bytes) ↔ memory.ty.Unmeasurable := by
  unfold maxSizeInBytes MemoryType.Unmeasurable checkedMul64
  cases memory.ty.maximum with
  | none => simp
  | some max =>
      dsimp only
      split_ifs with hlt
      · simp
        omega
      · simp
        omega

-- Where a growth is within its bounds.
structure Fits (memory : Memory arch) (additional : Nat) : Prop where
  le_absoluteMax : memory.size + additional ≤ memory.ty.absoluteMax
  le_maximum : ∀ max ∈ memory.ty.maximum, memory.size + additional ≤ max.toNat
  addressable : (memory.size + additional) * memory.ty.pageSize < 2 ^ arch.width

theorem desiredByteSize_eq_some_iff {additional desired : Nat} :
    memory.desiredByteSize additional = some desired ↔
      memory.Fits additional ∧ desired = (memory.size + additional) * memory.ty.pageSize := by
  have hpow := arch.pow_width_le
  have hmul : memory.size + additional ≤ (memory.size + additional) * memory.ty.pageSize :=
    Nat.le_mul_of_pos_right _ memory.ty.pageSize_pos
  unfold desiredByteSize checkedAdd64 checkedMul64 Arch.tryUsize
  by_cases haddressable : (memory.size + additional) * memory.ty.pageSize < 2 ^ arch.width
  swap
  · refine iff_of_false (fun h => ?_) fun h => haddressable h.1.addressable
    split_ifs at h with hadd
    · simp only [Option.bind_eq_bind, Option.bind_some] at h
      split_ifs at h
      · rw [Option.bind_some, if_neg haddressable] at h
        cases h
      · cases h
    · cases h
  rw [if_pos (by omega)]
  simp only [Option.bind_eq_bind, Option.bind_some]
  by_cases habsolute : memory.size + additional > memory.ty.absoluteMax
  · rw [if_pos habsolute]
    exact iff_of_false (by simp) fun h => Nat.not_lt.mpr h.1.le_absoluteMax habsolute
  rw [if_neg habsolute]
  by_cases hmaximum : ∃ max ∈ memory.ty.maximum, memory.size + additional > max.toNat
  · rw [if_pos hmaximum]
    obtain ⟨max, hmem, hover⟩ := hmaximum
    exact iff_of_false (by simp) fun h => Nat.not_lt.mpr (h.1.le_maximum max hmem) hover
  rw [if_neg hmaximum, if_pos (by omega), Option.bind_some, if_pos haddressable]
  constructor
  · intro h
    refine ⟨⟨Nat.not_lt.mp habsolute, fun max hmem => ?_, haddressable⟩, (Option.some.inj h).symm⟩
    exact Nat.not_lt.mp fun hover => hmaximum ⟨max, hmem, hover⟩
  · rintro ⟨_, rfl⟩
    rfl

end Sizes

section Grow

variable {L : Type} {limits : ResourceLimiter L} {memory : Memory arch} {additional : UInt64}
  {allocs : Bool} {fuel : Option Fuel} {limiter : Option L} {growth : Growth arch L}

-- A payment by fuel that may not be there.
def Spent (price : FuelCostsProvider → UInt64) : Option Fuel → Option Fuel → Prop
  | none, none => True
  | some fuel, some fuel' => fuel.Paid fuel' (price fuel.costs)
  | _, _ => False

-- The bytes of so many pages.
def pageBytes (ty : MemoryType) (additional : UInt64) : Nat := additional.toNat * ty.pageSize

def growthPrice (ty : MemoryType) (additional : UInt64) (costs : FuelCostsProvider) : UInt64 :=
  costs.fuelForCopyingBytes (UInt64.ofNat (pageBytes ty additional))

-- What a growth by so many pages does to a memory.
structure Grown (memory memory' : Memory arch) (additional : UInt64) : Prop where
  data : memory'.data = memory.data ++ List.replicate (pageBytes memory.ty additional) 0
  ty : memory'.ty = memory.ty
  static : memory'.bytes.static = memory.bytes.static
  fits : memory.Fits additional.toNat

theorem spent_zero (ty : MemoryType) (fuel : Option Fuel) : Spent (growthPrice ty 0) fuel fuel := by
  cases fuel with
  | none => trivial
  | some fuel =>
      refine ⟨rfl, rfl, ?_⟩
      have hzero : (growthPrice ty 0 fuel.costs).toNat = 0 := by
        unfold growthPrice pageBytes
        rw [FuelCostsProvider.toNat_fuelForCopyingBytes]
        simp
      rw [hzero, ite_self, Nat.add_zero]

theorem Sized.fits_zero (h : memory.Sized) : memory.Fits (0 : UInt64).toNat where
  le_absoluteMax := h.le_absoluteMax
  le_maximum := h.le_maximum
  addressable := by
    have hlt := memory.bytes.fits
    have hpow := arch.pow_half
    have hwhole := h.whole
    unfold data at hwhole
    show (memory.size + 0) * memory.ty.pageSize < _
    rw [Nat.add_zero, ← hwhole]
    omega

theorem Fits.pageBytes_lt (h : memory.Fits additional.toNat) :
    pageBytes memory.ty additional < 2 ^ arch.width :=
  Nat.lt_of_le_of_lt (Nat.mul_le_mul_right _ (Nat.le_add_left _ _)) h.addressable

-- The fuel of a growth within its bounds is of a number of bytes that is a u64.
theorem payGrowth_eq (h : memory.Fits additional.toNat) (fuel : Option Fuel) :
    memory.payGrowth additional.toNat fuel =
      .ok (match fuel with
        | none => .ok none
        | some fuel => (fuel.consumeFuelIf (growthPrice memory.ty additional)).map some) := by
  cases fuel with
  | none => rfl
  | some fuel =>
      have hlt := Nat.lt_of_lt_of_le h.pageBytes_lt arch.pow_width_le
      unfold payGrowth checkedMul64
      unfold pageBytes at hlt
      rw [if_pos hlt]
      rfl

theorem payGrowth_cases (h : memory.Fits additional.toNat) (fuel : Option Fuel) :
    (∃ fuel', memory.payGrowth additional.toNat fuel = .ok (.ok fuel') ∧
        Spent (growthPrice memory.ty additional) fuel fuel') ∨
      ∃ requiredFuel, memory.payGrowth additional.toNat fuel = .ok (.error (.outOfFuel requiredFuel)) := by
  rw [payGrowth_eq h]
  cases fuel with
  | none => exact .inl ⟨none, rfl, trivial⟩
  | some fuel =>
      cases hpay : fuel.consumeFuelIf (growthPrice memory.ty additional) with
      | ok fuel' => exact .inl ⟨some fuel', by simp [hpay, Except.map], Fuel.consumeFuelIf_ok hpay⟩
      | error error =>
          obtain ⟨_, _, rfl⟩ := Fuel.consumeFuelIf_error hpay
          exact .inr ⟨growthPrice memory.ty additional fuel.costs, by simp [hpay, Except.map]⟩

-- The errors that a limiter is told of.
def MemoryError.Growing (error : MemoryError) : Prop := ∃ told, LimiterError.ofMemory error = .ok told

theorem growing_toMemory (error : LimiterError) : MemoryError.Growing error.toMemory := by
  cases error <;> exact ⟨_, rfl⟩

theorem ask_growing {error : MemoryError} {current desired : Nat} {maximum : Option Nat}
    {limiter' : Option L} (h : limits.ask .outOfBoundsGrowth limiter current desired maximum =
      (.error error, limiter')) : MemoryError.Growing error := by
  unfold ResourceLimiter.ask at h
  split at h
  · cases h
  · split at h
    · cases h
    · cases h
      exact ⟨_, rfl⟩
    · cases h
      exact growing_toMemory _

theorem notify_ok {error : MemoryError} (h : limiter = none ∨ MemoryError.Growing error) :
    ∃ limiter', limits.notify limiter error = .ok limiter' := by
  unfold ResourceLimiter.notify
  cases limiter with
  | none => exact ⟨none, rfl⟩
  | some state =>
      obtain hnone | ⟨told, htold⟩ := h
      · cases hnone
      · exact ⟨some (limits.memoryGrowFailed state told), by rw [htold]; rfl⟩

-- Growing the buffer, all checks passed.
theorem growBuffer_cases (hsized : memory.Sized) (hfits : memory.Fits additional.toNat) :
    (∃ memory', memory.growBuffer limits ((memory.size + additional.toNat) * memory.ty.pageSize) allocs
          fuel limiter = .ok ⟨.ok memory.size, memory', fuel, limiter⟩ ∧ Grown memory memory' additional) ∨
      ∃ error, (MemoryError.Growing error ∨ memory.bytes.static.isSome) ∧
        memory.growBuffer limits ((memory.size + additional.toNat) * memory.ty.pageSize) allocs
          fuel limiter = failGrowth limits memory error fuel limiter := by
  have hlength : memory.bytes.bytes.length = memory.size * memory.ty.pageSize := hsized.whole
  have hle : memory.bytes.bytes.length ≤ (memory.size + additional.toNat) * memory.ty.pageSize := by
    rw [hlength]
    exact Nat.mul_le_mul_right _ (Nat.le_add_right _ _)
  unfold growBuffer
  rcases ByteBuffer.grow_cases hle with
    ⟨_, _, hgrow⟩ | ⟨capacity, hstatic, _, hgrow⟩ | ⟨grown, hgrow, hbytes, hstatic⟩
  · exact .inr ⟨.outOfSystemMemory, .inl ⟨_, rfl⟩, by rw [hgrow]; rfl⟩
  · exact .inr ⟨.invalidStaticBufferSize, .inr (by rw [hstatic]; rfl), by rw [hgrow]; rfl⟩
  · refine .inl ⟨{ memory with bytes := grown }, by rw [hgrow]; rfl, ?_, rfl, hstatic, hfits⟩
    show grown.bytes = _
    rw [hbytes, ByteBuffer.zeroFilled, hlength, Nat.add_mul, Nat.add_sub_cancel_left]
    rfl

-- What a growth that returns comes to.
inductive Outcome (memory : Memory arch) (additional : UInt64) (fuel : Option Fuel) : Growth arch L → Prop where
  -- the fuel may be spent already when there is no room
  | refused {error : MemoryError} {fuel' : Option Fuel} {limiter : Option L}
      (hfuel : fuel' = fuel ∨ Spent (growthPrice memory.ty additional) fuel fuel')
      (hgrowing : MemoryError.Growing error ∨ memory.bytes.static.isSome) :
      Outcome memory additional fuel ⟨.error error, memory, fuel', limiter⟩
  | grown {memory' : Memory arch} {fuel' : Option Fuel} {limiter : Option L}
      (hgrown : Grown memory memory' additional)
      (hfuel : Spent (growthPrice memory.ty additional) fuel fuel') :
      Outcome memory additional fuel ⟨.ok memory.size, memory', fuel', limiter⟩

theorem failGrowth_outcome {error : MemoryError} {fuel' : Option Fuel}
    (h : failGrowth limits memory error fuel' limiter = .ok growth)
    (hfuel : fuel' = fuel ∨ Spent (growthPrice memory.ty additional) fuel fuel')
    (hgrowing : MemoryError.Growing error ∨ memory.bytes.static.isSome) :
    Outcome memory additional fuel growth := by
  unfold failGrowth at h
  obtain ⟨limiter', _, hgrowth⟩ := bind_eq_ok.mp h
  obtain rfl := Except.ok.inj hgrowth
  exact .refused hfuel hgrowing

theorem growCharged_outcome (hsized : memory.Sized) (hfits : memory.Fits additional.toNat)
    (h : memory.growCharged limits ((memory.size + additional.toNat) * memory.ty.pageSize)
      additional.toNat allocs fuel limiter = .ok growth) : Outcome memory additional fuel growth := by
  unfold growCharged at h
  rcases payGrowth_cases hfits fuel with ⟨fuel', hpay, hspent⟩ | ⟨requiredFuel, hpay⟩
  · simp only [hpay, bind, Except.bind] at h
    rcases growBuffer_cases hsized hfits with ⟨memory', hgrow, hgrown⟩ | ⟨error, hgrowing, hgrow⟩
    · rw [hgrow] at h
      obtain rfl := Except.ok.inj h
      exact .grown hgrown hspent
    · rw [hgrow] at h
      exact failGrowth_outcome h (.inr hspent) hgrowing
  · simp only [hpay, bind, Except.bind] at h
    exact failGrowth_outcome h (.inl rfl) (.inl ⟨_, rfl⟩)

-- Each growth comes to one of the two, or panics.
theorem grow_outcome (hsized : memory.Sized)
    (h : memory.grow limits additional allocs fuel limiter = .ok growth) :
    Outcome memory additional fuel growth := by
  unfold grow at h
  split_ifs at h with hzero
  · obtain rfl := Except.ok.inj h
    subst hzero
    exact .grown ⟨by simp [pageBytes], rfl, rfl, hsized.fits_zero⟩ (spent_zero _ _)
  obtain ⟨currentByteSize, _, h⟩ := bind_eq_ok.mp h
  obtain ⟨maximumByteSize, _, h⟩ := bind_eq_ok.mp h
  split at h
  · obtain rfl := Except.ok.inj h
    exact .refused (.inl rfl) (.inl ⟨_, rfl⟩)
  next desired hdesired =>
    obtain ⟨hfits, rfl⟩ := desiredByteSize_eq_some_iff.mp hdesired
    split at h
    next error limiter' hask =>
      obtain rfl := Except.ok.inj h
      exact .refused (.inl rfl) (.inl (ask_growing hask))
    next limiter' _ => exact growCharged_outcome hsized hfits h

-- Without a limiter, or on the heap, no error is raised that the limiter may not be told of.
theorem growCharged_ok (hsized : memory.Sized) (hfits : memory.Fits additional.toNat)
    (htold : limiter = none ∨ memory.bytes.static = none) :
    ∃ growth, memory.growCharged limits ((memory.size + additional.toNat) * memory.ty.pageSize)
      additional.toNat allocs fuel limiter = .ok growth := by
  have hfail : ∀ error fuel', MemoryError.Growing error ∨ memory.bytes.static.isSome →
      ∃ growth, failGrowth limits memory error fuel' limiter = .ok growth := by
    intro error fuel' hgrowing
    have hnotify : limiter = none ∨ MemoryError.Growing error := by
      rcases htold with hnone | hheap
      · exact .inl hnone
      · rw [hheap] at hgrowing
        exact .inr (hgrowing.resolve_right (by simp))
    obtain ⟨limiter', hlimiter⟩ : ∃ limiter', limits.notify limiter error = .ok limiter' := notify_ok hnotify
    exact ⟨_, by unfold failGrowth; rw [hlimiter]; rfl⟩
  unfold growCharged
  rcases payGrowth_cases hfits fuel with ⟨fuel', hpay, _⟩ | ⟨requiredFuel, hpay⟩
  · simp only [hpay, bind, Except.bind]
    rcases growBuffer_cases hsized hfits with ⟨memory', hgrow, _⟩ | ⟨error, hgrowing, hgrow⟩
    · exact ⟨_, hgrow⟩
    · rw [hgrow]
      exact hfail error fuel' hgrowing
  · simp only [hpay, bind, Except.bind]
    exact hfail _ fuel (.inl ⟨_, rfl⟩)

theorem ask_limiter {denied : MemoryError} {current desired : Nat} {maximum : Option Nat} {answer}
    {limiter' : Option L} (h : limits.ask denied limiter current desired maximum = (answer, limiter'))
    (hnone : limiter = none) : limiter' = none := by
  subst hnone
  exact (congrArg Prod.snd h).symm

-- A growth panics at a maximum that it cannot measure, however few pages it is by.
theorem grow_panics_iff (hsized : memory.Sized) (htold : limiter = none ∨ memory.bytes.static = none) :
    (¬∃ growth, memory.grow limits additional allocs fuel limiter = .ok growth) ↔
      additional ≠ 0 ∧ memory.ty.Unmeasurable := by
  unfold grow
  by_cases hzero : additional = 0
  · rw [if_pos hzero]
    exact iff_of_false (by simp) fun h => h.1 hzero
  rw [if_neg hzero, sizeInBytes_eq hsized, ← maxSizeInBytes_panics_iff memory]
  cases hmax : memory.maxSizeInBytes with
  | error fault =>
      refine iff_of_true ?_ ⟨hzero, by simp⟩
      rintro ⟨growth, h⟩
      cases h
  | ok maximumByteSize =>
      refine iff_of_false (not_not.mpr ?_) fun h => h.2 ⟨_, rfl⟩
      simp only [bind, Except.bind]
      split
      · exact ⟨_, rfl⟩
      next desired hdesired =>
        obtain ⟨hfits, rfl⟩ := desiredByteSize_eq_some_iff.mp hdesired
        split
        · exact ⟨_, rfl⟩
        next limiter' hask => exact growCharged_ok hsized hfits (htold.imp_left (ask_limiter hask))

end Grow

section Invariant

variable {L : Type} {limits : ResourceLimiter L} {memory memory' : Memory arch}

theorem sized_of_length (hty : memory'.ty = memory.ty) (hlength : memory'.data.length = memory.data.length)
    (h : memory.Sized) : memory'.Sized := by
  have hsize : memory'.size = memory.size := by rw [size_eq, size_eq, hty, hlength]
  constructor
  · rw [hlength, hsize, hty, h.whole]
  · rw [hsize, hty]
    exact h.minimum_le
  · rw [hsize, hty]
    exact h.le_absoluteMax
  · rw [hsize, hty]
    exact h.le_maximum

theorem Grown.size {additional : UInt64} (hgrown : Grown memory memory' additional) (h : memory.Sized) :
    memory'.size = memory.size + additional.toNat := by
  apply size_of_whole
  rw [hgrown.data, List.length_append, List.length_replicate, h.whole, hgrown.ty, Nat.add_mul]
  rfl

theorem Grown.sized {additional : UInt64} (hgrown : Grown memory memory' additional) (h : memory.Sized) :
    memory'.Sized := by
  have hsize := hgrown.size h
  constructor
  · rw [hsize, hgrown.data, List.length_append, List.length_replicate, h.whole, hgrown.ty, Nat.add_mul]
    rfl
  · rw [hsize, hgrown.ty]
    exact Nat.le_add_right_of_le h.minimum_le
  · rw [hsize, hgrown.ty]
    exact hgrown.fits.le_absoluteMax
  · rw [hsize, hgrown.ty]
    exact hgrown.fits.le_maximum

-- A buffer is made of zeroes.
def Zeroed (makeBuffer : Nat → Except MemoryError (ByteBuffer arch)) : Prop :=
  ∀ size buffer, makeBuffer size = .ok buffer → buffer.bytes = List.replicate size 0

theorem zeroed_new (allocs : Bool) : Zeroed (ByteBuffer.new arch allocs) := by
  intro size buffer h
  unfold ByteBuffer.new at h
  split_ifs at h
  exact (congrArg ByteBuffer.bytes (Except.ok.inj h)).symm

theorem zeroed_newStatic (capacity : { n : Nat // n < 2 ^ (arch.width - 1) }) :
    Zeroed (ByteBuffer.newStatic arch capacity) := by
  intro size buffer h
  unfold ByteBuffer.newStatic at h
  split_ifs at h
  exact (congrArg ByteBuffer.bytes (Except.ok.inj h)).symm

-- A new memory is of the minimum of its type, and of zeroes.
theorem newImpl_sized {ty : { ty : MemoryType // ty.Valid }} {limiter limiter' : Option L}
    {makeBuffer : Nat → Except MemoryError (ByteBuffer arch)} (hzeroed : Zeroed makeBuffer)
    (h : newImpl limits ty limiter makeBuffer = .ok (.ok memory, limiter')) :
    memory.Sized ∧ memory.ty = ty.1 ∧
      memory.data = List.replicate (ty.1.minimum.toNat * ty.1.pageSize) 0 := by
  unfold newImpl at h
  split at h
  · cases h
  next minSize hmin =>
    obtain ⟨minimum, hminimum, hsize⟩ := Option.bind_eq_some_iff.mp hmin
    have hpages : minSize = ty.1.minimum.toNat * ty.1.pageSize := by
      unfold MemoryType.minimumByteSize at hminimum
      unfold Arch.tryUsize at hsize
      split_ifs at hminimum hsize
      rw [← Option.some.inj hsize, ← Option.some.inj hminimum, MemoryType.shiftLeft_eq]
    split_ifs at h
    · cases h
    dsimp only at h
    split at h
    · cases h
    next =>
      split at h
      next buffer hbuffer =>
        obtain rfl : (⟨buffer, ty.1, ty.2⟩ : Memory arch) = memory := by
          exact Except.ok.inj (congrArg Prod.fst (Except.ok.inj h))
        have hdata : buffer.bytes = List.replicate (ty.1.minimum.toNat * ty.1.pageSize) 0 := by
          rw [hzeroed _ _ hbuffer, hpages]
        have hlength : buffer.bytes.length = ty.1.minimum.toNat * ty.1.pageSize := by
          rw [hdata, List.length_replicate]
        have hsized : (⟨buffer, ty.1, ty.2⟩ : Memory arch).size = ty.1.minimum.toNat := size_of_whole hlength
        refine ⟨⟨?_, ?_, ?_, ?_⟩, rfl, hdata⟩
        · rw [hsized]
          exact hlength
        · exact Nat.le_of_eq hsized.symm
        · rw [hsized]
          exact ty.2.minimum_le
        · intro max hmax
          rw [hsized]
          exact (ty.2.maximum_le max hmax).1
      next =>
        obtain ⟨_, _, h⟩ := bind_eq_ok.mp h
        cases h

theorem valid_val (ty : { ty : MemoryType // ty.Valid }) : ty.1.Valid := ty.2

theorem nil_fits (arch : Arch) : ([] : Bytes).length < 2 ^ (arch.width - 1) := Nat.two_pow_pos _

theorem nil_within (arch : Arch) : ∀ capacity ∈ (none : Option Nat),
    ([] : Bytes).length ≤ capacity ∧ capacity < 2 ^ (arch.width - 1) := by
  intro capacity hmem
  cases hmem

-- A memory without bytes.
def blank (arch : Arch) (ty : { ty : MemoryType // ty.Valid }) : Memory arch where
  bytes := { bytes := [], static := none, fits := nil_fits arch, within := nil_within arch }
  ty := ty.1
  valid := valid_val ty

theorem sized_blank {ty : { ty : MemoryType // ty.Valid }} (hminimum : ty.1.minimum = 0) :
    (blank arch ty).Sized := by
  have hsize : (blank arch ty).size = 0 := size_of_whole (by rw [Nat.zero_mul]; rfl)
  constructor
  · rw [hsize, Nat.zero_mul]
    rfl
  · rw [hsize]
    exact Nat.le_of_eq (congrArg UInt64.toNat hminimum)
  · rw [hsize]
    exact Nat.zero_le _
  · intro max _
    rw [hsize]
    exact Nat.zero_le _

end Invariant

end Memory

end Milo.Runtime.Wasmi
