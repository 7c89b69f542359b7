import Mathlib.Algebra.BigOperators.Fin
import Milo.Runtime.Wasmi.Instrs
import Milo.Runtime.Wasmi.Memory.Growth

namespace Milo.Runtime.Wasmi

open Milo.Lib Milo.Rust

variable {arch : Arch} {L : Type} {m d M D : Nat}

namespace Memory

variable {memory : Memory arch} {data : Bytes}

theorem ty_withData (memory : Memory arch) (data : Bytes) : (memory.withData data).ty = memory.ty := by
  unfold withData
  split_ifs <;> rfl

theorem static_withData (memory : Memory arch) (data : Bytes) :
    (memory.withData data).bytes.static = memory.bytes.static := by
  unfold withData
  split_ifs <;> rfl

theorem length_withData (memory : Memory arch) (data : Bytes) :
    (memory.withData data).data.length = memory.data.length := by
  unfold withData
  split_ifs with h
  · exact h
  · rfl

theorem data_lt (memory : Memory arch) : memory.data.length < 2 ^ arch.width := by
  have hlt : memory.data.length < 2 ^ (arch.width - 1) := memory.bytes.fits
  have hpow := arch.pow_half
  omega

end Memory

-- The bytes that a bulk instruction moves.
def Op.moved : Op m d → Nat
  | .memoryCopy _ _ _ _ len => len.toNat
  | .memoryFill _ _ _ len => len.toNat
  | .memoryInit _ _ _ _ len => len.toNat
  | _ => 0

-- What an instruction does to a store, apart from the limiter.
inductive Effect (store : Store arch L M D) : Nat → Except Error Reply × Store arch L M D → Prop where
  | kept (result : Except Error Reply) {fuel : Fuel} (limiter : Option L)
      (hpaid : ∃ price, store.fuel.Paid fuel price) :
      Effect store 0 (result, { store with fuel, limiter })
  | wrote (reply : Reply) (entity : Fin M) {data : Bytes} {bytes : Nat} {fuel : Fuel}
      (hlength : data.length = (store.memories entity).data.length) (hbytes : bytes < 2 ^ 64)
      (hpaid : store.fuel.Paid fuel (store.fuel.costs.fuelForCopyingBytes (UInt64.ofNat bytes))) :
      Effect store bytes
        (.ok reply, { store.setMemory entity ((store.memories entity).withData data) with fuel })
  | grew (reply : Reply) (entity : Fin M) {memory : Memory arch} {delta : UInt64} {fuel : Fuel}
      (limiter : Option L) (hgrown : Memory.Grown (store.memories entity) memory delta)
      (hpaid : store.fuel.Paid fuel (Memory.growthPrice (store.memories entity).ty delta store.fuel.costs)) :
      Effect store 0 (.ok reply, { store.setMemory entity memory with fuel, limiter })
  | dropped (reply : Reply) (data : Fin D) :
      Effect store 0 (.ok reply, { store with datas := Function.update store.datas data none })

section Step

variable {limits : ResourceLimiter L} {module : Instance m d M D} {store store' : Store arch L M D}
  {result : Except Error Reply}

theorem Fuel.paid_zero (fuel : Fuel) : fuel.Paid fuel 0 := ⟨rfl, rfl, by simp⟩

theorem Fuel.paid_copy_zero (fuel : Fuel) :
    fuel.Paid fuel (fuel.costs.fuelForCopyingBytes (UInt64.ofNat 0)) := by
  refine ⟨rfl, rfl, ?_⟩
  rw [FuelCostsProvider.toNat_fuelForCopyingBytes]
  simp

theorem effect_self (store : Store arch L M D) (result : Except Error Reply) : Effect store 0 (result, store) :=
  .kept result store.limiter ⟨0, store.fuel.paid_zero⟩

theorem indices_eq_some {dst src len : UInt64} {indexed : Nat × Nat × Nat}
    (h : indices arch dst src len = some indexed) : indexed = (dst.toNat, src.toNat, len.toNat) := by
  unfold indices at h
  simp only [Option.bind_eq_bind, Option.bind_eq_some_iff] at h
  obtain ⟨_, hdst, _, hsrc, _, hlen, h⟩ := h
  unfold Arch.tryUsize at hdst hsrc hlen
  split_ifs at hdst hsrc hlen
  rw [← Option.some.inj h, ← Option.some.inj hdst, ← Option.some.inj hsrc, ← Option.some.inj hlen]

-- What is moved once an instruction ends.
def Op.done (op : Op m d) : Except Error Reply → Nat
  | .ok _ => op.moved
  | .error _ => 0

theorem bulk_effect {entity : Fin M} {dst : Nat} {bytes : Bytes} {op : Op m d}
    (hdst : dst + bytes.length ≤ (store.memories entity).data.length) (hmoved : op.moved = bytes.length)
    (h : store.bulk entity dst bytes = (result, store')) : Effect store (op.done result) (result, store') := by
  have hlt := (store.memories entity).length_lt
  unfold Store.bulk at h
  split at h
  · cases h
    exact effect_self store _
  next fuel hpay =>
    cases h
    rw [show op.done (.ok .unit) = bytes.length from hmoved]
    exact .wrote _ entity (length_overwrite hdst) (by omega) (Fuel.consumeFuelIf_ok hpay)

theorem memories_setMemory (store : Store arch L M D) (entity : Fin M) (memory : Memory arch) :
    (store.setMemory entity memory).memories = Function.update store.memories entity memory := rfl

theorem setMemory_self (store : Store arch L M D) (entity : Fin M) :
    store.setMemory entity (store.memories entity) = store := by
  unfold Store.setMemory
  rw [Function.update_eq_self]

theorem spent_some {fuel : Fuel} {fuel' : Option Fuel} {price : FuelCostsProvider → UInt64}
    (h : Memory.Spent price (some fuel) fuel') :
    ∃ paid, fuel' = some paid ∧ fuel.Paid paid (price fuel.costs) := by
  cases fuel' with
  | none => exact h.elim
  | some paid => exact ⟨paid, rfl, h⟩

theorem grow_effect {entity : Fin M} {delta : UInt64} {op : Op m d} {growth : Growth arch L}
    {reply : Except Error Reply} (hmoved : op.moved = 0)
    (h : Memory.Outcome (store.memories entity) delta (some store.fuel) growth)
    (hreply : growReply (store.memories entity).ty growth.result = .ok reply) :
    Effect store (op.done reply) (reply, { store.setMemory entity growth.memory with
      fuel := growth.fuel.getD store.fuel, limiter := growth.limiter }) := by
  have hdone : op.done reply = 0 := by
    cases reply with
    | error error => rfl
    | ok reply => exact hmoved
  rw [hdone]
  cases h with
  | refused hfuel hgrowing =>
      rw [setMemory_self]
      rcases hfuel with rfl | hspent
      · exact .kept _ _ ⟨0, store.fuel.paid_zero⟩
      · obtain ⟨paid, rfl, hpaid⟩ := spent_some hspent
        exact .kept _ _ ⟨_, hpaid⟩
  | grown hgrown hfuel =>
      cases Except.ok.inj hreply
      obtain ⟨paid, rfl, hpaid⟩ := spent_some hfuel
      exact .grew _ entity _ hgrown hpaid

theorem storeWrap_length {n width : Nat} {memory data : Bytes} {ptr offset : UInt64} {value : Scalar width}
    (h : storeWrap arch n memory ptr offset value = .ok data) : data.length = memory.length := by
  unfold storeWrap at h
  obtain ⟨address, _, h⟩ := bind_eq_ok.mp h
  exact length_storeAt h

-- Each instruction that returns has one of the effects.
theorem execute_effect (hsized : ∀ entity, (store.memories entity).Sized) {op : Op m d}
    (h : execute limits module store op = .ok (result, store')) :
    Effect store (op.done result) (result, store') := by
  cases op with
  | load memory bytes width extend ptr offset =>
      obtain h := Except.ok.inj h
      unfold executeLoad at h
      split at h
      · cases h
        exact effect_self store _
      · cases h
        exact effect_self store _
  | store memory bytes width ptr offset value =>
      obtain h := Except.ok.inj h
      unfold executeStore at h
      dsimp only at h
      split at h
      next data hdata =>
        cases h
        exact .wrote _ _ (storeWrap_length hdata) (Nat.two_pow_pos 64) store.fuel.paid_copy_zero
      next =>
        cases h
        exact effect_self store _
  | memorySize memory =>
      cases Except.ok.inj h
      exact effect_self store _
  | memoryGrow memory delta allocs =>
      change executeMemoryGrow limits module store memory delta allocs = _ at h
      unfold executeMemoryGrow at h
      split_ifs at h with hzero
      · cases Except.ok.inj h
        exact effect_self store _
      · obtain ⟨growth, hgrow, h⟩ := bind_eq_ok.mp h
        obtain ⟨reply, hreply, h⟩ := bind_eq_ok.mp h
        cases Except.ok.inj h
        exact grow_effect rfl (Memory.grow_outcome (hsized _) hgrow) hreply
  | memoryCopy dstMemory srcMemory dst src len =>
      change executeMemoryCopy module store dstMemory srcMemory dst src len = _ at h
      unfold executeMemoryCopy at h
      split at h
      · cases h
        exact effect_self store _
      next hindices =>
        cases indices_eq_some hindices
        split_ifs at h
        split at h
        next bytes _ hsrc hdst =>
          have hlength := length_of_window hsrc
          have hle := (window_eq_some hdst).1
          exact bulk_effect (by omega) hlength.symm (Except.ok.inj h)
        next =>
          cases h
          exact effect_self store _
  | memoryFill memory dst value len =>
      obtain h := Except.ok.inj h
      unfold executeMemoryFill at h
      split at h
      · cases h
        exact effect_self store _
      next hindices =>
        cases indices_eq_some hindices
        split at h
        next hdst =>
          have hle := (window_eq_some hdst).1
          have hlength : (List.replicate len.toNat value).length = len.toNat := List.length_replicate
          exact bulk_effect (by omega) hlength.symm h
        next =>
          cases h
          exact effect_self store _
  | memoryInit memory data dst src len =>
      obtain h := Except.ok.inj h
      unfold executeMemoryInit at h
      split at h
      · cases h
        exact effect_self store _
      next hindices =>
        cases indices_eq_some hindices
        split at h
        next bytes hdst hsrc =>
          have hlength := length_of_window hsrc
          have hle := (window_eq_some hdst).1
          exact bulk_effect (by omega) hlength.symm h
        next =>
          cases h
          exact effect_self store _
  | dataDrop data =>
      cases Except.ok.inj h
      exact .dropped _ _

end Step

-- What instructions keep of the memories of a store.
structure Keeps (store store' : Store arch L M D) : Prop where
  sized : (∀ entity, (store.memories entity).Sized) → ∀ entity, (store'.memories entity).Sized
  ty : ∀ entity, (store'.memories entity).ty = (store.memories entity).ty
  static : ∀ entity, (store'.memories entity).bytes.static = (store.memories entity).bytes.static
  grows : ∀ entity, (store.memories entity).data.length ≤ (store'.memories entity).data.length
  costs : store'.fuel.costs = store.fuel.costs
  enabled : store'.fuel.enabled = store.fuel.enabled
  remaining : store'.fuel.remaining.toNat ≤ store.fuel.remaining.toNat

namespace Keeps

variable {store store' store'' : Store arch L M D}

theorem trans (first : Keeps store store') (second : Keeps store' store'') : Keeps store store'' where
  sized h := second.sized (first.sized h)
  ty entity := (second.ty entity).trans (first.ty entity)
  static entity := (second.static entity).trans (first.static entity)
  grows entity := Nat.le_trans (first.grows entity) (second.grows entity)
  costs := second.costs.trans first.costs
  enabled := second.enabled.trans first.enabled
  remaining := Nat.le_trans second.remaining first.remaining

theorem of_paid {fuel : Fuel} {price : UInt64} {datas : Fin D → Option Bytes} {limiter : Option L}
    (hpaid : store.fuel.Paid fuel price) : Keeps store ⟨store.memories, datas, fuel, limiter⟩ where
  sized h := h
  ty _ := rfl
  static _ := rfl
  grows _ := Nat.le_refl _
  costs := hpaid.costs
  enabled := hpaid.enabled
  remaining := Nat.le_of_add_right_le (Nat.le_of_eq hpaid.remaining)

-- Another memory in the place of one, of the same type.
theorem of_update {entity : Fin M} {memory : Memory arch} {fuel : Fuel} {price : UInt64}
    {limiter : Option L} (hpaid : store.fuel.Paid fuel price)
    (hsized : (store.memories entity).Sized → memory.Sized)
    (hty : memory.ty = (store.memories entity).ty)
    (hstatic : memory.bytes.static = (store.memories entity).bytes.static)
    (hgrows : (store.memories entity).data.length ≤ memory.data.length) :
    Keeps store { store.setMemory entity memory with fuel, limiter } := by
  have hcase : ∀ P : Fin M → Memory arch → Prop, P entity memory → (∀ other, P other (store.memories other)) →
      ∀ other, P other (Function.update store.memories entity memory other) := by
    intro P hself hrest other
    by_cases hother : other = entity
    · subst hother
      rw [Function.update_self]
      exact hself
    · rw [Function.update_of_ne hother]
      exact hrest other
  constructor
  · intro h
    exact hcase (fun _ memory => memory.Sized) (hsized (h entity)) h
  · exact hcase (fun other memory => memory.ty = (store.memories other).ty) hty fun _ => rfl
  · exact hcase (fun other memory => memory.bytes.static = (store.memories other).bytes.static)
      hstatic fun _ => rfl
  · exact hcase (fun other memory => (store.memories other).data.length ≤ memory.data.length)
      hgrows fun _ => Nat.le_refl _
  · exact hpaid.costs
  · exact hpaid.enabled
  · exact Nat.le_of_add_right_le (Nat.le_of_eq hpaid.remaining)

end Keeps

section Keeps

variable {limits : ResourceLimiter L} {module : Instance m d M D} {store store' : Store arch L M D}
  {result : Except Error Reply} {moved : Nat}

theorem Effect.keeps (h : Effect store moved (result, store')) : Keeps store store' := by
  cases h with
  | kept _ _ hpaid =>
      obtain ⟨price, hpaid⟩ := hpaid
      exact .of_paid hpaid
  | wrote _ entity hlength _ hpaid =>
      have hsame := (store.memories entity).length_withData
      exact .of_update hpaid (Memory.sized_of_length (Memory.ty_withData _ _) (hsame _))
        (Memory.ty_withData _ _) (Memory.static_withData _ _) (Nat.le_of_eq (hsame _).symm)
  | grew _ entity _ hgrown hpaid =>
      refine .of_update hpaid hgrown.sized hgrown.ty hgrown.static ?_
      rw [hgrown.data, List.length_append]
      exact Nat.le_add_right _ _
  | dropped => exact .of_paid store.fuel.paid_zero

-- A trap leaves the memories and the data segments as they were.
theorem Effect.trapped {error : Error} (h : Effect store moved (.error error, store')) :
    store'.memories = store.memories ∧ store'.datas = store.datas := by
  cases h
  exact ⟨rfl, rfl⟩

-- The bytes of all memories.
def Store.total (store : Store arch L M D) : Nat := ∑ entity, (store.memories entity).data.length

theorem total_setMemory (store : Store arch L M D) (entity : Fin M) (memory : Memory arch) :
    (store.setMemory entity memory).total + (store.memories entity).data.length =
      store.total + memory.data.length := by
  have hrest : ∀ memories : Fin M → Memory arch, ∑ other, (memories other).data.length =
      (memories entity).data.length + ∑ other ∈ Finset.univ.erase entity, (memories other).data.length :=
    fun memories => (Finset.add_sum_erase Finset.univ _ (Finset.mem_univ entity)).symm
  have hothers : ∑ other ∈ Finset.univ.erase entity, ((store.setMemory entity memory).memories other).data.length =
      ∑ other ∈ Finset.univ.erase entity, (store.memories other).data.length := by
    refine Finset.sum_congr rfl fun other hother => ?_
    rw [memories_setMemory, Function.update_of_ne (Finset.ne_of_mem_erase hother)]
  have hself : ((store.setMemory entity memory).memories entity).data.length = memory.data.length := by
    rw [memories_setMemory, Function.update_self]
  unfold Store.total
  rw [hrest (store.setMemory entity memory).memories, hrest store.memories, hothers, hself]
  omega

-- What has been grown and moved, and what the fuel that is left still pays for.
def Store.potential (store : Store arch L M D) : Nat :=
  store.total + store.fuel.costs.bytesPerFuel.toNat * store.fuel.remaining.toNat

theorem paid_bytes {fuel fuel' : Fuel} {bytes : Nat} (henabled : fuel.enabled) (hbytes : bytes < 2 ^ 64)
    (hpaid : fuel.Paid fuel' (fuel.costs.fuelForCopyingBytes (UInt64.ofNat bytes))) :
    bytes + fuel'.costs.bytesPerFuel.toNat * fuel'.remaining.toNat <
      fuel.costs.bytesPerFuel.toNat * fuel.remaining.toNat + fuel.costs.bytesPerFuel.toNat := by
  have hlt := fuel.costs.copied_lt (UInt64.ofNat bytes)
  have hremaining := hpaid.remaining
  rw [if_pos henabled] at hremaining
  rw [UInt64.toNat_ofNat_of_lt' hbytes] at hlt
  rw [hpaid.costs, ← hremaining, Nat.mul_add]
  omega

-- Each instruction grows and moves no more than its fuel pays for, and less than one unit of
-- fuel more would.
theorem Effect.potential_lt (henabled : store.fuel.enabled) (h : Effect store moved (result, store')) :
    store'.potential + moved < store.potential + store.fuel.costs.bytesPerFuel.toNat := by
  have hpos := store.fuel.costs.bytesPerFuel_pos
  cases h with
  | @kept _ fuel _ hpaid =>
      obtain ⟨price, hpaid⟩ := hpaid
      have hle : fuel.remaining.toNat ≤ store.fuel.remaining.toNat :=
        Nat.le_of_add_right_le (Nat.le_of_eq hpaid.remaining)
      have hmul := Nat.mul_le_mul_left store.fuel.costs.bytesPerFuel.toNat hle
      show store.total + fuel.costs.bytesPerFuel.toNat * fuel.remaining.toNat + 0 <
        store.total + _ + store.fuel.costs.bytesPerFuel.toNat
      rw [hpaid.costs]
      omega
  | @wrote _ entity data bytes fuel hlength hbytes hpaid =>
      have hpay := paid_bytes henabled hbytes hpaid
      have htotal := total_setMemory store entity ((store.memories entity).withData data)
      rw [Memory.length_withData] at htotal
      show (store.setMemory entity _).total + fuel.costs.bytesPerFuel.toNat * fuel.remaining.toNat + moved <
        store.total + _ + store.fuel.costs.bytesPerFuel.toNat
      omega
  | @grew _ entity memory delta fuel _ hgrown hpaid =>
      have hbytes := Nat.lt_of_lt_of_le hgrown.fits.pageBytes_lt arch.pow_width_le
      have hpay := paid_bytes henabled hbytes hpaid
      have htotal := total_setMemory store entity memory
      rw [hgrown.data, List.length_append, List.length_replicate] at htotal
      show (store.setMemory entity _).total + fuel.costs.bytesPerFuel.toNat * fuel.remaining.toNat + 0 <
        store.total + _ + store.fuel.costs.bytesPerFuel.toNat
      omega
  | dropped => exact Nat.lt_add_of_pos_right hpos

end Keeps

section Example

-- A memory of up to six pages of a byte each, and the largest that there is.
def sixBytes : MemoryType where
  minimum := 0
  maximum := some 6
  pageSizeLog2 := 0
  indexType := .i32

def largest : MemoryType where
  minimum := 0
  maximum := some 0x1000000000000
  pageSizeLog2 := 16
  indexType := .i64

theorem sixBytes_valid : sixBytes.Valid := MemoryType.validate_eq_ok_iff.mp rfl

theorem largest_valid : largest.Valid := MemoryType.validate_eq_ok_iff.mp rfl

-- A store of one memory and of one data segment, and the module of both.
def oneStore (ty : { ty : MemoryType // ty.Valid }) (remaining : UInt64) : Store arch32 Unit 1 1 where
  memories _ := Memory.blank arch32 ty
  datas _ := some [1, 2, 3]
  fuel := { remaining, enabled := true, costs := { custom := none } }
  limiter := none

def oneModule : Instance 1 1 1 1 := ⟨id, id⟩

-- A limiter that is never asked, as there is none in the store.
def unlimited : ResourceLimiter Unit := ⟨fun state _ _ _ => (.ok true, state), fun state _ => state⟩

theorem oneStore_sized {ty : { ty : MemoryType // ty.Valid }} {remaining : UInt64}
    (hminimum : ty.1.minimum = 0) (entity : Fin 1) : ((oneStore ty remaining).memories entity).Sized :=
  Memory.sized_blank hminimum

-- It grows, is written, and copies a byte beyond its end at last.
def someOps : List (Op 1 1) :=
  [.memoryGrow 0 5 true, .memoryInit 0 0 1 0 3, .memoryCopy 0 0 2 1 3, .memoryFill 0 5 7 1]

end Example

section Run

variable {limits : ResourceLimiter L} {module : Instance m d M D} {store store' : Store arch L M D}
  {op : Op m d} {ops : List (Op m d)} {replies : List Reply} {ending : Option Error}

-- A run is empty, ends at its first instruction, or goes on behind it.
theorem run_cases (h : run limits module store ops = .ok (replies, ending, store')) :
    (ops = [] ∧ replies = [] ∧ ending = none ∧ store' = store) ∨
      (∃ op rest error, ops = op :: rest ∧ replies = [] ∧ ending = some error ∧
        execute limits module store op = .ok (.error error, store')) ∨
      ∃ op rest reply replies' between, ops = op :: rest ∧ replies = reply :: replies' ∧
        execute limits module store op = .ok (.ok reply, between) ∧
        run limits module between rest = .ok (replies', ending, store') := by
  cases ops with
  | nil =>
      cases Except.ok.inj h
      exact .inl ⟨rfl, rfl, rfl, rfl⟩
  | cons op rest =>
      unfold run at h
      obtain ⟨⟨result, between⟩, hop, h⟩ := bind_eq_ok.mp h
      cases result with
      | error error =>
          cases Except.ok.inj h
          exact .inr (.inl ⟨op, rest, error, rfl, rfl, rfl, hop⟩)
      | ok reply =>
          obtain ⟨⟨replies', ending', store''⟩, hrun, h⟩ := bind_eq_ok.mp h
          cases Except.ok.inj h
          exact .inr (.inr ⟨op, rest, reply, replies', between, rfl, rfl, hop, hrun⟩)

theorem run_keeps (hsized : ∀ entity, (store.memories entity).Sized)
    (h : run limits module store ops = .ok (replies, ending, store')) : Keeps store store' := by
  induction ops generalizing store replies with
  | nil =>
      cases Except.ok.inj h
      exact .of_paid (Fuel.paid_zero _)
  | cons op rest ih =>
      rcases run_cases h with ⟨hnil, _⟩ | ⟨_, _, error, hops, _, _, hop⟩ |
          ⟨_, _, reply, replies', between, hops, _, hop, hrun⟩
      · cases hnil
      · cases hops
        exact (execute_effect hsized hop).keeps
      · cases hops
        have hstep := (execute_effect hsized hop).keeps
        exact hstep.trans (ih (hstep.sized hsized) hrun)

-- A run that traps leaves what the instructions before the trap left.
theorem run_trapped (hsized : ∀ entity, (store.memories entity).Sized) {error : Error}
    (h : run limits module store ops = .ok (replies, some error, store')) :
    ∃ before, run limits module store (ops.take replies.length) = .ok (replies, none, before) ∧
      store'.memories = before.memories ∧ store'.datas = before.datas := by
  induction ops generalizing store replies with
  | nil => cases Except.ok.inj h
  | cons op rest ih =>
      rcases run_cases h with ⟨hnil, _⟩ | ⟨_, _, error, hops, rfl, _, hop⟩ |
          ⟨_, _, reply, replies', between, hops, rfl, hop, hrun⟩
      · cases hnil
      · cases hops
        exact ⟨store, rfl, (execute_effect hsized hop).trapped⟩
      · cases hops
        obtain ⟨before, hbefore, hsame⟩ := ih ((execute_effect hsized hop).keeps.sized hsized) hrun
        refine ⟨before, ?_, hsame⟩
        rw [List.length_cons, List.take_succ_cons, run, hop]
        simp only [bind, Except.bind, hbefore]

-- The memories are of whole pages in the bounds of their types, and never shrink. A run that
-- traps leaves what the instructions before the trap left.
theorem run_invariant (hsized : ∀ entity, (store.memories entity).Sized)
    (h : run limits module store ops = .ok (replies, ending, store')) :
    (∀ entity, (store'.memories entity).Sized) ∧ Keeps store store' ∧
      ∀ error, ending = some error →
        ∃ before, run limits module store (ops.take replies.length) = .ok (replies, none, before) ∧
          store'.memories = before.memories ∧ store'.datas = before.datas := by
  have hkeeps := run_keeps hsized h
  refine ⟨hkeeps.sized hsized, hkeeps, ?_⟩
  rintro error rfl
  exact run_trapped hsized h

theorem run_someOps : ∃ store', run unlimited oneModule (oneStore ⟨sixBytes, sixBytes_valid⟩ 9) someOps =
    .ok ([.size 0, .unit, .unit], some (.trapCode .memoryOutOfBounds), store') := ⟨_, rfl⟩

theorem run_invariant_someOps : ∃ store', Keeps (oneStore ⟨sixBytes, sixBytes_valid⟩ 9) store' := by
  obtain ⟨store', h⟩ := run_someOps
  exact ⟨store', (run_invariant (oneStore_sized rfl) h).2.1⟩

theorem potential_of_trapped (hkeeps : Keeps store store') (hmemories : store'.memories = store.memories) :
    store'.potential ≤ store.potential := by
  unfold Store.potential Store.total
  rw [hkeeps.costs, hmemories]
  exact Nat.add_le_add_left (Nat.mul_le_mul_left _ hkeeps.remaining) _

-- The bytes by which the memories grow and those that are moved are paid for, up to the last
-- unit of fuel of each instruction.
theorem run_paid (hsized : ∀ entity, (store.memories entity).Sized) (henabled : store.fuel.enabled)
    (h : run limits module store ops = .ok (replies, ending, store')) :
    store'.potential + ((ops.take replies.length).map Op.moved).sum ≤
      store.potential + (store.fuel.costs.bytesPerFuel.toNat - 1) * replies.length := by
  induction ops generalizing store replies with
  | nil =>
      cases Except.ok.inj h
      exact Nat.le_refl _
  | cons op rest ih =>
      rcases run_cases h with ⟨hnil, _⟩ | ⟨_, _, error, hops, rfl, _, hop⟩ |
          ⟨_, _, reply, replies', between, hops, rfl, hop, hrun⟩
      · cases hnil
      · cases hops
        have heffect := execute_effect hsized hop
        exact potential_of_trapped heffect.keeps heffect.trapped.1
      · cases hops
        have heffect := execute_effect hsized hop
        have hkeeps := heffect.keeps
        have hstep : between.potential + op.moved < _ := heffect.potential_lt henabled
        have hrest := ih (hkeeps.sized hsized) (by rw [hkeeps.enabled, henabled]) hrun
        rw [hkeeps.costs] at hrest
        rw [List.length_cons, List.take_succ_cons, List.map_cons, List.sum_cons, Nat.mul_succ]
        omega

theorem run_paid_someOps : ∃ store' : Store arch32 Unit 1 1,
    store'.potential + 6 ≤ (oneStore ⟨sixBytes, sixBytes_valid⟩ 9).potential + 63 * 3 := by
  obtain ⟨store', h⟩ := run_someOps
  exact ⟨store', run_paid (oneStore_sized rfl) rfl h⟩

end Run

section Panics

variable {limits : ResourceLimiter L} {module : Instance m d M D} {store store' : Store arch L M D}
  {op : Op m d} {ops : List (Op m d)}

-- The instructions that take the interpreter down: growing a memory whose maximum it cannot
-- measure, and copying between two memories of the module that are one.
def Op.Panics (module : Instance m d M D) (types : Fin M → MemoryType) (arch : Arch) : Op m d → Prop
  | .memoryGrow memory delta _ => delta ≠ 0 ∧ (types (module.memories memory)).Unmeasurable
  | .memoryCopy dstMemory srcMemory dst src len =>
      (indices arch dst src len).isSome ∧ srcMemory ≠ dstMemory ∧
        module.memories srcMemory = module.memories dstMemory
  | _ => False

def Store.types (store : Store arch L M D) (entity : Fin M) : MemoryType := (store.memories entity).ty

-- The memories of a store that are not static, as those of a module are.
def Store.OnHeap (store : Store arch L M D) : Prop :=
  ∀ entity, (store.memories entity).Sized ∧ (store.memories entity).bytes.static = none

theorem Keeps.onHeap (h : Keeps store store') (hheap : store.OnHeap) : store'.OnHeap := fun entity =>
  ⟨h.sized (fun entity => (hheap entity).1) entity, by rw [h.static, (hheap entity).2]⟩

theorem Keeps.types (h : Keeps store store') : store'.types = store.types := funext h.ty

theorem growReply_ok (ty : MemoryType) {result : Except MemoryError Nat}
    (h : ∀ error, result = .error error → Memory.MemoryError.Growing error) :
    ∃ reply, growReply ty result = .ok reply := by
  cases result with
  | ok pages => exact ⟨_, rfl⟩
  | error error =>
      obtain ⟨told, htold⟩ := h error rfl
      cases error <;> first | exact ⟨_, rfl⟩ | cases htold

theorem outcome_growing {memory : Memory arch} {delta : UInt64} {fuel : Option Fuel} {growth : Growth arch L}
    (hstatic : memory.bytes.static = none) (h : Memory.Outcome memory delta fuel growth) :
    ∀ error, growth.result = .error error → Memory.MemoryError.Growing error := by
  intro error herror
  cases h with
  | refused _ hgrowing =>
      rw [hstatic] at hgrowing
      cases herror
      exact hgrowing.resolve_right (by simp)
  | grown => cases herror

theorem memoryGrow_returns_iff (hheap : store.OnHeap) {memory : Fin m} {delta : UInt64} {allocs : Bool}
    (hdelta : delta ≠ 0) :
    (∃ done, executeMemoryGrow limits module store memory delta allocs = .ok done) ↔
      ∃ growth, (store.memories (module.memories memory)).grow limits delta allocs (some store.fuel)
        store.limiter = .ok growth := by
  obtain ⟨hsized, hstatic⟩ := hheap (module.memories memory)
  unfold executeMemoryGrow
  rw [if_neg hdelta]
  constructor
  · rintro ⟨done, h⟩
    obtain ⟨growth, hgrow, _⟩ := bind_eq_ok.mp h
    exact ⟨growth, hgrow⟩
  · rintro ⟨growth, hgrow⟩
    obtain ⟨reply, hreply⟩ := growReply_ok (store.memories (module.memories memory)).ty
      (outcome_growing hstatic (Memory.grow_outcome hsized hgrow))
    exact ⟨_, bind_eq_ok.mpr ⟨growth, hgrow, bind_eq_ok.mpr ⟨reply, hreply, rfl⟩⟩⟩

theorem execute_panics_iff (hheap : store.OnHeap) :
    (¬∃ done, execute limits module store op = .ok done) ↔ op.Panics module store.types arch := by
  cases op with
  | memoryGrow memory delta allocs =>
      obtain ⟨hsized, hstatic⟩ := hheap (module.memories memory)
      show (¬∃ done, executeMemoryGrow limits module store memory delta allocs = .ok done) ↔
        delta ≠ 0 ∧ (store.memories (module.memories memory)).ty.Unmeasurable
      by_cases hzero : delta = 0
      · unfold executeMemoryGrow
        rw [if_pos hzero]
        exact iff_of_false (by simp) fun h => h.1 hzero
      · rw [memoryGrow_returns_iff hheap hzero, Memory.grow_panics_iff hsized (.inr hstatic)]
  | memoryCopy dstMemory srcMemory dst src len =>
      show (¬∃ done, executeMemoryCopy module store dstMemory srcMemory dst src len = .ok done) ↔
        (indices arch dst src len).isSome ∧ srcMemory ≠ dstMemory ∧
          module.memories srcMemory = module.memories dstMemory
      unfold executeMemoryCopy
      cases indices arch dst src len with
      | none => simp
      | some indexed =>
          dsimp only
          by_cases halias : srcMemory ≠ dstMemory ∧ module.memories srcMemory = module.memories dstMemory
          · rw [if_pos halias]
            exact iff_of_true (by simp) ⟨rfl, halias⟩
          · rw [if_neg halias]
            refine iff_of_false (not_not.mpr ?_) fun h => halias h.2
            split <;> exact ⟨_, rfl⟩
  | _ => exact iff_of_false (by simp [execute]) id

theorem run_cons_ok {reply : Reply} (hop : execute limits module store op = .ok (.ok reply, store')) :
    run limits module store (op :: ops) =
      (run limits module store' ops).map fun (replies, ending, store) => (reply :: replies, ending, store) := by
  rw [run, hop]
  show (run limits module store' ops >>= _) = _
  cases run limits module store' ops <;> rfl

-- A run panics where it comes to such an instruction, and at nothing else.
theorem run_panics_iff (hheap : store.OnHeap) :
    (¬∃ done, run limits module store ops = .ok done) ↔
      ∃ front op rest replies store', ops = front ++ op :: rest ∧
        run limits module store front = .ok (replies, none, store') ∧ op.Panics module store.types arch := by
  induction ops generalizing store with
  | nil =>
      refine iff_of_false (not_not.mpr ⟨_, rfl⟩) ?_
      rintro ⟨front, op, rest, _, _, hnil, _⟩
      cases front <;> cases hnil
  | cons op ops ih =>
      have hpanics : op.Panics module store.types arch ↔ ¬∃ done, execute limits module store op = .ok done :=
        (execute_panics_iff hheap).symm
      cases hop : execute limits module store op with
      | error fault =>
          have hnot : ¬∃ done, execute limits module store op = .ok done := by simp [hop]
          refine iff_of_true ?_ ⟨[], op, ops, [], store, rfl, rfl, hpanics.mpr hnot⟩
          rw [run, hop]
          rintro ⟨_, ⟨⟩⟩
      | ok done =>
          have hquiet : ¬op.Panics module store.types arch := fun h => hpanics.mp h ⟨done, hop⟩
          obtain ⟨result, store'⟩ := done
          cases result with
          | error error =>
              refine iff_of_false (not_not.mpr ⟨_, by rw [run, hop]; rfl⟩) ?_
              rintro ⟨front, op', rest, replies, store'', hops, hfront, hpanic⟩
              cases front with
              | nil =>
                  cases hops
                  exact hquiet hpanic
              | cons first front =>
                  cases hops
                  rw [run, hop] at hfront
                  cases hfront
          | ok reply =>
              have hkeeps := (execute_effect (fun entity => (hheap entity).1) hop).keeps
              have hrest := ih (hkeeps.onHeap hheap)
              rw [hkeeps.types] at hrest
              have hmap : (∃ done, run limits module store (op :: ops) = .ok done) ↔
                  ∃ done, run limits module store' ops = .ok done := by
                rw [run_cons_ok hop]
                cases run limits module store' ops <;> simp [Except.map]
              rw [not_congr hmap, hrest]
              constructor
              · rintro ⟨front, op', rest, replies, store'', hops, hfront, hpanic⟩
                refine ⟨op :: front, op', rest, reply :: replies, store'', by rw [hops]; rfl, ?_, hpanic⟩
                rw [run_cons_ok hop, hfront]
                rfl
              · rintro ⟨front, op', rest, replies, store'', hops, hfront, hpanic⟩
                cases front with
                | nil =>
                    cases hops
                    exact absurd hpanic hquiet
                | cons first front =>
                    cases hops
                    rw [run_cons_ok hop] at hfront
                    obtain ⟨⟨replies', ending', after⟩, hrun, heq⟩ := map_eq_ok.mp hfront
                    cases heq
                    exact ⟨front, op', rest, replies', _, rfl, hrun, hpanic⟩

theorem oneStore_onHeap {ty : { ty : MemoryType // ty.Valid }} {remaining : UInt64}
    (hminimum : ty.1.minimum = 0) : (oneStore ty remaining).OnHeap := fun _ =>
  ⟨Memory.sized_blank hminimum, rfl⟩

-- A page more panics, though the memory is of no bytes yet.
theorem run_panics_largest : ¬∃ done, run unlimited oneModule (oneStore ⟨largest, largest_valid⟩ 1000000)
    [.memorySize 0, .memoryGrow 0 1 true] = .ok done :=
  (run_panics_iff (oneStore_onHeap rfl)).mpr ⟨[.memorySize 0], .memoryGrow 0 1 true, [], [.size 0], _, rfl, rfl,
    by decide, (MemoryType.unmeasurable_iff largest_valid).mpr ⟨rfl, rfl, rfl⟩⟩

end Panics

end Milo.Runtime.Wasmi
