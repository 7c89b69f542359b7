import Milo.Lib.LittleEndian
import Milo.Lib.Window
import Milo.Runtime.Wasmi.MemoryType

namespace Milo.Runtime.Wasmi

open Milo.Lib Milo.Rust

-- A value that takes n bytes in memory is its bits: of an integer or of a float.
abbrev Scalar (n : Nat) := BitVec (8 * n)

namespace Scalar

variable {n : Nat}

def intoLeBytes (value : Scalar n) : Bytes := LittleEndian.toBytes n value.toNat

def fromLeBytes (n : Nat) (bytes : Bytes) : Scalar n := BitVec.ofNat (8 * n) (LittleEndian.ofBytes bytes)

@[simp] theorem length_intoLeBytes (value : Scalar n) : value.intoLeBytes.length = n :=
  LittleEndian.length_toBytes n _

theorem fromLeBytes_toBytes (n value : Nat) :
    fromLeBytes n (LittleEndian.toBytes n value) = BitVec.ofNat (8 * n) value := by
  apply BitVec.eq_of_toNat_eq
  unfold fromLeBytes
  rw [BitVec.toNat_ofNat, BitVec.toNat_ofNat, LittleEndian.ofBytes_toBytes, Nat.pow_mul]
  exact Nat.mod_mod _ _

theorem fromLeBytes_intoLeBytes (value : Scalar n) : fromLeBytes n value.intoLeBytes = value := by
  unfold intoLeBytes
  rw [fromLeBytes_toBytes, BitVec.ofNat_toNat, BitVec.setWidth_eq]

end Scalar

-- The conversions between values of different widths, by WrapInto and ExtendInto.
inductive Extend where
  | signed
  | unsigned

def wrapInto {n : Nat} (m : Nat) (value : Scalar n) : Scalar m := value.setWidth (8 * m)

def extendInto {m : Nat} (n : Nat) (extend : Extend) (value : Scalar m) : Scalar n :=
  match extend with
  | .signed => value.signExtend (8 * n)
  | .unsigned => value.setWidth (8 * n)

section Access

variable (arch : Arch)

def effectiveAddress (ptr offset : UInt64) : Except TrapCode Nat :=
  match (checkedAdd64 ptr.toNat offset.toNat).bind arch.tryUsize with
  | some address => .ok address
  | none => .error .memoryOutOfBounds

def loadAt (n : Nat) (memory : Bytes) (address : Nat) : Except TrapCode (Scalar n) :=
  match window memory address n with
  | some bytes => .ok (Scalar.fromLeBytes n bytes)
  | none => .error .memoryOutOfBounds

def storeAt {n : Nat} (memory : Bytes) (address : Nat) (value : Scalar n) : Except TrapCode Bytes :=
  match window memory address n with
  | some _ => .ok (overwrite memory address value.intoLeBytes)
  | none => .error .memoryOutOfBounds

def load (n : Nat) (memory : Bytes) (ptr offset : UInt64) : Except TrapCode (Scalar n) := do
  let address ← effectiveAddress arch ptr offset
  loadAt n memory address

def loadExtendAt (m n : Nat) (extend : Extend) (memory : Bytes) (address : Nat) :
    Except TrapCode (Scalar n) :=
  (loadAt m memory address).map (extendInto n extend)

def loadExtend (m n : Nat) (extend : Extend) (memory : Bytes) (ptr offset : UInt64) :
    Except TrapCode (Scalar n) := do
  let address ← effectiveAddress arch ptr offset
  loadExtendAt m n extend memory address

def store {n : Nat} (memory : Bytes) (ptr offset : UInt64) (value : Scalar n) : Except TrapCode Bytes := do
  let address ← effectiveAddress arch ptr offset
  storeAt memory address value

def storeWrapAt {n : Nat} (m : Nat) (memory : Bytes) (address : Nat) (value : Scalar n) :
    Except TrapCode Bytes :=
  storeAt memory address (wrapInto m value)

def storeWrap {n : Nat} (m : Nat) (memory : Bytes) (ptr offset : UInt64) (value : Scalar n) :
    Except TrapCode Bytes := do
  let address ← effectiveAddress arch ptr offset
  storeWrapAt m memory address value

end Access

section Spec

variable {arch : Arch} {memory memory' : Bytes} {ptr offset : UInt64} {address n m : Nat}

theorem storeAt_ok {value : Scalar n} (h : storeAt memory address value = .ok memory') :
    address + n ≤ memory.length ∧ memory' = overwrite memory address value.intoLeBytes := by
  unfold storeAt at h
  split at h
  next hwindow => exact ⟨(window_eq_some hwindow).1, (Except.ok.inj h).symm⟩
  next => cases h

theorem length_storeAt {value : Scalar n} (h : storeAt memory address value = .ok memory') :
    memory'.length = memory.length := by
  obtain ⟨hle, rfl⟩ := storeAt_ok h
  exact length_overwrite (by rwa [Scalar.length_intoLeBytes])

theorem loadAt_storeAt {value : Scalar n} (h : storeAt memory address value = .ok memory') :
    loadAt n memory' address = .ok value := by
  obtain ⟨hle, rfl⟩ := storeAt_ok h
  have hself : window (overwrite memory address value.intoLeBytes) address value.intoLeBytes.length =
      some value.intoLeBytes := window_overwrite_self (by rwa [Scalar.length_intoLeBytes])
  rw [Scalar.length_intoLeBytes] at hself
  unfold loadAt
  rw [hself]
  dsimp only
  rw [Scalar.fromLeBytes_intoLeBytes]

-- What lies beside the bytes stored is loaded as before.
theorem loadAt_storeAt_apart {value : Scalar n} {address' : Nat}
    (h : storeAt memory address value = .ok memory')
    (hapart : address' + m ≤ address ∨ address + n ≤ address') :
    loadAt m memory' address' = loadAt m memory address' := by
  obtain ⟨hle, rfl⟩ := storeAt_ok h
  unfold loadAt
  rw [window_overwrite_disjoint (by rwa [Scalar.length_intoLeBytes]) (by rwa [Scalar.length_intoLeBytes])]

theorem effectiveAddress_eq (hfits : memory.length < 2 ^ arch.width) (ptr offset : UInt64) :
    effectiveAddress arch ptr offset = .ok (ptr.toNat + offset.toNat) ∨
      effectiveAddress arch ptr offset = .error .memoryOutOfBounds ∧
        memory.length < ptr.toNat + offset.toNat := by
  have hpow := arch.pow_width_le
  unfold effectiveAddress checkedAdd64 Arch.tryUsize
  split_ifs with hadd
  · rw [Option.bind_some]
    split_ifs with husize
    · exact .inl rfl
    · exact .inr ⟨rfl, by omega⟩
  · exact .inr ⟨rfl, by omega⟩

theorem load_eq (hfits : memory.length < 2 ^ arch.width) (n : Nat) (ptr offset : UInt64) :
    load arch n memory ptr offset = loadAt n memory (ptr.toNat + offset.toNat) := by
  unfold load
  rcases effectiveAddress_eq hfits ptr offset with haddress | ⟨haddress, hover⟩
  · rw [haddress]
    rfl
  · rw [haddress, loadAt, (window_eq_none _ _ _).mpr (by omega)]
    rfl

theorem loadExtend_eq (hfits : memory.length < 2 ^ arch.width) (m n : Nat) (extend : Extend)
    (ptr offset : UInt64) : loadExtend arch m n extend memory ptr offset =
      (loadAt m memory (ptr.toNat + offset.toNat)).map (extendInto n extend) := by
  rw [← load_eq hfits]
  unfold loadExtend load
  cases effectiveAddress arch ptr offset <;> rfl

theorem storeWrap_eq (hfits : memory.length < 2 ^ arch.width) (m : Nat) (ptr offset : UInt64)
    (value : Scalar n) : storeWrap arch m memory ptr offset value =
      storeAt memory (ptr.toNat + offset.toNat) (wrapInto m value) := by
  unfold storeWrap
  rcases effectiveAddress_eq hfits ptr offset with haddress | ⟨haddress, hover⟩
  · rw [haddress]
    rfl
  · rw [haddress, storeAt, (window_eq_none _ _ _).mpr (by omega)]
    rfl

-- An access is to the sum of pointer and offset, which does not wrap, or a trap. What a store
-- leaves is loaded back, cut to the bytes stored, and every other byte is as before.
theorem storeWrap_loadExtend (hfits : memory.length < 2 ^ arch.width) (m : Nat) (ptr offset : UInt64)
    (value : Scalar n) :
    (ptr.toNat + offset.toNat + m ≤ memory.length ∧
        ∃ memory', storeWrap arch m memory ptr offset value = .ok memory' ∧
          memory'.length = memory.length ∧
          (∀ k extend, loadExtend arch m k extend memory' ptr offset =
            .ok (extendInto k extend (wrapInto m value))) ∧
          ∀ i, i < ptr.toNat + offset.toNat ∨ ptr.toNat + offset.toNat + m ≤ i → memory'[i]? = memory[i]?) ∨
      memory.length < ptr.toNat + offset.toNat + m ∧
        storeWrap arch m memory ptr offset value = .error .memoryOutOfBounds ∧
        ∀ k extend, loadExtend arch m k extend memory ptr offset = .error .memoryOutOfBounds := by
  rw [storeWrap_eq hfits]
  by_cases hle : ptr.toNat + offset.toNat + m ≤ memory.length
  · left
    have hstore : storeAt memory (ptr.toNat + offset.toNat) (wrapInto m value) =
        .ok (overwrite memory (ptr.toNat + offset.toNat) (wrapInto m value).intoLeBytes) := by
      unfold storeAt
      rw [window_of_le hle]
    have hlength := length_storeAt hstore
    refine ⟨hle, _, hstore, hlength, fun k extend => ?_, fun i hi => ?_⟩
    · rw [loadExtend_eq (by rwa [hlength]), loadAt_storeAt hstore]
      rfl
    · have hbytes := (wrapInto m value).length_intoLeBytes
      rw [getElem?_overwrite (by omega), if_neg (by omega)]
  · right
    have hnone := (window_eq_none memory (ptr.toNat + offset.toNat) m).mpr (by omega)
    refine ⟨by omega, by rw [storeAt, hnone], fun k extend => ?_⟩
    rw [loadExtend_eq hfits, loadAt, hnone]
    rfl

theorem storeWrap_loadExtend_byte : ∃ memory',
    storeWrap arch32 1 [0, 0, 0, 0] 1 2 (0x1ff : Scalar 4) = .ok memory' ∧
    loadExtend arch32 1 4 .signed memory' 1 2 = .ok 0xffffffff := by
  have hfits : ([0, 0, 0, 0] : Bytes).length < 2 ^ arch32.width := by decide
  rcases storeWrap_loadExtend hfits 1 1 2 (0x1ff : Scalar 4) with
    ⟨_, memory', hstore, _, hload, _⟩ | ⟨hover, _⟩
  · refine ⟨memory', hstore, ?_⟩
    rw [hload]
    rfl
  · exact absurd hover (by decide)

end Spec

end Milo.Runtime.Wasmi
