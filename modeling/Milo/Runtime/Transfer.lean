import Milo.Runtime.Ranges

namespace Milo.Runtime

open Milo.Rust

-- The addresses from ptr up to ptr + len are addresses of the linear memory.
def Inside (memory : Option Bytes) (ptr len : UInt32) : Prop :=
  ∃ data, memory = some data ∧
    ∀ a, ptr.toNat ≤ a → a < ptr.toNat + len.toNat → a < data.length

theorem inside_some (data : Bytes) (ptr len : UInt32) :
    Inside (some data) ptr len ↔ len = 0 ∨ ptr.toNat + len.toNat ≤ data.length := by
  have hlen : len = 0 ↔ len.toNat = 0 := by rw [← UInt32.toNat_inj]; rfl
  constructor
  · rintro ⟨d, hd, h⟩
    obtain rfl := Option.some.inj hd
    rcases Nat.eq_zero_or_pos len.toNat with hz | hpos
    · exact .inl (hlen.mpr hz)
    · have hlast := h (ptr.toNat + len.toNat - 1) (by omega) (by omega)
      exact .inr (by omega)
  · intro h
    refine ⟨data, rfl, fun a h1 h2 => ?_⟩
    rcases h with hz | h
    · have hz := hlen.mp hz
      omega
    · omega

-- What a bus syscall owes the module and the device.
structure Confined {H : Type} (s : HostState H) (txPtr txLen rxPtr rxLen : UInt32)
    (outcome : Except Fault (Int32 × HostState H)) : Prop where
  returns : ∃ result s', outcome = .ok (result, s')
  refuses : ∀ result s', outcome = .ok (result, s') →
    ¬(Inside s.memory txPtr txLen ∧ Inside s.memory rxPtr rxLen) →
      result < 0 ∧ s'.hw = s.hw ∧ s'.transfers = s.transfers ∧ s'.memory = s.memory

-- The ranges lie inside the memory, none of their ends overflows, and the buffer can
-- be allocated. The answer is the one the bus gives.
structure Fits (build : Build) (data : Bytes) (answer : Int32) (txPtr txLen rxPtr rxLen : UInt32) :
    Prop where
  tx : txPtr.toNat + txLen.toNat ≤ data.length
  tx_sum : txPtr.toNat + txLen.toNat < 2 ^ 32
  rx : rxLen = 0 ∨ rxPtr.toNat + rxLen.toNat ≤ data.length
  rx_sum : rxLen = 0 ∨ answer ≠ 0 ∨ rxPtr.toNat + rxLen.toNat < 2 ^ 32
  rx_buf : rxLen.toNat < 2 ^ (build.width - 1)

-- The bytes a bus is given.
def sent (data : Bytes) (txPtr txLen : UInt32) : Bytes :=
  (data.take (txPtr.toNat + txLen.toNat)).drop txPtr.toNat

section Transfer

variable {H : Type} (build : Build) (s : HostState H)
variable (transact : H → Bytes → {n : Nat} → Vector UInt8 n → Int32 × Vector UInt8 n × H)
variable (transfer : Bytes → Transfer) (txPtr txLen rxPtr rxLen : UInt32)

-- The transaction of a call whose transmit range fits.
def transaction (data : Bytes) : Int32 × Vector UInt8 rxLen.toNat × H :=
  transact s.hw (sent data txPtr txLen) (Vector.replicate rxLen.toNat 0)

theorem busTransfer_none (h : s.memory = none) :
    busTransfer build s transact transfer txPtr txLen rxPtr rxLen = .ok (-1, s) := by
  unfold busTransfer
  rw [h]

-- Nothing is checked before the transaction, and behind it only by the panics.
theorem busTransfer_cases {data : Bytes} (hdata : s.memory = some data) {result : Int32}
    {s' : HostState H}
    (h : busTransfer build s transact transfer txPtr txLen rxPtr rxLen = .ok (result, s')) :
    txPtr.toNat + txLen.toNat ≤ data.length ∧ txPtr.toNat + txLen.toNat < 2 ^ 32 ∧
      rxLen.toNat < 2 ^ (build.width - 1) ∧
      result = (transaction s transact txPtr txLen rxLen data).1 ∧
      s'.transfers = s.transfers ++ [transfer (sent data txPtr txLen)] ∧
      (result = 0 → 0 < rxLen → rxPtr.toNat + rxLen.toNat < 2 ^ 32) := by
  unfold busTransfer at h
  rw [hdata] at h
  dsimp only at h
  obtain ⟨txEnd, hend, h⟩ := bind_eq_ok.mp h
  obtain ⟨txOwned, hslice, h⟩ := bind_eq_ok.mp h
  obtain ⟨rxBuf, hzero, h⟩ := bind_eq_ok.mp h
  unfold slice at hslice
  split_ifs at hslice with hrange
  obtain ⟨rfl, hsum⟩ := build.checkedAdd_eq_ok txPtr.toNat_lt txLen.toNat_lt hend hrange.1
  obtain rfl := Except.ok.inj hslice
  unfold Build.zeroes at hzero
  split_ifs at hzero with hsmall
  obtain rfl := Except.ok.inj hzero
  refine ⟨hrange.2, hsum, hsmall, ?_⟩
  split_ifs at h with hback
  · obtain ⟨rxEnd, hend', h⟩ := bind_eq_ok.mp h
    obtain ⟨data', hcopy, h⟩ := bind_eq_ok.mp h
    obtain ⟨rfl, rfl⟩ := Prod.mk.inj (Except.ok.inj h)
    unfold copyFromSlice at hcopy
    split_ifs at hcopy with hfit
    obtain ⟨-, hsum'⟩ := build.checkedAdd_eq_ok rxPtr.toNat_lt rxLen.toNat_lt hend' hfit.1
    exact ⟨rfl, rfl, fun _ _ => hsum'⟩
  · obtain ⟨rfl, rfl⟩ := Prod.mk.inj (Except.ok.inj h)
    exact ⟨rfl, rfl, fun hz hpos => absurd ⟨hz, hpos⟩ hback⟩

-- What a call does whose ranges fit. A success brings the buffer into the memory.
theorem busTransfer_eq {data : Bytes} (hdata : s.memory = some data)
    (h : Fits build data (transaction s transact txPtr txLen rxLen data).1 txPtr txLen rxPtr rxLen) :
    busTransfer build s transact transfer txPtr txLen rxPtr rxLen =
      .ok ((transaction s transact txPtr txLen rxLen data).1,
        { s with
          hw := (transaction s transact txPtr txLen rxLen data).2.2
          memory := some (if (transaction s transact txPtr txLen rxLen data).1 = 0 then
            splice data rxPtr (transaction s transact txPtr txLen rxLen data).2.1.toList else data)
          transfers := s.transfers ++ [transfer (sent data txPtr txLen)] }) := by
  have htx : build.addU32 txPtr txLen = .ok (txPtr.toNat + txLen.toNat) :=
    build.checkedAdd_of_lt h.tx_sum
  have hslice : slice data txPtr.toNat (txPtr.toNat + txLen.toNat) = .ok (sent data txPtr txLen) :=
    if_pos ⟨Nat.le_add_right _ _, h.tx⟩
  have hzero : build.zeroes rxLen.toNat = .ok (Vector.replicate rxLen.toNat 0) := if_pos h.rx_buf
  simp only [busTransfer, hdata, htx, hslice, hzero, bind, Except.bind]
  change (if (transaction s transact txPtr txLen rxLen data).1 = 0 ∧ 0 < rxLen then _ else _) = _
  have hbytes : (transaction s transact txPtr txLen rxLen data).2.1.toList.length = rxLen.toNat :=
    Vector.length_toList
  split_ifs with hback hanswer hanswer
  · obtain ⟨hanswer, hpos⟩ := hback
    have hrx : rxLen ≠ 0 := by rintro rfl; exact absurd hpos (by decide)
    have hsum : rxPtr.toNat + rxLen.toNat < 2 ^ 32 := by
      rcases h.rx_sum with hz | hne | hsum
      · exact absurd hz hrx
      · exact absurd hanswer hne
      · exact hsum
    have hfit := h.rx.resolve_left hrx
    have hend : build.addU32 rxPtr rxLen = .ok (rxPtr.toNat + rxLen.toNat) :=
      build.checkedAdd_of_lt hsum
    have hcopy : copyFromSlice data rxPtr.toNat (rxPtr.toNat + rxLen.toNat)
        (transaction s transact txPtr txLen rxLen data).2.1.toList =
          .ok (splice data rxPtr (transaction s transact txPtr txLen rxLen data).2.1.toList) := by
      unfold copyFromSlice splice
      rw [hbytes]
      exact if_pos ⟨Nat.le_add_right _ _, hfit, by omega⟩
    simp only [hend]
    change (copyFromSlice data rxPtr.toNat (rxPtr.toNat + rxLen.toNat)
        (transaction s transact txPtr txLen rxLen data).2.1.toList >>= _) = _
    rw [hcopy]
    rfl
  · exact absurd hback.1 hanswer
  · have hz : rxLen.toNat = 0 := by
      by_contra hne
      exact hback ⟨hanswer, UInt32.lt_iff_toNat_lt.mpr (Nat.pos_of_ne_zero hne)⟩
    rw [List.length_eq_zero_iff.mp (hbytes.trans hz), splice_nil]
    rfl
  · rfl

theorem busTransfer_returns {data : Bytes} (hdata : s.memory = some data)
    (h : Fits build data (transaction s transact txPtr txLen rxLen data).1 txPtr txLen rxPtr rxLen) :
    ∃ result s', busTransfer build s transact transfer txPtr txLen rxPtr rxLen =
      .ok (result, s') :=
  ⟨_, _, busTransfer_eq build s transact transfer txPtr txLen rxPtr rxLen hdata h⟩

theorem confined_busTransfer_iff :
    Confined s txPtr txLen rxPtr rxLen
        (busTransfer build s transact transfer txPtr txLen rxPtr rxLen) ↔
      ∀ data, s.memory = some data →
        Fits build data (transaction s transact txPtr txLen rxLen data).1 txPtr txLen rxPtr rxLen := by
  constructor
  · intro h data hdata
    obtain ⟨result, s', heq⟩ := h.returns
    obtain ⟨htx, hsum, hbuf, hresult, htransfers, hback⟩ :=
      busTransfer_cases build s transact transfer txPtr txLen rxPtr rxLen hdata heq
    have hrx : Inside s.memory rxPtr rxLen := by
      by_contra hout
      have hkept := (h.refuses result s' heq fun hin => hout hin.2).2.2.1
      rw [htransfers] at hkept
      simp at hkept
    rw [hdata, inside_some] at hrx
    refine ⟨htx, hsum, hrx, ?_, hbuf⟩
    by_cases hz : rxLen = 0
    · exact .inl hz
    · by_cases hanswer : result = 0
      · exact .inr (.inr (hback hanswer (UInt32.pos_iff_ne_zero.mpr hz)))
      · exact .inr (.inl (hresult ▸ hanswer))
  · intro h
    cases hdata : s.memory with
    | none =>
        have heq := busTransfer_none build s transact transfer txPtr txLen rxPtr rxLen hdata
        refine ⟨⟨_, _, heq⟩, fun result s' heq' _ => ?_⟩
        rw [heq] at heq'
        obtain ⟨rfl, rfl⟩ := Prod.mk.inj (Except.ok.inj heq')
        exact ⟨by decide, rfl, rfl, rfl⟩
    | some data =>
        have hfits := h data hdata
        refine ⟨busTransfer_returns build s transact transfer txPtr txLen rxPtr rxLen hdata hfits,
          fun result s' _ hout => absurd ⟨?_, ?_⟩ hout⟩
        · rw [hdata]
          exact (inside_some ..).mpr (.inr hfits.tx)
        · rw [hdata]
          exact (inside_some ..).mpr hfits.rx

end Transfer

-- Both bus syscalls are confined to the module's memory on the calls whose ranges fit
-- and on no others.
theorem transfer_confined_iff {H : Type} (build : Build) (hardware : MiloHardware H)
    (s : HostState H) (txPtr txLen rxPtr rxLen : UInt32) :
    (∀ addr : UInt32,
      Confined s txPtr txLen rxPtr rxLen
          (i2cTransfer build hardware s addr txPtr txLen rxPtr rxLen) ↔
        ∀ data, s.memory = some data →
          Fits build data
            (hardware.i2cTransfer s.hw addr.toUInt8 (sent data txPtr txLen)
              (Vector.replicate rxLen.toNat 0)).1
            txPtr txLen rxPtr rxLen) ∧
    (∀ bus : UInt32,
      Confined s txPtr txLen rxPtr rxLen
          (spiTransfer build hardware s bus txPtr txLen rxPtr rxLen) ↔
        ∀ data, s.memory = some data →
          Fits build data
            (hardware.spiTransfer s.hw bus (sent data txPtr txLen)
              (Vector.replicate rxLen.toNat 0)).1
            txPtr txLen rxPtr rxLen) :=
  ⟨fun _ => confined_busTransfer_iff .., fun _ => confined_busTransfer_iff ..⟩

def onePage : HostState UInt64 :=
  { hw := 0, memory := some (List.replicate 65536 0), logs := [], transfers := [] }

theorem length_onePage : (List.replicate 65536 (0 : UInt8)).length = 65536 := List.length_replicate

-- A byte to send, or to receive, from just behind the one page of the module.
theorem transfer_escapes :
    ¬Confined onePage 65536 1 0 0 (i2cTransfer release64 laptopMock onePage 0x48 65536 1 0 0) ∧
      ¬Confined onePage 0 0 65536 1 (spiTransfer release64 laptopMock onePage 0 0 0 65536 1) := by
  constructor
  · intro h
    have hfits := (confined_busTransfer_iff ..).mp h _ rfl
    have htx := hfits.tx
    rw [length_onePage] at htx
    exact absurd htx (by decide)
  · intro h
    have hfits := (confined_busTransfer_iff ..).mp h _ rfl
    have hrx := hfits.rx.resolve_left (by decide)
    rw [length_onePage] at hrx
    exact absurd hrx (by decide)

end Milo.Runtime
