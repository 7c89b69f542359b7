import Milo.Hal.Adapter
import Milo.Runtime.Ranges

namespace Milo.Runtime

open Milo.Rust

-- The contract of the UARTs of a backend, in the state it is in: a read answers with at
-- most the length of the buffer, and a positive answer is the number of bytes that it has
-- taken from the line into the buffer. The bytes taken so far are read off the backend.
structure UartContract {H : Type} (hardware : MiloHardware H) (taken : H → UInt32 → Bytes) (hw : H) :
    Prop where
  le : ∀ (bus : UInt32) {n : Nat} (buf : Vector UInt8 n) (timeoutMs : UInt32),
    (hardware.uartRead hw bus buf timeoutMs).1.toNatClampNeg ≤ n
  takes : ∀ (bus : UInt32) {n : Nat} (buf : Vector UInt8 n) (timeoutMs : UInt32),
    taken (hardware.uartRead hw bus buf timeoutMs).2.2 bus = taken hw bus ++
      (hardware.uartRead hw bus buf timeoutMs).2.1.toList.take
        (hardware.uartRead hw bus buf timeoutMs).1.toNatClampNeg

section Receive

variable {H : Type} (build : Build) (hardware : MiloHardware H) (s : HostState H)

-- The backend as a uart_read leaves it, whether it returns or panics.
def readBackend (bus lenMax timeoutMs : UInt32) : H :=
  match s.memory with
  | none => s.hw
  | some _ =>
      if lenMax.toNat < 2 ^ (build.width - 1) then (received hardware s bus lenMax timeoutMs).2.2
      else s.hw

-- The module gets the bytes that are taken from the line, where it wants them, and none is
-- taken for a destination that is not in its memory.
structure Lossless (taken : H → UInt32 → Bytes) (bus ptr lenMax timeoutMs : UInt32) (size : Nat) :
    Prop where
  delivered : ∀ n s', uartRead build hardware s bus ptr lenMax timeoutMs = .ok (n, s') → 0 < n →
    ∃ data bytes, s.memory = some data ∧ bytes.length = n.toNatClampNeg ∧
      taken s'.hw bus = taken s.hw bus ++ bytes ∧ Lies s.memory ptr bytes.length ∧
      s'.memory = some (splice data ptr bytes)
  spared : ¬Lies s.memory ptr size →
    taken (readBackend build hardware s bus lenMax timeoutMs) bus = taken s.hw bus

variable {build hardware s} {bus ptr lenMax timeoutMs : UInt32}

theorem toNatClampNeg_pos {n : Int32} (h : 0 < n) : 0 < n.toNatClampNeg := by
  have hint := Int32.lt_iff_toInt_lt.mp h
  have hzero : (0 : Int32).toInt = 0 := rfl
  unfold Int32.toNatClampNeg
  omega

theorem toNatClampNeg_of_not_pos {n : Int32} (h : ¬0 < n) : n.toNatClampNeg = 0 := by
  have hint := mt Int32.lt_iff_toInt_lt.mpr h
  have hzero : (0 : Int32).toInt = 0 := rfl
  unfold Int32.toNatClampNeg
  omega

variable {taken : H → UInt32 → Bytes}

theorem UartContract.length_received (hcontract : UartContract hardware taken s.hw)
    (bus lenMax timeoutMs : UInt32) :
    (receivedBytes hardware s bus lenMax timeoutMs).length =
      (received hardware s bus lenMax timeoutMs).1.toNatClampNeg := by
  rw [length_receivedBytes]
  exact Nat.min_eq_left (hcontract.le ..)

theorem UartContract.taken_received (hcontract : UartContract hardware taken s.hw)
    (bus lenMax timeoutMs : UInt32) :
    taken (received hardware s bus lenMax timeoutMs).2.2 bus =
      taken s.hw bus ++ receivedBytes hardware s bus lenMax timeoutMs :=
  hcontract.takes ..

-- A uart_read loses nothing if it receives nothing or its destination is in the memory, and
-- else it loses what it receives. The destination is as long as the module says, or as what
-- is received, or anything between.
theorem uartRead_lossless_iff {H : Type} (build : Build) (hardware : MiloHardware H)
    (taken : H → UInt32 → Bytes) (s : HostState H) (hcontract : UartContract hardware taken s.hw)
    (bus ptr lenMax timeoutMs : UInt32) (size : Nat)
    (hsize : (received hardware s bus lenMax timeoutMs).1.toNatClampNeg ≤ size) :
    Lossless build hardware s taken bus ptr lenMax timeoutMs size ↔
      ∀ data, s.memory = some data → lenMax.toNat < 2 ^ (build.width - 1) →
        0 < (received hardware s bus lenMax timeoutMs).1 → ptr.toNat + size ≤ data.length := by
  have hlength := hcontract.length_received bus lenMax timeoutMs
  have htaken := hcontract.taken_received bus lenMax timeoutMs
  constructor
  · intro h data hdata hbuf hn
    by_contra hout
    have hspared := h.spared fun hlies => hout ((lies_some data ptr size).mp (hdata ▸ hlies))
    unfold readBackend at hspared
    rw [hdata] at hspared
    simp only [if_pos hbuf, htaken] at hspared
    have hnone : receivedBytes hardware s bus lenMax timeoutMs = [] := by simpa using hspared
    rw [hnone, List.length_nil] at hlength
    have hpos := toNatClampNeg_pos hn
    omega
  · intro h
    refine ⟨fun n s' hread hn => ?_, fun hout => ?_⟩
    · cases hdata : s.memory with
      | none =>
          rw [uartRead_none build hardware s hdata] at hread
          cases hread
          exact absurd hn (by decide)
      | some data =>
          rw [uartRead_eq build hardware s hdata] at hread
          split_ifs at hread with hbuf hn' hadds hin
          · cases hread
            exact ⟨data, _, rfl, hlength, htaken, (lies_some data ptr _).mpr hin, rfl⟩
          · have hroom := h data hdata hbuf hn'
            omega
          · cases hread
            exact absurd hn hn'
    · unfold readBackend
      cases hdata : s.memory with
      | none => rfl
      | some data =>
          dsimp only
          split_ifs with hbuf
          · rcases em (0 < (received hardware s bus lenMax timeoutMs).1) with hn | hn
            · exact absurd (hdata ▸ (lies_some data ptr size).mpr (h data hdata hbuf hn)) hout
            · rw [toNatClampNeg_of_not_pos hn] at hlength
              rw [htaken, List.length_eq_zero_iff.mp hlength, List.append_nil]
          · rfl

end Receive

section Adapter

open Milo.Hal

variable {P : Type}

-- The contract of one UART that a board registers, in the state it is in.
structure LineContract (uart : DynUart P) (taken : P → Bytes) (s : P) : Prop where
  le : ∀ {n : Nat} (buf : Vector UInt8 n) (timeoutMs : UInt32),
    (uart.read s buf timeoutMs).1.toNatClampNeg ≤ n
  takes : ∀ {n : Nat} (buf : Vector UInt8 n) (timeoutMs : UInt32),
    taken (uart.read s buf timeoutMs).2.2 = taken s ++
      (uart.read s buf timeoutMs).2.1.toList.take (uart.read s buf timeoutMs).1.toNatClampNeg

def takenFrom (taken : UInt32 → P → Bytes) (a : EmbeddedHalAdapter P) (bus : UInt32) : Bytes :=
  taken bus a.peripherals

-- The adapter keeps the contract that its UARTs keep. A bus without one takes nothing.
theorem adapter_contract (taken : UInt32 → P → Bytes) (a : EmbeddedHalAdapter P)
    (h : ∀ bus uart, a.uartBuses bus = some uart → LineContract uart (taken bus) a.peripherals) :
    UartContract EmbeddedHalAdapter.hardware (takenFrom taken) a where
  le bus n buf timeoutMs := by
    change (a.uartRead bus buf timeoutMs).1.toNatClampNeg ≤ n
    unfold EmbeddedHalAdapter.uartRead
    cases huart : a.uartBuses bus with
    | none => exact Nat.zero_le n
    | some uart => exact (h bus uart huart).le buf timeoutMs
  takes bus n buf timeoutMs := by
    change takenFrom taken (a.uartRead bus buf timeoutMs).2.2 bus = takenFrom taken a bus ++
      (a.uartRead bus buf timeoutMs).2.1.toList.take (a.uartRead bus buf timeoutMs).1.toNatClampNeg
    unfold EmbeddedHalAdapter.uartRead
    cases huart : a.uartBuses bus with
    | none => exact (List.append_nil _).symm
    | some uart => exact (h bus uart huart).takes buf timeoutMs

-- The loopback UART of the integration tests: what waits in its queue, and what was read.
def loopbackUart : DynUart (Bytes × Bytes) where
  write line data := (Int32.ofNat data.length, line.1 ++ data, line.2)
  read line n out _ :=
    let n := min n line.1.length
    (Int32.ofNat n, Vector.ofFn fun i => (line.1.take n).getD i.val (out.get i), line.1.drop n,
      line.2 ++ line.1.take n)

-- The count is cast to an i32, so no more may wait than fit it.
theorem loopbackUart_contract {line : Bytes × Bytes} (hline : line.1.length < 2 ^ 31) :
    LineContract loopbackUart Prod.snd line where
  le {n} out timeoutMs := by
    change (Int32.ofNat (min n line.1.length)).toNatClampNeg ≤ n
    rw [Int32.toNatClampNeg_ofNat_of_lt (by omega)]
    exact Nat.min_le_left _ _
  takes {n} out timeoutMs := by
    change line.2 ++ line.1.take (min n line.1.length) = line.2 ++
      (Vector.ofFn fun i : Fin n => (line.1.take (min n line.1.length)).getD i.val
        (out.get i)).toList.take (Int32.ofNat (min n line.1.length)).toNatClampNeg
    rw [Int32.toNatClampNeg_ofNat_of_lt (by omega)]
    congr 1
    apply List.ext_getElem
    · rw [List.length_take, List.length_take, Vector.length_toList]
      omega
    · intro i htake hread
      symm
      rw [List.getElem_take, Vector.getElem_toList, Vector.getElem_ofFn]
      exact List.getD_eq_getElem _ _ htake

-- An adapter with the loopback UART at bus 0.
def loopbackBoard (waiting : Bytes) : EmbeddedHalAdapter (Bytes × Bytes) where
  pins _ := none
  pwmChannels _ := none
  adcChannels _ := none
  i2cBuses _ := none
  spiBuses _ := none
  uartBuses bus := if bus = 0 then some loopbackUart else none
  delay := { delayMs := fun line _ => line }
  uptimeFn _ := 0
  peripherals := (waiting, [])
  logSink := []
  lastLog := none

theorem loopbackBoard_contract {waiting : Bytes} (hwaiting : waiting.length < 2 ^ 31) :
    UartContract EmbeddedHalAdapter.hardware (takenFrom fun _ => Prod.snd) (loopbackBoard waiting) := by
  refine adapter_contract _ _ fun bus uart huart => ?_
  change (if bus = 0 then some loopbackUart else none) = some uart at huart
  split_ifs at huart
  cases huart
  exact loopbackUart_contract hwaiting

-- Two bytes wait for a module, whose memory is given.
def twoWaiting (memory : Bytes) : HostState (EmbeddedHalAdapter (Bytes × Bytes)) :=
  { hw := loopbackBoard [0x68, 0x69], memory := some memory, logs := [], transfers := [] }

theorem uartRead_lossless_inside :
    Lossless release64 EmbeddedHalAdapter.hardware (twoWaiting [0, 0, 0])
      (takenFrom fun _ => Prod.snd) 0 1 2 0 2 := by
  refine (uartRead_lossless_iff release64 EmbeddedHalAdapter.hardware _ (twoWaiting [0, 0, 0])
    (loopbackBoard_contract (by decide)) 0 1 2 0 2 (by decide)).mpr fun data hdata _ _ => ?_
  cases hdata
  decide

-- The module hears that two bytes are read, and they are gone.
theorem uartRead_loses :
    UartContract EmbeddedHalAdapter.hardware (takenFrom fun _ => Prod.snd) (twoWaiting []).hw ∧
    (∃ s', uartRead release64 EmbeddedHalAdapter.hardware (twoWaiting []) 0 0 2 0 = .ok (2, s') ∧
      s'.memory = some [] ∧ s'.hw.peripherals = ([], [0x68, 0x69])) ∧
    ¬Lossless release64 EmbeddedHalAdapter.hardware (twoWaiting []) (takenFrom fun _ => Prod.snd)
      0 0 2 0 2 := by
  refine ⟨loopbackBoard_contract (by decide), ⟨_, rfl, rfl, rfl⟩, fun h => ?_⟩
  have hspared := h.spared fun hlies => absurd ((lies_some [] 0 2).mp hlies) (by decide)
  exact absurd hspared (by decide)

end Adapter

end Milo.Runtime
