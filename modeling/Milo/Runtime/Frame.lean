import Milo.Runtime.Transfer

namespace Milo.Runtime

open Milo.Rust Milo.Engine.Executor

-- A call of the backend, with what it is handed.
inductive Ask where
  | gpioSet (pin state : UInt32)
  | gpioGet (pin : UInt32)
  | delayMs (ms : UInt32)
  | getUptimeUs
  | i2cTransfer (addr : UInt8) (tx : Bytes) (rxLen : Nat)
  | log (message : String)
  | pwmSet (channel duty : UInt32)
  | adcRead (channel : UInt32)
  | spiTransfer (bus : UInt32) (tx : Bytes) (rxLen : Nat)
  | uartWrite (bus : UInt32) (data : Bytes)
  | uartRead (bus : UInt32) (lenMax : Nat) (timeoutMs : UInt32)

-- What the host keeps of a call: the logs and the transactions.
def Ask.logs : Ask → List String
  | .log message => [message]
  | _ => []

def Ask.transfers : Ask → List Transfer
  | .i2cTransfer addr tx _ => [.i2c addr tx]
  | .spiTransfer bus tx _ => [.spi bus tx]
  | _ => []

-- The value an i32 syscall returns determines the answer.
theorem value_injective {α : Type} :
    Function.Injective (Prod.map Value.i32 id : Int32 × α → Value × α) := by
  rintro ⟨a, s⟩ ⟨b, t⟩ h
  cases h
  rfl

section Frame

variable {H : Type} (hardware : MiloHardware H) (params : ParamSlots) (s : HostState H)

-- The value the backend answers, and what is then in the zeroed buffer that it was handed.
def MiloHardware.ask (hw : H) : Ask → Value × Bytes × H
  | .gpioSet pin state => (.unit, [], hardware.gpioSet hw pin state)
  | .gpioGet pin => (.u32 (hardware.gpioGet hw pin).1, [], (hardware.gpioGet hw pin).2)
  | .delayMs ms => (.unit, [], hardware.delayMs hw ms)
  | .getUptimeUs => (.u64 (hardware.getUptimeUs hw), [], hw)
  | .i2cTransfer addr tx rxLen =>
      let (result, rx, hw) := hardware.i2cTransfer hw addr tx (Vector.replicate rxLen 0)
      (.i32 result, rx.toList, hw)
  | .log message => (.unit, [], hardware.log hw message)
  | .pwmSet channel duty => (.unit, [], hardware.pwmSet hw channel duty)
  | .adcRead channel => (.u32 (hardware.adcRead hw channel).1, [], (hardware.adcRead hw channel).2)
  | .spiTransfer bus tx rxLen =>
      let (result, rx, hw) := hardware.spiTransfer hw bus tx (Vector.replicate rxLen 0)
      (.i32 result, rx.toList, hw)
  | .uartWrite bus data => (.i32 (hardware.uartWrite hw bus data).1, [], (hardware.uartWrite hw bus data).2)
  | .uartRead bus lenMax timeoutMs =>
      let (n, rx, hw) := hardware.uartRead hw bus (Vector.replicate lenMax 0) timeoutMs
      (.i32 n, rx.toList, hw)

-- The call that a syscall is for. Without a memory there is none for a pointer, and there
-- is none for a message that is no text.
def Syscall.ask (memory : Option Bytes) : Syscall → Option Ask
  | .gpioSet pin state => some (.gpioSet pin state)
  | .gpioGet pin => some (.gpioGet pin)
  | .delayMs ms => some (.delayMs ms)
  | .getUptimeUs => some .getUptimeUs
  | .i2cTransfer addr txPtr txLen _ rxLen =>
      memory.map fun data => .i2cTransfer addr.toUInt8 (bytesAt data txPtr txLen.toNat) rxLen.toNat
  | .logMsg ptr len =>
      memory.bind fun data => (fromUtf8 (bytesAt data ptr len.toNat)).map .log
  | .pwmSet channel duty => some (.pwmSet channel duty)
  | .adcRead channel => some (.adcRead channel)
  | .spiTransfer bus txPtr txLen _ rxLen =>
      memory.map fun data => .spiTransfer bus (bytesAt data txPtr txLen.toNat) rxLen.toNat
  | .uartWrite bus ptr len => memory.map fun data => .uartWrite bus (bytesAt data ptr len.toNat)
  | .uartRead bus _ lenMax timeoutMs => memory.map fun _ => .uartRead bus lenMax.toNat timeoutMs
  | .getParam _ => none

-- The value of a syscall that calls no backend.
def Syscall.unasked : Syscall → Value
  | .getParam slot => .u32 (Engine.Executor.getParam params slot)
  | .i2cTransfer .. | .spiTransfer .. | .uartWrite .. | .uartRead .. => .i32 (-1)
  | _ => .unit

-- The memory behind a syscall, by the backend's answer.
def Syscall.fill (syscall : Syscall) (answer : Value) (rx data : Bytes) : Bytes :=
  match syscall, answer with
  | .i2cTransfer _ _ _ rxPtr _, .i32 result | .spiTransfer _ _ _ rxPtr _, .i32 result =>
      if result = 0 then splice data rxPtr rx else data
  | .uartRead _ ptr _ _, .i32 n => if 0 < n then splice data ptr (rx.take n.toNatClampNeg) else data
  | _, _ => data

-- What a syscall is to do: one call of the backend, whose answer it returns.
def served (syscall : Syscall) : Value × HostState H :=
  match syscall.ask s.memory with
  | none => (syscall.unasked params, s)
  | some ask =>
      let (answer, rx, hw) := hardware.ask s.hw ask
      (answer, { hw := hw
                 memory := s.memory.map (syscall.fill answer rx)
                 logs := s.logs ++ ask.logs
                 transfers := s.transfers ++ ask.transfers })

-- The ranges of a syscall are ranges of the memory, if there is one.
def Syscall.InMemory (data : Bytes) : Syscall → Prop
  | .i2cTransfer _ txPtr txLen rxPtr rxLen | .spiTransfer _ txPtr txLen rxPtr rxLen =>
      txPtr.toNat + txLen.toNat ≤ data.length ∧ (rxLen = 0 ∨ rxPtr.toNat + rxLen.toNat ≤ data.length)
  | .logMsg ptr len | .uartWrite _ ptr len | .uartRead _ ptr len _ =>
      ptr.toNat + len.toNat ≤ data.length
  | _ => True

-- The ranges that a syscall is given, and the starts that it looks up even for no bytes.
def Syscall.ranges : Syscall → List (UInt32 × UInt32)
  | .i2cTransfer _ txPtr txLen rxPtr rxLen | .spiTransfer _ txPtr txLen rxPtr rxLen =>
      [(txPtr, txLen), (rxPtr, rxLen)]
  | .logMsg ptr len | .uartWrite _ ptr len | .uartRead _ ptr len _ => [(ptr, len)]
  | _ => []

def Syscall.starts : Syscall → List UInt32
  | .i2cTransfer _ txPtr _ _ _ | .spiTransfer _ txPtr _ _ _ => [txPtr]
  | .logMsg ptr _ | .uartWrite _ ptr _ | .uartRead _ ptr _ _ => [ptr]
  | _ => []

theorem range_iff_inside (data : Bytes) (ptr len : UInt32) :
    ptr.toNat + len.toNat ≤ data.length ↔ Inside (some data) ptr len ∧ ptr.toNat ≤ data.length := by
  rw [inside_some]
  constructor
  · intro h
    exact ⟨.inr h, by omega⟩
  · rintro ⟨rfl | h, hptr⟩
    · exact hptr
    · exact h

-- The addresses of the ranges are in memory, and so are the starts of the empty ones.
theorem Syscall.inMemory_iff_inside (data : Bytes) (syscall : Syscall) :
    syscall.InMemory data ↔ (∀ range ∈ syscall.ranges, Inside (some data) range.1 range.2) ∧
      ∀ ptr ∈ syscall.starts, ptr.toNat ≤ data.length := by
  cases syscall with
  | i2cTransfer addr txPtr txLen rxPtr rxLen | spiTransfer bus txPtr txLen rxPtr rxLen =>
      simp only [Syscall.InMemory, Syscall.ranges, Syscall.starts, range_iff_inside data txPtr,
        ← inside_some data rxPtr, List.forall_mem_cons, List.not_mem_nil, false_implies,
        implies_true, and_true]
      exact and_right_comm
  | logMsg ptr len | uartWrite bus ptr len | uartRead bus ptr len timeoutMs =>
      simp [Syscall.InMemory, Syscall.ranges, Syscall.starts, range_iff_inside]
  | _ => simp [Syscall.InMemory, Syscall.ranges, Syscall.starts]

-- The ends of the two ranges are u32, if they are computed.
def EndsFit (answer : Int32) (txPtr txLen rxPtr rxLen : UInt32) : Prop :=
  txPtr.toNat + txLen.toNat < 2 ^ 32 ∧
    (rxLen = 0 ∨ answer ≠ 0 ∨ rxPtr.toNat + rxLen.toNat < 2 ^ 32)

-- The bus syscalls add start and length as u32, the others as usize.
def Syscall.EndsFit (data : Bytes) : Syscall → Prop
  | .i2cTransfer addr txPtr txLen rxPtr rxLen =>
      Runtime.EndsFit (hardware.i2cTransfer s.hw addr.toUInt8 (bytesAt data txPtr txLen.toNat)
        (Vector.replicate rxLen.toNat 0)).1 txPtr txLen rxPtr rxLen
  | .spiTransfer bus txPtr txLen rxPtr rxLen =>
      Runtime.EndsFit (hardware.spiTransfer s.hw bus (bytesAt data txPtr txLen.toNat)
        (Vector.replicate rxLen.toNat 0)).1 txPtr txLen rxPtr rxLen
  | _ => True

variable {hardware params s} {build : Build} {data : Bytes} (hdata : s.memory = some data)
  (hroom : data.length < 2 ^ (build.width - 1))

include hdata hroom

theorem logMsg_served {ptr len : UInt32} (hin : (Syscall.logMsg ptr len).InMemory data) :
    perform build hardware params s (.logMsg ptr len) =
      .ok (served hardware params s (.logMsg ptr len)) := by
  change ptr.toNat + len.toNat ≤ data.length at hin
  change (logMsg build hardware s ptr len).map _ = _
  rw [logMsg_eq build hardware s hdata, if_pos (adds_of_le hroom hin), if_pos hin]
  unfold served logged Syscall.ask
  rw [hdata]
  dsimp only [Option.bind_some]
  cases fromUtf8 (bytesAt data ptr len.toNat) with
  | none => rfl
  | some msg => simp [MiloHardware.ask, Syscall.fill, Ask.logs, Ask.transfers, Except.map]

theorem uartWrite_served {bus ptr len : UInt32} (hin : (Syscall.uartWrite bus ptr len).InMemory data) :
    perform build hardware params s (.uartWrite bus ptr len) =
      .ok (served hardware params s (.uartWrite bus ptr len)) := by
  change ptr.toNat + len.toNat ≤ data.length at hin
  change (uartWrite build hardware s bus ptr len).map _ = _
  rw [uartWrite_eq build hardware s hdata, if_pos (adds_of_le hroom hin), if_pos hin]
  unfold served written Syscall.ask
  rw [hdata]
  simp [MiloHardware.ask, Syscall.fill, Ask.logs, Ask.transfers, Except.map]

theorem uartRead_served {bus ptr lenMax timeoutMs : UInt32}
    (hin : (Syscall.uartRead bus ptr lenMax timeoutMs).InMemory data) :
    perform build hardware params s (.uartRead bus ptr lenMax timeoutMs) =
      .ok (served hardware params s (.uartRead bus ptr lenMax timeoutMs)) := by
  change ptr.toNat + lenMax.toNat ≤ data.length at hin
  have hlength := length_receivedBytes hardware s bus lenMax timeoutMs
  have hcopied : ptr.toNat + (receivedBytes hardware s bus lenMax timeoutMs).length ≤ data.length := by
    omega
  change (uartRead build hardware s bus ptr lenMax timeoutMs).map _ = _
  rw [uartRead_eq build hardware s hdata, if_pos (by omega), if_pos (adds_of_le hroom hcopied),
    if_pos hcopied]
  unfold served Syscall.ask
  rw [hdata]
  change _ = Except.ok (_, HostState.mk _ (some (if 0 < (received hardware s bus lenMax timeoutMs).1
    then splice data ptr (receivedBytes hardware s bus lenMax timeoutMs) else data)) _ _)
  split_ifs with hn
  · simp [Ask.logs, Ask.transfers, Except.map, afterRead, received]
  · simp [Ask.logs, Ask.transfers, Except.map, afterRead, received, hdata]

-- The two bus syscalls.
theorem busTransfer_eq_iff
    (transact : H → Bytes → {n : Nat} → Vector UInt8 n → Int32 × Vector UInt8 n × H)
    (transfer : Bytes → Transfer) {txPtr txLen rxPtr rxLen : UInt32}
    (htx : txPtr.toNat + txLen.toNat ≤ data.length)
    (hrx : rxLen = 0 ∨ rxPtr.toNat + rxLen.toNat ≤ data.length) :
    busTransfer build s transact transfer txPtr txLen rxPtr rxLen =
        .ok ((transaction s transact txPtr txLen rxLen data).1,
          { s with
            hw := (transaction s transact txPtr txLen rxLen data).2.2
            memory := some (if (transaction s transact txPtr txLen rxLen data).1 = 0 then
              splice data rxPtr (transaction s transact txPtr txLen rxLen data).2.1.toList else data)
            transfers := s.transfers ++ [transfer (sent data txPtr txLen)] }) ↔
      EndsFit (transaction s transact txPtr txLen rxLen data).1 txPtr txLen rxPtr rxLen := by
  constructor
  · intro h
    obtain ⟨-, htxEnd, -, -, -, hrxEnd⟩ :=
      busTransfer_cases build s transact transfer txPtr txLen rxPtr rxLen hdata h
    refine ⟨htxEnd, ?_⟩
    by_cases hz : rxLen = 0
    · exact .inl hz
    · by_cases hanswer : (transaction s transact txPtr txLen rxLen data).1 = 0
      · exact .inr (.inr (hrxEnd hanswer (UInt32.pos_iff_ne_zero.mpr hz)))
      · exact .inr (.inl hanswer)
  · rintro ⟨htxEnd, hrxEnd⟩
    refine busTransfer_eq build s transact transfer txPtr txLen rxPtr rxLen hdata
      ⟨htx, htxEnd, hrx, hrxEnd, ?_⟩
    rcases hrx with rfl | hrx
    · exact Nat.two_pow_pos _
    · omega

theorem i2cTransfer_served_iff {addr txPtr txLen rxPtr rxLen : UInt32}
    (hin : (Syscall.i2cTransfer addr txPtr txLen rxPtr rxLen).InMemory data) :
    perform build hardware params s (.i2cTransfer addr txPtr txLen rxPtr rxLen) =
        .ok (served hardware params s (.i2cTransfer addr txPtr txLen rxPtr rxLen)) ↔
      (Syscall.i2cTransfer addr txPtr txLen rxPtr rxLen).EndsFit hardware s data := by
  have hbus := busTransfer_eq_iff hdata hroom
    (fun hw tx _ rx => hardware.i2cTransfer hw addr.toUInt8 tx rx) (.i2c addr.toUInt8) hin.1 hin.2
  rw [← map_eq_ok_of_injective value_injective] at hbus
  refine Iff.trans (Eq.to_iff ?_) hbus
  unfold served Syscall.ask
  rw [hdata]
  simp only [Option.map_some, Ask.logs, List.append_nil]
  rfl

theorem spiTransfer_served_iff {bus txPtr txLen rxPtr rxLen : UInt32}
    (hin : (Syscall.spiTransfer bus txPtr txLen rxPtr rxLen).InMemory data) :
    perform build hardware params s (.spiTransfer bus txPtr txLen rxPtr rxLen) =
        .ok (served hardware params s (.spiTransfer bus txPtr txLen rxPtr rxLen)) ↔
      (Syscall.spiTransfer bus txPtr txLen rxPtr rxLen).EndsFit hardware s data := by
  have hbus := busTransfer_eq_iff hdata hroom
    (fun hw tx _ rx => hardware.spiTransfer hw bus tx rx) (.spi bus) hin.1 hin.2
  rw [← map_eq_ok_of_injective value_injective] at hbus
  refine Iff.trans (Eq.to_iff ?_) hbus
  unfold served Syscall.ask
  rw [hdata]
  simp only [Option.map_some, Ask.logs, List.append_nil]
  rfl

omit hdata hroom

-- Without a memory, and for the syscalls without a pointer.
theorem served_none (hnone : s.memory = none) (syscall : Syscall) :
    perform build hardware params s syscall = .ok (served hardware params s syscall) := by
  obtain ⟨hw, memory, logs, transfers⟩ := s
  cases hnone
  cases syscall <;>
    simp [perform, served, Syscall.ask, Syscall.unasked, MiloHardware.ask, Ask.logs, Ask.transfers,
      gpioSet, gpioGet, delayMs, getUptimeUs, i2cTransfer, logMsg, pwmSet, adcRead, spiTransfer,
      uartWrite, uartRead, busTransfer, Except.map]

end Frame

-- A syscall whose ranges lie in the memory is served, save a bus syscall that computes
-- the end of a range that is no u32.
theorem syscall_served_iff {H : Type} (build : Build) (hardware : MiloHardware H)
    (params : ParamSlots) (s : HostState H)
    (hroom : ∀ data, s.memory = some data → data.length < 2 ^ (build.width - 1)) (syscall : Syscall)
    (hin : ∀ data, s.memory = some data → syscall.InMemory data) :
    perform build hardware params s syscall = .ok (served hardware params s syscall) ↔
      ∀ data, s.memory = some data → syscall.EndsFit hardware s data := by
  cases hdata : s.memory with
  | none => exact iff_of_true (served_none hdata syscall) fun data h => by cases h
  | some data =>
      have hroom := hroom data hdata
      have hin := hin data hdata
      simp only [Option.some.injEq, forall_eq']
      cases syscall with
      | i2cTransfer => exact i2cTransfer_served_iff hdata hroom hin
      | spiTransfer => exact spiTransfer_served_iff hdata hroom hin
      | logMsg => exact iff_of_true (logMsg_served hdata hroom hin) trivial
      | uartWrite => exact iff_of_true (uartWrite_served hdata hroom hin) trivial
      | uartRead => exact iff_of_true (uartRead_served hdata hroom hin) trivial
      | gpioSet | gpioGet | delayMs | getUptimeUs | pwmSet | adcRead | getParam =>
          refine iff_of_true ?_ trivial
          obtain ⟨hw, memory, logs, transfers⟩ := s
          cases hdata
          simp only [perform, served, Syscall.ask, MiloHardware.ask, Ask.logs, Ask.transfers,
            List.append_nil]
          rfl

def fourBytes : HostState UInt64 := { hw := 0, memory := some [1, 2, 3, 4], logs := [], transfers := [] }

-- The first two bytes go out on the bus, and the last two are overwritten.
theorem syscall_served_spi :
    perform release64 laptopMock ParamSlots.initial fourBytes (.spiTransfer 0 0 2 2 2) =
      .ok (served laptopMock ParamSlots.initial fourBytes (.spiTransfer 0 0 2 2 2)) := by
  refine (syscall_served_iff release64 laptopMock ParamSlots.initial fourBytes ?_ (.spiTransfer 0 0 2 2 2)
    ?_).mpr ?_ <;> intro data hdata <;> cases hdata
  · decide
  · exact ⟨by decide, .inr (by decide)⟩
  · exact ⟨by decide, .inr (.inr (by decide))⟩

-- A module that exports as many pages as a memory can have.
def fourGiB : HostState UInt64 :=
  { hw := 0, memory := some (List.replicate (2 ^ 32) 0), logs := [], transfers := [] }

-- Its last byte is not sent: the end of the range is 2 ^ 32.
theorem last_byte_panics :
    (Syscall.i2cTransfer 0x48 0xFFFFFFFF 1 0 0).InMemory (List.replicate (2 ^ 32) 0) ∧
      perform release64 laptopMock ParamSlots.initial fourGiB (.i2cTransfer 0x48 0xFFFFFFFF 1 0 0) ≠
        .ok (served laptopMock ParamSlots.initial fourGiB (.i2cTransfer 0x48 0xFFFFFFFF 1 0 0)) := by
  have hlength : (List.replicate (2 ^ 32) (0 : UInt8)).length = 2 ^ 32 := List.length_replicate
  have hin : (Syscall.i2cTransfer 0x48 0xFFFFFFFF 1 0 0).InMemory (List.replicate (2 ^ 32) 0) :=
    ⟨by rw [hlength]; decide, .inl rfl⟩
  refine ⟨hin, fun h => ?_⟩
  have hroom : (List.replicate (2 ^ 32) (0 : UInt8)).length < 2 ^ (release64.width - 1) := by
    rw [hlength]
    decide
  have hends := (i2cTransfer_served_iff rfl hroom hin).mp h
  exact absurd hends.1 (by decide)

end Milo.Runtime
