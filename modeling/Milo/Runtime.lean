import Milo.Engine.Executor

namespace Milo.Runtime

open Milo.Rust Milo.Engine.Executor

-- The trait MiloHardware over a backend H. A buffer the backend fills keeps its
-- length, like the mutable slice it stands for.
structure MiloHardware (H : Type) where
  gpioSet : H → (pin state : UInt32) → H
  gpioGet : H → (pin : UInt32) → UInt32 × H
  delayMs : H → (ms : UInt32) → H
  getUptimeUs : H → UInt64
  i2cTransfer : H → (addr : UInt8) → (tx : Bytes) → {n : Nat} → (rx : Vector UInt8 n) →
    Int32 × Vector UInt8 n × H
  log : H → (message : String) → H
  pwmSet : H → (channel duty : UInt32) → H
  adcRead : H → (channel : UInt32) → UInt32 × H
  spiTransfer : H → (bus : UInt32) → (tx : Bytes) → {n : Nat} → (rx : Vector UInt8 n) →
    Int32 × Vector UInt8 n × H
  uartWrite : H → (bus : UInt32) → (data : Bytes) → Int32 × H
  uartRead : H → (bus : UInt32) → {n : Nat} → (buf : Vector UInt8 n) → (timeoutMs : UInt32) →
    Int32 × Vector UInt8 n × H

-- A transaction that the backend was asked for.
inductive Transfer where
  | i2c (addr : UInt8) (tx : Bytes)
  | spi (bus : UInt32) (tx : Bytes)
deriving DecidableEq, Repr

-- The memory holds the bytes of the module's linear memory. The transfers are no
-- field of the source: they record what was asked of the buses.
structure HostState (H : Type) where
  hw : H
  memory : Option Bytes
  logs : List String
  transfers : List Transfer

section Syscalls

variable {H : Type} (build : Build) (hardware : MiloHardware H) (s : HostState H)

def gpioSet (pin state : UInt32) : HostState H := { s with hw := hardware.gpioSet s.hw pin state }

def gpioGet (pin : UInt32) : UInt32 × HostState H :=
  let (level, hw) := hardware.gpioGet s.hw pin
  (level, { s with hw := hw })

def delayMs (ms : UInt32) : HostState H := { s with hw := hardware.delayMs s.hw ms }

def getUptimeUs : UInt64 := hardware.getUptimeUs s.hw

-- The common text of i2c_transfer and spi_transfer around their transaction.
def busTransfer (transact : H → Bytes → {n : Nat} → Vector UInt8 n → Int32 × Vector UInt8 n × H)
    (transfer : Bytes → Transfer) (txPtr txLen rxPtr rxLen : UInt32) :
    Except Fault (Int32 × HostState H) :=
  match s.memory with
  | none => .ok (-1, s)
  | some data => do
      let txEnd ← build.addU32 txPtr txLen
      let txOwned ← slice data txPtr.toNat txEnd
      let rxBuf ← build.zeroes rxLen.toNat
      let (result, rxBuf, hw) := transact s.hw txOwned rxBuf
      let s := { s with hw := hw, transfers := s.transfers ++ [transfer txOwned] }
      if result = 0 ∧ 0 < rxLen then
        let rxEnd ← build.addU32 rxPtr rxLen
        let data ← copyFromSlice data rxPtr.toNat rxEnd rxBuf.toList
        return (result, { s with memory := some data })
      else return (result, s)

def i2cTransfer (addr txPtr txLen rxPtr rxLen : UInt32) : Except Fault (Int32 × HostState H) :=
  busTransfer build s (fun hw tx _ rx => hardware.i2cTransfer hw addr.toUInt8 tx rx)
    (.i2c addr.toUInt8) txPtr txLen rxPtr rxLen

def logMsg (ptr len : UInt32) : Except Fault (HostState H) :=
  match s.memory with
  | none => .ok s
  | some data => do
      let stop ← build.addUsize ptr.toNat len.toNat
      if data.length < stop then return s
      match fromUtf8 (← slice data ptr.toNat stop) with
      | some msg => return { s with hw := hardware.log s.hw msg, logs := s.logs ++ [msg] }
      | none => return s

def pwmSet (channel duty : UInt32) : HostState H :=
  { s with hw := hardware.pwmSet s.hw channel duty }

def adcRead (channel : UInt32) : UInt32 × HostState H :=
  let (value, hw) := hardware.adcRead s.hw channel
  (value, { s with hw := hw })

def spiTransfer (bus txPtr txLen rxPtr rxLen : UInt32) : Except Fault (Int32 × HostState H) :=
  busTransfer build s (fun hw tx _ rx => hardware.spiTransfer hw bus tx rx) (.spi bus)
    txPtr txLen rxPtr rxLen

def uartWrite (bus ptr len : UInt32) : Except Fault (Int32 × HostState H) :=
  match s.memory with
  | none => .ok (-1, s)
  | some data => do
      let stop ← build.addUsize ptr.toNat len.toNat
      if data.length < stop then return (-1, s)
      let owned ← slice data ptr.toNat stop
      let (result, hw) := hardware.uartWrite s.hw bus owned
      return (result, { s with hw := hw })

def uartRead (bus ptr lenMax timeoutMs : UInt32) : Except Fault (Int32 × HostState H) :=
  match s.memory with
  | none => .ok (-1, s)
  | some data => do
      let rxBuf ← build.zeroes lenMax.toNat
      let (n, rxBuf, hw) := hardware.uartRead s.hw bus rxBuf timeoutMs
      let s := { s with hw := hw }
      if 0 < n then
        let copyLen := min n.toNatClampNeg lenMax.toNat
        let stop ← build.addUsize ptr.toNat copyLen
        if stop ≤ data.length then
          let data ← copyFromSlice data ptr.toNat stop (rxBuf.toList.take copyLen)
          return (n, { s with memory := some data })
        else return (n, s)
      else return (n, s)

end Syscalls

-- The syscalls that register_syscalls defines, with the arguments of a call.
inductive Syscall where
  | gpioSet (pin state : UInt32)
  | gpioGet (pin : UInt32)
  | delayMs (ms : UInt32)
  | getUptimeUs
  | i2cTransfer (addr txPtr txLen rxPtr rxLen : UInt32)
  | logMsg (ptr len : UInt32)
  | pwmSet (channel duty : UInt32)
  | adcRead (channel : UInt32)
  | spiTransfer (bus txPtr txLen rxPtr rxLen : UInt32)
  | uartWrite (bus ptr len : UInt32)
  | uartRead (bus ptr lenMax timeoutMs : UInt32)
  | getParam (slot : UInt32)
deriving DecidableEq, Repr

-- What a syscall returns to the module.
inductive Value where
  | unit
  | u32 (value : UInt32)
  | u64 (value : UInt64)
  | i32 (value : Int32)
deriving DecidableEq

def perform {H : Type} (build : Build) (hardware : MiloHardware H) (params : ParamSlots)
    (s : HostState H) : Syscall → Except Fault (Value × HostState H)
  | .gpioSet pin state => .ok (.unit, gpioSet hardware s pin state)
  | .gpioGet pin => .ok ((gpioGet hardware s pin).map .u32 id)
  | .delayMs ms => .ok (.unit, delayMs hardware s ms)
  | .getUptimeUs => .ok (.u64 (getUptimeUs hardware s), s)
  | .i2cTransfer addr txPtr txLen rxPtr rxLen =>
      (i2cTransfer build hardware s addr txPtr txLen rxPtr rxLen).map (.map .i32 id)
  | .logMsg ptr len => (logMsg build hardware s ptr len).map (.unit, ·)
  | .pwmSet channel duty => .ok (.unit, pwmSet hardware s channel duty)
  | .adcRead channel => .ok ((adcRead hardware s channel).map .u32 id)
  | .spiTransfer bus txPtr txLen rxPtr rxLen =>
      (spiTransfer build hardware s bus txPtr txLen rxPtr rxLen).map (.map .i32 id)
  | .uartWrite bus ptr len => (uartWrite build hardware s bus ptr len).map (.map .i32 id)
  | .uartRead bus ptr lenMax timeoutMs =>
      (uartRead build hardware s bus ptr lenMax timeoutMs).map (.map .i32 id)
  | .getParam slot => .ok (.u32 (getParam params slot), s)

def release64 : Build := { width := 64, wide := by decide, overflowChecks := false }

-- The backend LaptopMock, less what it prints. Its state is the time since its start.
def laptopMock : MiloHardware UInt64 where
  gpioSet clock _ _ := clock
  gpioGet clock _ := (0, clock)
  delayMs clock ms := clock + ms.toUInt64 * 1000
  getUptimeUs clock := clock
  i2cTransfer clock _ _ _ rx := (0, rx, clock)
  log clock _ := clock
  pwmSet clock _ _ := clock
  adcRead clock _ := (2048, clock)
  spiTransfer clock _ tx _ rx := (0, Vector.ofFn fun i => tx.getD i rx[i], clock)
  uartWrite clock _ data := (Int32.ofNat data.length, clock)
  uartRead clock _ _ buf _ := (0, buf, clock)

end Milo.Runtime
