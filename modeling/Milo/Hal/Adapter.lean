import Milo.Runtime

namespace Milo.Hal

open Milo.Runtime

-- The object-safe wrapper traits, over the state P of the peripherals behind the boxes.
structure DynPin (P : Type) where
  set : P → (level : Bool) → P
  get : P → Bool × P

structure DynDelay (P : Type) where
  delayMs : P → (ms : UInt32) → P

structure DynI2c (P : Type) where
  transfer : P → (addr : UInt8) → (tx : Bytes) → {n : Nat} → (rx : Vector UInt8 n) →
    Int32 × Vector UInt8 n × P

structure DynSpi (P : Type) where
  transfer : P → (tx : Bytes) → {n : Nat} → (rx : Vector UInt8 n) → Int32 × Vector UInt8 n × P

structure DynUart (P : Type) where
  write : P → (data : Bytes) → Int32 × P
  read : P → {n : Nat} → (buf : Vector UInt8 n) → (timeoutMs : UInt32) → Int32 × Vector UInt8 n × P

structure DynPwm (P : Type) where
  setDuty : P → (duty : UInt32) → P

structure DynAdc (P : Type) where
  read : P → UInt32 × P

-- What a board registers with the adapter.
structure Registered (P : Type) where
  pins : UInt32 → Option (DynPin P)
  pwmChannels : UInt32 → Option (DynPwm P)
  adcChannels : UInt32 → Option (DynAdc P)
  i2cBuses : UInt32 → Option (DynI2c P)
  spiBuses : UInt32 → Option (DynSpi P)
  uartBuses : UInt32 → Option (DynUart P)
  delay : DynDelay P
  uptimeFn : P → UInt64

-- The sink holds what log_sink has been given.
structure EmbeddedHalAdapter (P : Type) extends Registered P where
  peripherals : P
  logSink : List String
  lastLog : Option String

def denied (syscall : String) (id : UInt32) : String := s!"denied: {syscall} {id} not in manifest"

namespace EmbeddedHalAdapter

variable {P : Type} (a : EmbeddedHalAdapter P)

def log (message : String) : EmbeddedHalAdapter P :=
  { a with logSink := a.logSink ++ [message], lastLog := some message }

def deny (syscall : String) (id : UInt32) : EmbeddedHalAdapter P := a.log (denied syscall id)

def gpioSet (pin state : UInt32) : EmbeddedHalAdapter P :=
  match a.pins pin with
  | some p => { a with peripherals := p.set a.peripherals (state ≠ 0) }
  | none => a.deny "gpio_set" pin

def gpioGet (pin : UInt32) : UInt32 × EmbeddedHalAdapter P :=
  match a.pins pin with
  | some p =>
      let (level, peripherals) := p.get a.peripherals
      (if level then 1 else 0, { a with peripherals := peripherals })
  | none => (0, a.deny "gpio_get" pin)

def delayMs (ms : UInt32) : EmbeddedHalAdapter P :=
  { a with peripherals := a.delay.delayMs a.peripherals ms }

def getUptimeUs : UInt64 := a.uptimeFn a.peripherals

-- The syscall names no bus, and the adapter takes bus 0.
def i2cTransfer (addr : UInt8) (tx : Bytes) {n : Nat} (rx : Vector UInt8 n) :
    Int32 × Vector UInt8 n × EmbeddedHalAdapter P :=
  match a.i2cBuses 0 with
  | some bus =>
      let (result, rx, peripherals) := bus.transfer a.peripherals addr tx rx
      (result, rx, { a with peripherals := peripherals })
  | none => (-1, rx, a)

def pwmSet (channel duty : UInt32) : EmbeddedHalAdapter P :=
  match a.pwmChannels channel with
  | some pwm => { a with peripherals := pwm.setDuty a.peripherals duty }
  | none => a.deny "pwm_set" channel

def adcRead (channel : UInt32) : UInt32 × EmbeddedHalAdapter P :=
  match a.adcChannels channel with
  | some adc =>
      let (value, peripherals) := adc.read a.peripherals
      (value, { a with peripherals := peripherals })
  | none => (0, a.deny "adc_read" channel)

def spiTransfer (bus : UInt32) (tx : Bytes) {n : Nat} (rx : Vector UInt8 n) :
    Int32 × Vector UInt8 n × EmbeddedHalAdapter P :=
  match a.spiBuses bus with
  | some b =>
      let (result, rx, peripherals) := b.transfer a.peripherals tx rx
      (result, rx, { a with peripherals := peripherals })
  | none => (-1, rx, a)

def uartWrite (bus : UInt32) (data : Bytes) : Int32 × EmbeddedHalAdapter P :=
  match a.uartBuses bus with
  | some u =>
      let (result, peripherals) := u.write a.peripherals data
      (result, { a with peripherals := peripherals })
  | none => (-1, a)

def uartRead (bus : UInt32) {n : Nat} (buf : Vector UInt8 n) (timeoutMs : UInt32) :
    Int32 × Vector UInt8 n × EmbeddedHalAdapter P :=
  match a.uartBuses bus with
  | some u =>
      let (result, buf, peripherals) := u.read a.peripherals buf timeoutMs
      (result, buf, { a with peripherals := peripherals })
  | none => (-1, buf, a)

-- The implementation of MiloHardware for the adapter.
def hardware : MiloHardware (EmbeddedHalAdapter P) where
  gpioSet := gpioSet
  gpioGet := gpioGet
  delayMs := delayMs
  getUptimeUs := getUptimeUs
  i2cTransfer a addr tx _ rx := a.i2cTransfer addr tx rx
  log := log
  pwmSet := pwmSet
  adcRead := adcRead
  spiTransfer a bus tx _ rx := a.spiTransfer bus tx rx
  uartWrite := uartWrite
  uartRead a bus _ buf timeoutMs := a.uartRead bus buf timeoutMs

end EmbeddedHalAdapter

end Milo.Hal
