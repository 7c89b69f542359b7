import Milo.Lib.Calls.World
import Milo.Rust

-- The drivers of the demonstrations: what run_logic does between its calls to the host.
namespace Milo.Demos

open Milo.Lib

-- The host functions that the drivers call. A text stands for the bytes behind its pointer,
-- and a number of bytes to receive for the zeroed buffer that they come to.
inductive HostCall where
  | getParam (slot : UInt32)
  | gpioGet (pin : UInt32)
  | adcRead (channel : UInt32)
  | pwmSet (channel duty : UInt32)
  | delayMs (ms : UInt32)
  | logMsg (text : Bytes)
  | i2cTransfer (addr : UInt32) (tx : Bytes) (n : ℕ)
deriving DecidableEq, Repr

-- What a call returns, with the buffer as it is behind the call.
abbrev HostCall.Answer : HostCall → Type
  | .getParam _ | .gpioGet _ | .adcRead _ => UInt32
  | .pwmSet .. | .delayMs _ | .logMsg _ => Unit
  | .i2cTransfer _ _ n => Int32 × Vector UInt8 n

instance (c : HostCall) : Inhabited c.Answer where
  default := match c with
    | .getParam _ | .gpioGet _ | .adcRead _ => (0 : UInt32)
    | .pwmSet .. | .delayMs _ | .logMsg _ => ()
    | .i2cTransfer _ _ n => (-1, Vector.replicate n 0)

-- A driver that panics ends in the loop of its panic handler.
abbrev Driver (α : Type) : Type := Program HostCall.Answer Fault α

abbrev HostEvent : Type := Event HostCall.Answer

def getParam (slot : UInt32) : Driver UInt32 := Program.ask (HostCall.getParam slot)

def gpioGet (pin : UInt32) : Driver UInt32 := Program.ask (HostCall.gpioGet pin)

def adcRead (channel : UInt32) : Driver UInt32 := Program.ask (HostCall.adcRead channel)

def pwmSet (channel duty : UInt32) : Driver Unit := Program.ask (HostCall.pwmSet channel duty)

def delayMs (ms : UInt32) : Driver Unit := Program.ask (HostCall.delayMs ms)

def logMsg (text : String) : Driver Unit := Program.ask (HostCall.logMsg (Rust.intoBytes text))

def i2cTransfer (addr : UInt32) (tx : Bytes) (n : ℕ) : Driver (Int32 × Vector UInt8 n) :=
  Program.ask (HostCall.i2cTransfer addr tx n)

section LogHelper

-- The buffer of log_kv with the number of bytes that are in it.
structure LineBuffer where
  buf : Vector UInt8 28
  n : ℕ

def LineBuffer.push (line : LineBuffer) (b : UInt8) : Except Fault LineBuffer :=
  if h : line.n < 28 then .ok ⟨line.buf.set line.n b, line.n + 1⟩ else .error .diverges

end LogHelper

section Drone

-- What the flights differ in: the message at the start, and the duty for an error of altitude
-- with what it leaves for the next turn.
structure Controller where
  State : Type
  engaged : String
  start : State
  command : State → (err : Int32) → State × UInt32

-- The two statements that keep a duty in its range.
def limited (lo hi duty : Int32) : Int32 :=
  let duty := if duty < lo then lo else duty
  if hi < duty then hi else duty

def altitude (rx : Vector UInt8 3) : UInt32 := rx[0].toUInt32 <<< 8 ||| rx[1].toUInt32

theorem toNat_altitude (rx : Vector UInt8 3) : (altitude rx).toNat = rx[0].toNat * 256 + rx[1].toNat := by
  have hlow := rx[1].toNat_lt
  have hhigh := rx[0].toNat_lt
  unfold altitude
  rw [UInt32.toNat_or, UInt32.toNat_shiftLeft]
  simp only [UInt8.toNat_toUInt32, UInt32.reduceToNat, Nat.reduceMod]
  rw [Nat.mod_eq_of_lt (by rw [Nat.shiftLeft_eq]; omega), ← Nat.shiftLeft_add_eq_or_of_lt hlow, Nat.shiftLeft_eq]

def altitudeError (target : UInt32) (rx : Vector UInt8 3) : Int32 :=
  (if target = 0 then 200 else target).toInt32 - (altitude rx).toInt32

def setMotors (duty : UInt32) : Driver Unit := do
  pwmSet 0 duty
  pwmSet 1 duty
  pwmSet 2 duty
  pwmSet 3 duty

-- A turn of the loop of a flight.
def flightTurn (c : Controller) (s : c.State) : Driver (ForInStep c.State) := do
  if (← getParam 6) = 9999 then return .done s
  let target ← getParam 0
  let (_, rx) ← i2cTransfer 0x68 [0] 3
  let (s, duty) := c.command s (altitudeError target rx)
  setMotors duty
  delayMs 50
  return .yield s

def flight (c : Controller) : Driver Unit := do
  logMsg c.engaged
  let _ ← Program.loop (flightTurn c) 1200 c.start
  setMotors 0
  logMsg "flight: episode complete, motors safed"

def hold : Controller where
  State := Unit
  engaged := "flight: P-hold engaged"
  start := ()
  command _ err := ((), (limited 2500 8500 (5000 + err * 6)).toUInt32)

def repair : Controller where
  State := Int32
  engaged := "flight: PI-repair engaged"
  start := 5000
  command duty err :=
    let duty := limited 2500 8500 (duty + err / 24)
    let p := duty + err * 3
    (duty, (if p < 2500 then 2500 else if 9500 < p then 9500 else p).toUInt32)

def droneHold : Driver Unit := flight hold

def droneRepairFallback : Driver Unit := flight repair

end Drone

section Factory

def conveyorHalt : Driver Unit := do
  pwmSet 0 0
  logMsg "belt: halted for obstruction clear"

end Factory

end Milo.Demos
