import Milo.Hal.Isolation
import Milo.Targets.Sim.Profile
import Milo.Lib.Approach
import Mathlib.Data.Rat.Floor

-- The simulated hardware, its floating-point numbers read as rational ones.
namespace Milo.Targets.Sim

open Milo.Lib Milo.Runtime Milo.Hal

structure SimHal where
  profile : SimProfile
  lastStep : ℚ
  pwm : Fin 8 → ℚ
  gpio : Fin 32 → UInt32
  altitudeM : ℚ
  verticalV : ℚ
  batteryMv : ℚ
  beltPos : ℚ
  itemsPassed : ℕ
  motorTempC : ℚ
  ovenTempC : ℚ
  jointsDeg : Fin 3 → ℚ

-- What a call finds in the world: the seconds since the start, and parameter slot 7 as its
-- step reads it and as the item sensor does.
structure Readings where
  now : ℚ
  fault : UInt32
  sensorFault : UInt32

-- The casts of a number to u32 and u16, which saturate.
def asU32 (x : ℚ) : UInt32 := UInt32.ofNat (min ⌊x⌋₊ (2 ^ 32 - 1))

def asU16 (x : ℚ) : UInt16 := UInt16.ofNat (min ⌊x⌋₊ (2 ^ 16 - 1))

-- The loop that moves the belt on past the items.
def passItems (beltPos : ℚ) (itemsPassed : ℕ) : ℚ × ℕ :=
  if 1 ≤ beltPos then passItems (beltPos - 1) (itemsPassed + 1) else (beltPos, itemsPassed)
termination_by ⌊beltPos⌋₊
decreasing_by
  rw [Nat.floor_sub_one]
  have hpos := Nat.floor_pos.mpr ‹1 ≤ beltPos›
  omega

namespace SimHal

def new (profile : SimProfile) : SimHal where
  profile := profile
  lastStep := 0
  pwm _ := 0
  gpio _ := 0
  altitudeM := 0
  verticalV := 0
  batteryMv := 4200
  beltPos := 0
  itemsPassed := 0
  motorTempC := 25
  ovenTempC := 25
  jointsDeg _ := 0

section Physics

variable (hal : SimHal) (fault : UInt32) (dt : ℚ)

def thrust : ℚ :=
  if fault ≠ 0 then (hal.pwm 0 + hal.pwm 1 + hal.pwm 2 * 0.4 + hal.pwm 3) / 4
  else (hal.pwm 0 + hal.pwm 1 + hal.pwm 2 + hal.pwm 3) / 4

def stepDrone : SimHal :=
  let thrust := hal.thrust fault
  let accel := (thrust - 0.5) * 12 - hal.verticalV * 0.8
  let verticalV := hal.verticalV + accel * dt
  let altitudeM := hal.altitudeM + verticalV * dt
  let batteryMv := hal.batteryMv - thrust * 25 * dt
  { hal with
    altitudeM := if altitudeM < 0 then 0 else altitudeM
    verticalV := if altitudeM < 0 ∧ verticalV < 0 then 0 else verticalV
    batteryMv := if batteryMv < 3300 then 3300 else batteryMv }

def stepConveyor : SimHal :=
  let speed := hal.pwm 0
  let (beltPos, itemsPassed) := passItems (hal.beltPos + speed * 2 * dt) hal.itemsPassed
  let target := 25 + hal.pwm 0 * 55
  { hal with
    beltPos := beltPos
    itemsPassed := itemsPassed
    motorTempC := lag hal.motorTempC target (dt / 8) }

def stepOven : SimHal :=
  let eff := if fault ≠ 0 then 1.35 else 1
  let target := 25 + hal.pwm 0 * 300 * eff
  { hal with ovenTempC := lag hal.ovenTempC target (dt / 6) }

-- The channel that sets the target of a joint.
def channel (j : Fin 3) : Fin 8 := j.castLE (by decide)

def stepArm : SimHal :=
  { hal with
    jointsDeg := fun j => slew (hal.jointsDeg j) (hal.pwm (channel j) * 180) (90 * dt) }

def advance : SimHal :=
  match hal.profile with
  | .drone => hal.stepDrone fault dt
  | .conveyor => hal.stepConveyor dt
  | .oven => hal.stepOven fault dt
  | .arm => hal.stepArm dt

end Physics

section Trait

variable (readings : Readings) (hal : SimHal)

-- The step of the physics up to the time that the clock shows.
def step : SimHal :=
  let dt := readings.now - hal.lastStep
  let hal := { hal with lastStep := readings.now }
  if dt ≤ 0 then hal
  else hal.advance readings.fault (if 0.5 < dt then 0.5 else dt)

def gpioSet (pin state : UInt32) : SimHal :=
  let hal := hal.step readings
  if h : pin.toNat < 32 then { hal with gpio := Function.update hal.gpio ⟨pin.toNat, h⟩ state } else hal

def gpioGet (pin : UInt32) : UInt32 × SimHal :=
  let hal := hal.step readings
  match hal.profile, pin with
  | .conveyor, 26 =>
      if readings.sensorFault ≠ 0 then (0, hal) else (if hal.beltPos < 0.2 then 1 else 0, hal)
  | .arm, 20 => (if hal.jointsDeg 0 ≤ 1 then 1 else 0, hal)
  | .arm, 21 => (if 179 ≤ hal.jointsDeg 0 then 1 else 0, hal)
  | _, _ => (if h : pin.toNat < 32 then hal.gpio ⟨pin.toNat, h⟩ else 0, hal)

-- The delay itself shows in what the clock reads next.
def delayMs : SimHal := hal.step readings

def getUptimeUs : UInt64 := UInt64.ofNat ⌊readings.now * 1000000⌋₊

-- The inertial unit of the drone: the altitude in centimetres, then the way it goes.
def i2cTransfer (addr : UInt8) {n : ℕ} (rx : Vector UInt8 n) : Int32 × Vector UInt8 n × SimHal :=
  let hal := hal.step readings
  match hal.profile, addr with
  | .drone, 0x68 =>
      let altCm := asU16 (clamp 0 65535 (hal.altitudeM * 100))
      let rx :=
        if 2 ≤ n then
          (rx.setIfInBounds 0 (altCm >>> 8).toUInt8).setIfInBounds 1 altCm.toUInt8
        else rx
      let rx := if 3 ≤ n then rx.setIfInBounds 2 (if 0 ≤ hal.verticalV then 1 else 0) else rx
      (0, rx, hal)
  | _, _ => (-1, rx, hal)

def pwmSet (channel duty : UInt32) : SimHal :=
  let hal := hal.step readings
  if h : channel.toNat < 8 then
    { hal with
      pwm := Function.update hal.pwm ⟨channel.toNat, h⟩ ((min duty.toNat 10000 : ℕ) / 10000) }
  else hal

def adcRead (channel : UInt32) : UInt32 × SimHal :=
  let hal := hal.step readings
  match hal.profile, channel with
  | .drone, 0 => (asU32 (hal.batteryMv / 2), hal)
  | .conveyor, 1 => (asU32 (hal.motorTempC * 10), hal)
  | .oven, 0 => (asU32 (hal.ovenTempC * 10), hal)
  | .arm, 0 => (asU32 (hal.pwm 3 * 4095), hal)
  | _, _ => (0, hal)

end Trait

-- The backend SimHal in a call with these readings, less what it prints.
def hardware (readings : Readings) : MiloHardware SimHal where
  gpioSet hal pin state := hal.gpioSet readings pin state
  gpioGet hal pin := hal.gpioGet readings pin
  delayMs hal _ := hal.delayMs readings
  getUptimeUs _ := getUptimeUs readings
  i2cTransfer hal addr _ _ rx := hal.i2cTransfer readings addr rx
  log hal _ := hal
  pwmSet hal channel duty := hal.pwmSet readings channel duty
  adcRead hal channel := hal.adcRead readings channel
  spiTransfer hal _ tx _ rx := (0, Vector.ofFn fun i => tx.getD i (rx.get i), hal)
  uartWrite hal _ data := (Int32.ofNat data.length, hal)
  uartRead hal _ _ buf _ := (0, buf, hal)

end SimHal

structure Call where
  op : Operation
  readings : Readings

namespace SimHal

def after (hal : SimHal) (c : Call) : SimHal := (c.op.on (hardware c.readings) hal).2

-- How far the belt goes in some time.
def travel (hal : SimHal) (dt : ℚ) : ℚ :=
  if hal.profile = .conveyor then 2 * hal.pwm 0 * dt else 0

-- The backend after a sequence of calls.
def run (hal : SimHal) (calls : List Call) : SimHal := calls.foldl after hal

end SimHal

end Milo.Targets.Sim
