import Milo.Hal.Adapter
import Milo.Lib.Projection
import Mathlib.Logic.Function.Basic

namespace Milo.Hal

open Milo.Lib Milo.Runtime

-- The place of a peripheral: its kind, and the id it is registered under.
inductive Slot where
  | pin (id : UInt32)
  | pwm (id : UInt32)
  | adc (id : UInt32)
  | i2c (id : UInt32)
  | spi (id : UInt32)
  | uart (id : UInt32)
  | delay
deriving DecidableEq, Repr

-- Every box owns its state. What stands in the cell of an empty place is never read.
abbrev Cells (S : Type) := Slot → S

-- A trait object, over the state it acts on.
inductive Peripheral (P : Type) where
  | pin (vtable : DynPin P)
  | pwm (vtable : DynPwm P)
  | adc (vtable : DynAdc P)
  | i2c (vtable : DynI2c P)
  | spi (vtable : DynSpi P)
  | uart (vtable : DynUart P)
  | delay (vtable : DynDelay P)

section Boxes

variable {S : Type} (slot : Slot)

-- A computation on the state in one cell.
def within {β : Type} (f : S → β × S) (cells : Cells S) : β × Cells S :=
  let (b, s) := f (cells slot)
  (b, Function.update cells slot s)

def change (f : S → S) (cells : Cells S) : Cells S :=
  Function.update cells slot (f (cells slot))

-- A box as the adapter sees it among the other boxes.
def DynPin.boxed (p : DynPin S) : DynPin (Cells S) where
  set cells level := change slot (p.set · level) cells
  get cells := within slot p.get cells

def DynPwm.boxed (p : DynPwm S) : DynPwm (Cells S) where
  setDuty cells duty := change slot (p.setDuty · duty) cells

def DynAdc.boxed (p : DynAdc S) : DynAdc (Cells S) where
  read cells := within slot p.read cells

def DynI2c.boxed (p : DynI2c S) : DynI2c (Cells S) where
  transfer cells addr tx _ rx :=
    let (result, rx, s) := p.transfer (cells slot) addr tx rx
    (result, rx, Function.update cells slot s)

def DynSpi.boxed (p : DynSpi S) : DynSpi (Cells S) where
  transfer cells tx _ rx :=
    let (result, rx, s) := p.transfer (cells slot) tx rx
    (result, rx, Function.update cells slot s)

def DynUart.boxed (p : DynUart S) : DynUart (Cells S) where
  write cells data := within slot (p.write · data) cells
  read cells _ buf timeoutMs :=
    let (result, buf, s) := p.read (cells slot) buf timeoutMs
    (result, buf, Function.update cells slot s)

def DynDelay.boxed (p : DynDelay S) : DynDelay (Cells S) where
  delayMs cells ms := change slot (p.delayMs · ms) cells

def Peripheral.boxed : Peripheral S → Peripheral (Cells S)
  | .pin p => .pin (p.boxed slot)
  | .pwm p => .pwm (p.boxed slot)
  | .adc p => .adc (p.boxed slot)
  | .i2c p => .i2c (p.boxed slot)
  | .spi p => .spi (p.boxed slot)
  | .uart p => .uart (p.boxed slot)
  | .delay p => .delay (p.boxed slot)

end Boxes

-- The operations of the trait MiloHardware, and what they answer. A transfer also hands
-- its buffer back.
inductive Operation where
  | gpioSet (pin state : UInt32)
  | gpioGet (pin : UInt32)
  | delayMs (ms : UInt32)
  | getUptimeUs
  | i2cTransfer (addr : UInt8) (tx : Bytes) (n : Nat) (rx : Vector UInt8 n)
  | log (message : String)
  | pwmSet (channel duty : UInt32)
  | adcRead (channel : UInt32)
  | spiTransfer (bus : UInt32) (tx : Bytes) (n : Nat) (rx : Vector UInt8 n)
  | uartWrite (bus : UInt32) (data : Bytes)
  | uartRead (bus : UInt32) (n : Nat) (buf : Vector UInt8 n) (timeoutMs : UInt32)

inductive Reply where
  | unit
  | u32 (value : UInt32)
  | u64 (value : UInt64)
  | i32 (value : Int32)
  | filled (value : Int32) (n : Nat) (buf : Vector UInt8 n)

namespace Operation

def on {H : Type} (hardware : MiloHardware H) (h : H) : Operation → Reply × H
  | .gpioSet pin state => (.unit, hardware.gpioSet h pin state)
  | .gpioGet pin => (hardware.gpioGet h pin).map .u32 id
  | .delayMs ms => (.unit, hardware.delayMs h ms)
  | .getUptimeUs => (.u64 (hardware.getUptimeUs h), h)
  | .i2cTransfer addr tx n rx =>
      let (result, rx, h) := hardware.i2cTransfer h addr tx rx
      (.filled result n rx, h)
  | .log message => (.unit, hardware.log h message)
  | .pwmSet channel duty => (.unit, hardware.pwmSet h channel duty)
  | .adcRead channel => (hardware.adcRead h channel).map .u32 id
  | .spiTransfer bus tx n rx =>
      let (result, rx, h) := hardware.spiTransfer h bus tx rx
      (.filled result n rx, h)
  | .uartWrite bus data => (hardware.uartWrite h bus data).map .i32 id
  | .uartRead bus n buf timeoutMs =>
      let (result, buf, h) := hardware.uartRead h bus buf timeoutMs
      (.filled result n buf, h)

-- The place an operation is about. The syscall for I2C names no bus: it means bus 0.
def slot : Operation → Option Slot
  | .gpioSet pin _ => some (.pin pin)
  | .gpioGet pin => some (.pin pin)
  | .delayMs _ => some .delay
  | .i2cTransfer .. => some (.i2c 0)
  | .pwmSet channel _ => some (.pwm channel)
  | .adcRead channel => some (.adc channel)
  | .spiTransfer bus .. => some (.spi bus)
  | .uartWrite bus _ => some (.uart bus)
  | .uartRead bus .. => some (.uart bus)
  | .getUptimeUs => none
  | .log _ => none

-- The safe default: nothing, 0 or -1, and a buffer as it was.
def default : Operation → Reply
  | .gpioGet _ => .u32 0
  | .adcRead _ => .u32 0
  | .i2cTransfer _ _ n rx => .filled (-1) n rx
  | .spiTransfer _ _ n rx => .filled (-1) n rx
  | .uartWrite .. => .i32 (-1)
  | .uartRead _ n buf _ => .filled (-1) n buf
  | _ => .unit

end Operation

-- What a peripheral does with an operation of its kind.
def Peripheral.perform {P : Type} (s : P) : Peripheral P → Operation → Reply × P
  | .pin p, .gpioSet _ state => (.unit, p.set s (state ≠ 0))
  | .pin p, .gpioGet _ => (p.get s).map (fun level => .u32 (if level then 1 else 0)) id
  | .pwm p, .pwmSet _ duty => (.unit, p.setDuty s duty)
  | .adc p, .adcRead _ => (p.read s).map .u32 id
  | .i2c p, .i2cTransfer addr tx n rx =>
      let (result, rx, s) := p.transfer s addr tx rx
      (.filled result n rx, s)
  | .spi p, .spiTransfer _ tx n rx =>
      let (result, rx, s) := p.transfer s tx rx
      (.filled result n rx, s)
  | .uart p, .uartWrite _ data => (p.write s data).map .i32 id
  | .uart p, .uartRead _ n buf timeoutMs =>
      let (result, buf, s) := p.read s buf timeoutMs
      (.filled result n buf, s)
  | .delay p, .delayMs ms => (.unit, p.delayMs s ms)
  | _, op => (op.default, s)

def Registered.at {P : Type} (r : Registered P) : Slot → Option (Peripheral P)
  | .pin id => (r.pins id).map .pin
  | .pwm id => (r.pwmChannels id).map .pwm
  | .adc id => (r.adcChannels id).map .adc
  | .i2c id => (r.i2cBuses id).map .i2c
  | .spi id => (r.spiBuses id).map .spi
  | .uart id => (r.uartBuses id).map .uart
  | .delay => some (.delay r.delay)

namespace EmbeddedHalAdapter

variable {S : Type} (a : EmbeddedHalAdapter (Cells S))

def registerPin (id : UInt32) (pin : DynPin S) (state : S) : EmbeddedHalAdapter (Cells S) :=
  { a with
    pins := Function.update a.pins id (some (pin.boxed (.pin id)))
    peripherals := Function.update a.peripherals (.pin id) state }

def registerPwm (id : UInt32) (pwm : DynPwm S) (state : S) : EmbeddedHalAdapter (Cells S) :=
  { a with
    pwmChannels := Function.update a.pwmChannels id (some (pwm.boxed (.pwm id)))
    peripherals := Function.update a.peripherals (.pwm id) state }

def registerAdc (id : UInt32) (adc : DynAdc S) (state : S) : EmbeddedHalAdapter (Cells S) :=
  { a with
    adcChannels := Function.update a.adcChannels id (some (adc.boxed (.adc id)))
    peripherals := Function.update a.peripherals (.adc id) state }

def registerI2c (id : UInt32) (i2c : DynI2c S) (state : S) : EmbeddedHalAdapter (Cells S) :=
  { a with
    i2cBuses := Function.update a.i2cBuses id (some (i2c.boxed (.i2c id)))
    peripherals := Function.update a.peripherals (.i2c id) state }

def registerSpi (id : UInt32) (spi : DynSpi S) (state : S) : EmbeddedHalAdapter (Cells S) :=
  { a with
    spiBuses := Function.update a.spiBuses id (some (spi.boxed (.spi id)))
    peripherals := Function.update a.peripherals (.spi id) state }

def registerUart (id : UInt32) (uart : DynUart S) (state : S) : EmbeddedHalAdapter (Cells S) :=
  { a with
    uartBuses := Function.update a.uartBuses id (some (uart.boxed (.uart id)))
    peripherals := Function.update a.peripherals (.uart id) state }

-- What the builder gives before anything is registered.
def bare (delay : DynDelay S) (cells : Cells S) (uptimeFn : Cells S → UInt64) :
    EmbeddedHalAdapter (Cells S) where
  pins _ := none
  pwmChannels _ := none
  adcChannels _ := none
  i2cBuses _ := none
  spiBuses _ := none
  uartBuses _ := none
  delay := delay.boxed .delay
  uptimeFn := uptimeFn
  peripherals := cells
  logSink := []
  lastLog := none

end EmbeddedHalAdapter

-- A call of one of the six register methods, with the box it hands over.
inductive Registration (S : Type) where
  | pin (id : UInt32) (pin : DynPin S) (state : S)
  | pwm (id : UInt32) (pwm : DynPwm S) (state : S)
  | adc (id : UInt32) (adc : DynAdc S) (state : S)
  | i2c (id : UInt32) (i2c : DynI2c S) (state : S)
  | spi (id : UInt32) (spi : DynSpi S) (state : S)
  | uart (id : UInt32) (uart : DynUart S) (state : S)

namespace Registration

variable {S : Type}

def on (a : EmbeddedHalAdapter (Cells S)) : Registration S → EmbeddedHalAdapter (Cells S)
  | .pin id p s => a.registerPin id p s
  | .pwm id p s => a.registerPwm id p s
  | .adc id p s => a.registerAdc id p s
  | .i2c id p s => a.registerI2c id p s
  | .spi id p s => a.registerSpi id p s
  | .uart id p s => a.registerUart id p s

def slot : Registration S → Slot
  | .pin id _ _ => .pin id
  | .pwm id _ _ => .pwm id
  | .adc id _ _ => .adc id
  | .i2c id _ _ => .i2c id
  | .spi id _ _ => .spi id
  | .uart id _ _ => .uart id

def box : Registration S → Peripheral S × S
  | .pin _ p s => (.pin p, s)
  | .pwm _ p s => (.pwm p, s)
  | .adc _ p s => (.adc p, s)
  | .i2c _ p s => (.i2c p, s)
  | .spi _ p s => (.spi p, s)
  | .uart _ p s => (.uart p, s)

end Registration

-- The history of an adapter.
inductive Action (S : Type) where
  | register (registration : Registration S)
  | perform (op : Operation)

namespace Action

variable {S : Type}

def slot : Action S → Option Slot
  | .register registration => some registration.slot
  | .perform op => op.slot

def shownAt (slot : Slot) (action : Action S) : Option (Action S) :=
  if action.slot = some slot then some action else none

def onAdapter (a : EmbeddedHalAdapter (Cells S)) : Action S → Reply × EmbeddedHalAdapter (Cells S)
  | .register registration => (.unit, registration.on a)
  | .perform op => op.on EmbeddedHalAdapter.hardware a

-- What one place would do by itself.
def onBox (box : Option (Peripheral S × S)) : Action S → Reply × Option (Peripheral S × S)
  | .register registration => (.unit, some registration.box)
  | .perform op =>
      match box with
      | none => (op.default, none)
      | some (peripheral, s) => ((peripheral.perform s op).1, some (peripheral, (peripheral.perform s op).2))

end Action

-- The boxes before anything is registered.
def bareBox {S : Type} (delay : DynDelay S) (cells : Cells S) : Slot → Option (Peripheral S × S)
  | .delay => some (.delay delay, cells .delay)
  | _ => none

-- The box an adapter has at a place.
structure Holds {S : Type} (a : EmbeddedHalAdapter (Cells S)) (slot : Slot)
    (box : Option (Peripheral S × S)) : Prop where
  registered : a.at slot = box.map fun b => b.1.boxed slot
  state : ∀ b ∈ box, a.peripherals slot = b.2

section Isolation

variable {S : Type} {a : EmbeddedHalAdapter (Cells S)}

-- A box acts on the state in its cell, and on no other.
theorem Peripheral.perform_boxed (slot : Slot) (p : Peripheral S) (cells : Cells S)
    (op : Operation) :
    (p.boxed slot).perform cells op =
      ((p.perform (cells slot) op).1, Function.update cells slot (p.perform (cells slot) op).2) := by
  have hkept : ∀ op : Operation, (op.default, cells) =
      (op.default, Function.update cells slot (cells slot)) := fun op => by
    rw [Function.update_eq_self]
  cases p with
  | pin p | pwm p | adc p | i2c p | spi p | uart p | delay p =>
      cases op <;> first | rfl | exact hkept _

-- The adapter passes an operation to the box at its place.
theorem perform_registered (op : Operation) {slot : Slot} (hslot : op.slot = some slot)
    {p : Peripheral (Cells S)} (hp : a.at slot = some p) :
    op.on EmbeddedHalAdapter.hardware a =
      ((p.perform a.peripherals op).1, { a with peripherals := (p.perform a.peripherals op).2 }) := by
  cases op with
  | gpioSet | gpioGet | i2cTransfer | pwmSet | adcRead | spiTransfer | uartWrite | uartRead =>
      cases hslot
      obtain ⟨q, hq, rfl⟩ := Option.map_eq_some_iff.mp hp
      simp only [Operation.on, EmbeddedHalAdapter.hardware, EmbeddedHalAdapter.gpioSet,
        EmbeddedHalAdapter.gpioGet, EmbeddedHalAdapter.i2cTransfer, EmbeddedHalAdapter.pwmSet,
        EmbeddedHalAdapter.adcRead, EmbeddedHalAdapter.spiTransfer, EmbeddedHalAdapter.uartWrite,
        EmbeddedHalAdapter.uartRead, hq]
      rfl
  | delayMs ms =>
      cases hslot
      cases hp
      rfl
  | getUptimeUs | log message => cases hslot

-- At an empty place nothing happens but a line in the log.
theorem perform_unregistered (op : Operation) {slot : Slot} (hslot : op.slot = some slot)
    (hp : a.at slot = none) :
    ∃ logSink lastLog, op.on EmbeddedHalAdapter.hardware a =
      (op.default, { a with logSink := logSink, lastLog := lastLog }) := by
  cases op with
  | gpioSet | gpioGet | i2cTransfer | pwmSet | adcRead | spiTransfer | uartWrite | uartRead =>
      cases hslot
      have hnone := Option.map_eq_none_iff.mp hp
      simp only [Operation.on, EmbeddedHalAdapter.hardware, EmbeddedHalAdapter.gpioSet,
        EmbeddedHalAdapter.gpioGet, EmbeddedHalAdapter.i2cTransfer, EmbeddedHalAdapter.pwmSet,
        EmbeddedHalAdapter.adcRead, EmbeddedHalAdapter.spiTransfer, EmbeddedHalAdapter.uartWrite,
        EmbeddedHalAdapter.uartRead, hnone]
      exact ⟨_, _, rfl⟩
  | delayMs ms =>
      cases hslot
      cases hp
  | getUptimeUs | log message => cases hslot

theorem perform_placeless (op : Operation) (hslot : op.slot = none) :
    ∃ logSink lastLog, (op.on EmbeddedHalAdapter.hardware a).2 =
      { a with logSink := logSink, lastLog := lastLog } := by
  cases op with
  | getUptimeUs | log message => exact ⟨_, _, rfl⟩
  | gpioSet | gpioGet | i2cTransfer | pwmSet | adcRead | spiTransfer | uartWrite | uartRead |
    delayMs => cases hslot

-- A registration puts its box at its place and leaves the other places alone.
theorem register_at (registration : Registration S) (slot : Slot) :
    (registration.on a).at slot =
      if slot = registration.slot then some (registration.box.1.boxed slot) else a.at slot := by
  cases registration with
  | pin id p s | pwm id p s | adc id p s | i2c id p s | spi id p s | uart id p s =>
      cases slot with
      | pin i | pwm i | adc i | i2c i | spi i | uart i =>
          by_cases hid : i = id
          · subst hid
            simp [Registration.on, Registration.slot, Registration.box, Registered.at,
              EmbeddedHalAdapter.registerPin, EmbeddedHalAdapter.registerPwm,
              EmbeddedHalAdapter.registerAdc, EmbeddedHalAdapter.registerI2c,
              EmbeddedHalAdapter.registerSpi, EmbeddedHalAdapter.registerUart, Peripheral.boxed]
          · simp [Registration.on, Registration.slot, Registered.at,
              EmbeddedHalAdapter.registerPin, EmbeddedHalAdapter.registerPwm,
              EmbeddedHalAdapter.registerAdc, EmbeddedHalAdapter.registerI2c,
              EmbeddedHalAdapter.registerSpi, EmbeddedHalAdapter.registerUart, hid]
      | delay => rfl

theorem register_peripherals (registration : Registration S) :
    (registration.on a).peripherals =
      Function.update a.peripherals registration.slot registration.box.2 := by
  cases registration <;> rfl

theorem Holds.congr {a' : EmbeddedHalAdapter (Cells S)} {slot : Slot}
    {box : Option (Peripheral S × S)} (h : Holds a slot box) (hat : a'.at slot = a.at slot)
    (hstate : a'.peripherals slot = a.peripherals slot) : Holds a' slot box :=
  ⟨hat.trans h.registered, fun b hb => hstate.trans (h.state b hb)⟩

-- Each place is empty, or has a box with a state of its own.
def Owned (a : EmbeddedHalAdapter (Cells S)) : Prop := ∀ slot, ∃ box, Holds a slot box

theorem holds_bare (delay : DynDelay S) (cells : Cells S) (uptimeFn : Cells S → UInt64) (slot : Slot) :
    Holds (EmbeddedHalAdapter.bare delay cells uptimeFn) slot (bareBox delay cells slot) := by
  cases slot with
  | pin id | pwm id | adc id | i2c id | spi id | uart id => exact ⟨rfl, fun b hb => by cases hb⟩
  | delay =>
      refine ⟨rfl, fun b hb => ?_⟩
      cases hb
      rfl

theorem register_holds (registration : Registration S) :
    Holds (registration.on a) registration.slot (some registration.box) := by
  refine ⟨?_, fun b hb => ?_⟩
  · rw [register_at, if_pos rfl]
    rfl
  · cases hb
    rw [register_peripherals, Function.update_self]

theorem register_elsewhere (registration : Registration S) {slot : Slot}
    {box : Option (Peripheral S × S)} (h : Holds a slot box) (hne : slot ≠ registration.slot) :
    Holds (registration.on a) slot box := by
  refine h.congr ?_ ?_
  · rw [register_at, if_neg hne]
  · rw [register_peripherals, Function.update_of_ne hne]

-- An operation at a place does there what it would do to the box alone.
theorem perform_holds (op : Operation) {slot : Slot} {box : Option (Peripheral S × S)}
    (h : Holds a slot box) (hslot : op.slot = some slot) :
    (op.on EmbeddedHalAdapter.hardware a).1 = ((Action.perform op).onBox box).1 ∧
      Holds (op.on EmbeddedHalAdapter.hardware a).2 slot ((Action.perform op).onBox box).2 := by
  cases box with
  | none =>
      obtain ⟨logSink, lastLog, heq⟩ := perform_unregistered op hslot h.registered
      rw [heq]
      exact ⟨rfl, h.registered, fun b hb => by cases hb⟩
  | some b =>
      obtain ⟨p, s⟩ := b
      have hstate : a.peripherals slot = s := h.state _ rfl
      rw [perform_registered op hslot h.registered, Peripheral.perform_boxed, hstate]
      refine ⟨rfl, h.registered, fun b hb => ?_⟩
      cases hb
      exact Function.update_self ..

-- An operation at another place changes neither the box nor what is registered.
theorem perform_elsewhere (ha : Owned a) (op : Operation) {slot : Slot} (hne : op.slot ≠ some slot) :
    (op.on EmbeddedHalAdapter.hardware a).2.toRegistered = a.toRegistered ∧
      (op.on EmbeddedHalAdapter.hardware a).2.peripherals slot = a.peripherals slot := by
  cases hother : op.slot with
  | none =>
      obtain ⟨logSink, lastLog, heq⟩ := perform_placeless (a := a) op hother
      rw [heq]
      exact ⟨rfl, rfl⟩
  | some other =>
      obtain ⟨box, hbox⟩ := ha other
      cases box with
      | none =>
          obtain ⟨logSink, lastLog, heq⟩ := perform_unregistered op hother hbox.registered
          rw [heq]
          exact ⟨rfl, rfl⟩
      | some b =>
          have hslot : slot ≠ other := by
            rintro rfl
            exact hne hother
          rw [perform_registered op hother hbox.registered, Peripheral.perform_boxed]
          exact ⟨rfl, Function.update_of_ne hslot ..⟩

theorem action_holds (action : Action S) {slot : Slot} {box : Option (Peripheral S × S)}
    (h : Holds a slot box) (hslot : action.slot = some slot) :
    (action.onAdapter a).1 = (action.onBox box).1 ∧
      Holds (action.onAdapter a).2 slot (action.onBox box).2 := by
  cases action with
  | register registration =>
      cases hslot
      exact ⟨rfl, register_holds registration⟩
  | perform op => exact perform_holds op h hslot

theorem action_elsewhere (ha : Owned a) (action : Action S) {slot : Slot}
    {box : Option (Peripheral S × S)} (h : Holds a slot box) (hne : action.slot ≠ some slot) :
    Holds (action.onAdapter a).2 slot box := by
  cases action with
  | register registration => exact register_elsewhere registration h fun heq => hne (by rw [heq]; rfl)
  | perform op =>
      obtain ⟨hregistered, hstate⟩ := perform_elsewhere ha op hne
      exact h.congr (congrArg (Registered.at · slot) hregistered) hstate

theorem Owned.step (ha : Owned a) (action : Action S) : Owned (action.onAdapter a).2 := by
  intro slot
  obtain ⟨box, hbox⟩ := ha slot
  by_cases hslot : action.slot = some slot
  · exact ⟨_, (action_holds action hbox hslot).2⟩
  · exact ⟨box, action_elsewhere ha action hbox hslot⟩

-- Each place lives as if it were the only one.
theorem place_projects (slot : Slot) :
    Projects (Action.onAdapter (S := S)) Action.onBox (Action.shownAt slot)
      (fun a box => Owned a ∧ Holds a slot box) where
  shown a box action c h hview := by
    unfold Action.shownAt at hview
    split_ifs at hview with hslot
    obtain rfl := Option.some.inj hview
    obtain ⟨hreply, hnext⟩ := action_holds action h.2 hslot
    exact ⟨hreply, h.1.step action, hnext⟩
  hidden a box action h hview := by
    unfold Action.shownAt at hview
    split_ifs at hview with hslot
    exact ⟨h.1.step action, action_elsewhere h.1 action h.2 hslot⟩

theorem ownedAfter_run (history : List (Action S)) (ha : Owned a) :
    Owned (finalState Action.onAdapter a history) := by
  induction history generalizing a with
  | nil => exact ha
  | cons action history ih => exact ih (ha.step action)

-- After any registrations and operations, in any order: an operation leaves every other
-- place alone, it is what the box at its own place does, and it has the default answer
-- where there is none. Each place answers as if nothing were done at the others.
theorem peripherals_isolated (delay : DynDelay S) (cells : Cells S) (uptimeFn : Cells S → UInt64)
    (history : List (Action S)) :
    let bare := EmbeddedHalAdapter.bare delay cells uptimeFn
    let a := finalState Action.onAdapter bare history
    (∀ (op : Operation) (slot : Slot), op.slot ≠ some slot →
      (op.on EmbeddedHalAdapter.hardware a).2.toRegistered = a.toRegistered ∧
        (op.on EmbeddedHalAdapter.hardware a).2.peripherals slot = a.peripherals slot) ∧
    (∀ (op : Operation) (slot : Slot) (p : Peripheral (Cells S)), op.slot = some slot →
      a.at slot = some p → ∃ q : Peripheral S, p = q.boxed slot ∧
        (op.on EmbeddedHalAdapter.hardware a).1 = (q.perform (a.peripherals slot) op).1 ∧
        (op.on EmbeddedHalAdapter.hardware a).2.peripherals slot =
          (q.perform (a.peripherals slot) op).2) ∧
    (∀ (op : Operation) (slot : Slot), op.slot = some slot → a.at slot = none →
      (op.on EmbeddedHalAdapter.hardware a).1 = op.default ∧
        (op.on EmbeddedHalAdapter.hardware a).2.peripherals = a.peripherals) ∧
    ∀ slot : Slot,
      observed Action.onAdapter (Action.shownAt slot) bare history =
        answers Action.onBox (bareBox delay cells slot) (history.filterMap (Action.shownAt slot)) ∧
      Holds a slot
        (finalState Action.onBox (bareBox delay cells slot) (history.filterMap (Action.shownAt slot))) := by
  intro bare a
  have hbare : Owned bare := fun slot => ⟨_, holds_bare delay cells uptimeFn slot⟩
  have ha : Owned a := ownedAfter_run history hbare
  refine ⟨fun op slot hne => perform_elsewhere ha op hne, fun op slot p hslot hp => ?_,
    fun op slot hslot hp => ?_, fun slot => ?_⟩
  · obtain ⟨box, hbox⟩ := ha slot
    cases box with
    | none =>
        have hnone := hbox.registered
        rw [hp] at hnone
        cases hnone
    | some b =>
        have hq : p = b.1.boxed slot := Option.some.inj (hp.symm.trans hbox.registered)
        obtain ⟨hreply, hnext⟩ := perform_holds op hbox hslot
        rw [hbox.state b rfl]
        exact ⟨b.1, hq, hreply, hnext.state _ rfl⟩
  · obtain ⟨logSink, lastLog, heq⟩ := perform_unregistered op hslot hp
    rw [heq]
    exact ⟨rfl, rfl⟩
  · have hrel : Owned bare ∧ Holds bare slot (bareBox delay cells slot) :=
      ⟨hbare, holds_bare delay cells uptimeFn slot⟩
    exact ⟨(place_projects slot).observed_eq hrel history,
      ((place_projects slot).finalState_rel hrel history).2⟩

end Isolation

end Milo.Hal
