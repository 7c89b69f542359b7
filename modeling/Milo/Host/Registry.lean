import Milo.Host.Results
import Milo.Lib.Sweep
import Mathlib.Data.List.ReduceOption

-- The operations of the registry that go over the whole fleet.
namespace Milo.Host

open Milo.Engine.Link Milo.Lib

-- What a method of a device raises: what its transport raised, or what came before or
-- after that (numbers that struct.pack refuses, a payload that is no answer).
inductive CallError where
  | link (e : ReadError)
  | closing (hangUp : HangUp)
  | structError
  | decoding (payload : Bytes)
deriving DecidableEq

def CallError.ofTransport : CallError → Bool
  | .link _ | .closing _ => true
  | .structError | .decoding _ => false

-- A MiloDevice with its transport, and what closing that would raise. The number of closes
-- is no field of the source.
structure FleetDevice (J : Type) where
  session : Session J
  connected : Bool
  closing : Option HangUp
  closes : ℕ

structure RegisteredDevice (J : Type) where
  device : FleetDevice J
  lastStatus : Option J

-- The table _devices.
structure DeviceRegistry (J : Type) where
  devices : List (String × RegisteredDevice J)
  nodup : (devices.map Prod.fst).Nodup

-- What an operation leaves behind: what it returns, by the names of the devices, or
-- raises; the devices that were in the table; and the table.
structure Fanned (J : Type) where
  outcome : Except CallError (List (String × Except CallError (Option J)))
  entries : List (String × RegisteredDevice J)
  registry : DeviceRegistry J

section Methods

variable {J : Type} (decode : Operation → Bytes → Option J)

def FleetDevice.perform (d : FleetDevice J) (op : Operation) :
    Except CallError (Option J) × FleetDevice J :=
  match d.session.perform op with
  | (.error e, session) => (.error (.link e), { d with session := session })
  | (.ok none, session) => (.ok none, { d with session := session })
  | (.ok (some payload), session) =>
      match decode op payload with
      | none => (.error (.decoding payload), { d with session := session })
      | some answer => (.ok (some answer), { d with session := session })

def FitsU32 (n : ℤ) : Prop := 0 ≤ n ∧ n < 2 ^ 32

instance (n : ℤ) : Decidable (FitsU32 n) := inferInstanceAs (Decidable (_ ∧ _))

-- MiloDevice.set_param packs its arguments before it writes.
def FleetDevice.setParam (d : FleetDevice J) (slot value : ℤ) :
    Except CallError (Option J) × FleetDevice J :=
  if FitsU32 slot ∧ FitsU32 value then
    d.perform decode (.setParam (UInt32.ofNat slot.toNat) (UInt32.ofNat value.toNat))
  else (.error .structError, d)

def FleetDevice.close (d : FleetDevice J) : Except CallError (Option J) × FleetDevice J :=
  match d.closing with
  | some hangUp => (.error (.closing hangUp), { d with closes := d.closes + 1 })
  | none => (.ok none, { d with closes := d.closes + 1, connected := false })

def RegisteredDevice.call (method : FleetDevice J → Except CallError (Option J) × FleetDevice J)
    (entry : RegisteredDevice J) : Except CallError (Option J) × RegisteredDevice J :=
  let (outcome, device) := method entry.device
  (outcome, { entry with device := device })

def RegisteredDevice.queryStatus (entry : RegisteredDevice J) :
    Except CallError (Option J) × RegisteredDevice J :=
  match entry.call fun d => d.perform decode .queryStatus with
  | (.ok status, entry) => (.ok status, { entry with lastStatus := status })
  | (.error e, entry) => (.error e, entry)

theorem RegisteredDevice.queryStatus_eq (entry : RegisteredDevice J) :
    (entry.queryStatus decode).1 = (entry.device.perform decode .queryStatus).1 ∧
      (entry.queryStatus decode).2.device = (entry.device.perform decode .queryStatus).2 := by
  unfold queryStatus call
  rcases hperform : entry.device.perform decode .queryStatus with ⟨e | status, device⟩
  · simp only [hperform, and_self]
  · simp only [hperform, and_self]

-- The body of a loop that asks whether the device is connected, with and without a
-- handler around the call. It notes what a call answered.
def tried (call : RegisteredDevice J → Except CallError (Option J) × RegisteredDevice J)
    (entry : RegisteredDevice J) :
    Except CallError (Option (Except CallError (Option J))) × RegisteredDevice J :=
  if entry.device.connected then (caught call entry).map (·.map some) id else (.ok none, entry)

def untried (call : RegisteredDevice J → Except CallError (Option J) × RegisteredDevice J)
    (entry : RegisteredDevice J) :
    Except CallError (Option (Except CallError (Option J))) × RegisteredDevice J :=
  if entry.device.connected then (call entry).map (·.map (some ∘ .ok)) id else (.ok none, entry)

-- A body on the entry of a name.
def named (body : RegisteredDevice J →
      Except CallError (Option (Except CallError (Option J))) × RegisteredDevice J)
    (item : String × RegisteredDevice J) :
    Except CallError (Option (String × Except CallError (Option J))) × String × RegisteredDevice J :=
  let (outcome, entry) := body item.2
  (outcome.map (·.map (item.1, ·)), item.1, entry)

namespace DeviceRegistry

variable (reg : DeviceRegistry J)

def sweeping (body : RegisteredDevice J →
    Except CallError (Option (Except CallError (Option J))) × RegisteredDevice J) : Fanned J where
  outcome := (sweep (named body) reg.devices).1.map List.reduceOption
  entries := (sweep (named body) reg.devices).2
  registry :=
    { devices := (sweep (named body) reg.devices).2
      nodup := by
        rw [map_sweep (f := Prod.fst) fun item => rfl]
        exact reg.nodup }

-- The threads of the pool have a device each: what they do does not depend on their order.
def pushToAll (wasmBytes : Bytes) : Fanned J :=
  reg.sweeping (tried (RegisteredDevice.call fun d => d.perform decode (.push wasmBytes)))

def pushAsyncToAll (wasmBytes : Bytes) : Fanned J :=
  reg.sweeping (untried (RegisteredDevice.call fun d => d.perform decode (.pushAsync wasmBytes)))

def waitAllResults : Fanned J :=
  reg.sweeping (tried (RegisteredDevice.call fun d => d.perform decode .waitResult))

def broadcastParam (slot value : ℤ) : Fanned J :=
  reg.sweeping (untried (RegisteredDevice.call fun d => d.setParam decode slot value))

def stopAll : Fanned J := reg.sweeping (tried (RegisteredDevice.call fun d => d.perform decode .stop))

def queryAll : Fanned J := reg.sweeping (tried (RegisteredDevice.queryStatus decode))

def closed (entry : RegisteredDevice J) :
    Except CallError (Option (Except CallError (Option J))) × RegisteredDevice J :=
  (entry.call FleetDevice.close).map (·.map fun _ => none) id

def closeAll : Fanned J :=
  let fanned := reg.sweeping closed
  match fanned.outcome with
  | .ok _ => { fanned with registry := { devices := [], nodup := List.nodup_nil } }
  | .error _ => fanned

theorem closeAll_outcome : reg.closeAll.outcome = (reg.sweeping closed).outcome := by
  unfold closeAll
  cases houtcome : (reg.sweeping closed).outcome with
  | ok results => simp only [houtcome]
  | error e => simp only [houtcome]

theorem closeAll_entries : reg.closeAll.entries = (reg.sweeping closed).entries := by
  unfold closeAll
  cases houtcome : (reg.sweeping closed).outcome with
  | ok results => simp only [houtcome]
  | error e => simp only [houtcome]

end DeviceRegistry

end Methods

end Milo.Host
