import Milo.Runtime.WasmiError

namespace Milo.Runtime.Wasmi

-- The costs of the bulk operations. Those of single instructions go into the code of a function
-- when it is translated.
structure FuelCosts where
  bytesPerFuel : UInt64
  nonZero : bytesPerFuel ≠ 0

def defaultFuelCosts : FuelCosts := ⟨64, by decide⟩

structure FuelCostsProvider where
  custom : Option FuelCosts

namespace FuelCostsProvider

variable (costs : FuelCostsProvider)

def bytesPerFuel : UInt64 := (costs.custom.getD defaultFuelCosts).bytesPerFuel

theorem bytesPerFuel_pos : 0 < costs.bytesPerFuel.toNat := by
  have h : costs.bytesPerFuel ≠ 0 := (costs.custom.getD defaultFuelCosts).nonZero
  apply Nat.pos_of_ne_zero
  intro hzero
  exact h (UInt64.toNat_inj.mp hzero)

def fuelForCopyingBytes (lenBytes : UInt64) : UInt64 := lenBytes / costs.bytesPerFuel

-- A value is of 8 bytes, and of 16 with the vectors of 128 bits.
def fuelForCopyingValues (sizeOfVal : Nat) (lenValues : UInt64) : UInt64 :=
  costs.fuelForCopyingBytes (UInt64.ofNat (min (lenValues.toNat * sizeOfVal) (2 ^ 64 - 1)))

@[simp] theorem toNat_fuelForCopyingBytes (lenBytes : UInt64) :
    (costs.fuelForCopyingBytes lenBytes).toNat = lenBytes.toNat / costs.bytesPerFuel.toNat :=
  UInt64.toNat_div _ _

theorem toNat_fuelForCopyingValues (sizeOfVal : Nat) (lenValues : UInt64) :
    (costs.fuelForCopyingValues sizeOfVal lenValues).toNat =
      min (lenValues.toNat * sizeOfVal) (2 ^ 64 - 1) / costs.bytesPerFuel.toNat := by
  unfold fuelForCopyingValues
  rw [toNat_fuelForCopyingBytes, UInt64.toNat_ofNat_of_lt']
  exact Nat.lt_of_le_of_lt (Nat.min_le_right _ _) (by decide)

-- What is copied for a price is less than the price and one unit more buy.
theorem copied_lt (lenBytes : UInt64) :
    lenBytes.toNat <
      costs.bytesPerFuel.toNat * (costs.fuelForCopyingBytes lenBytes).toNat + costs.bytesPerFuel.toNat := by
  rw [toNat_fuelForCopyingBytes]
  exact Nat.lt_mul_div_succ _ costs.bytesPerFuel_pos

end FuelCostsProvider

structure Fuel where
  remaining : UInt64
  enabled : Bool
  costs : FuelCostsProvider

namespace Fuel

def new (enabled : Bool) (costs : FuelCostsProvider) : Fuel := ⟨0, enabled, costs⟩

variable (fuel : Fuel)

def checkFuelMeteringEnabled : Except FuelError Unit :=
  if fuel.enabled then .ok () else .error .fuelMeteringDisabled

def setFuel (amount : UInt64) : Except FuelError Fuel := do
  fuel.checkFuelMeteringEnabled
  .ok { fuel with remaining := amount }

def getFuel : Except FuelError UInt64 := do
  fuel.checkFuelMeteringEnabled
  .ok fuel.remaining

-- An error leaves the fuel as it was, here and below.
def consumeFuelUnchecked (delta : UInt64) : Except FuelError Fuel :=
  if delta ≤ fuel.remaining then .ok { fuel with remaining := fuel.remaining - delta }
  else .error (.outOfFuel delta)

def consumeFuel (cost : FuelCostsProvider → UInt64) : Except FuelError Fuel := do
  fuel.checkFuelMeteringEnabled
  fuel.consumeFuelUnchecked (cost fuel.costs)

def consumeFuelIf (cost : FuelCostsProvider → UInt64) : Except FuelError Fuel :=
  if fuel.enabled then fuel.consumeFuelUnchecked (cost fuel.costs) else .ok fuel

variable {fuel} {fuel' : Fuel} {cost : FuelCostsProvider → UInt64}

-- What a payment takes.
structure Paid (fuel fuel' : Fuel) (price : UInt64) : Prop where
  enabled : fuel'.enabled = fuel.enabled
  costs : fuel'.costs = fuel.costs
  remaining : fuel'.remaining.toNat + (if fuel.enabled then price.toNat else 0) = fuel.remaining.toNat

theorem consumeFuelIf_ok (h : fuel.consumeFuelIf cost = .ok fuel') : fuel.Paid fuel' (cost fuel.costs) := by
  unfold consumeFuelIf consumeFuelUnchecked at h
  split_ifs at h with henabled hle
  · obtain rfl := Except.ok.inj h
    refine ⟨rfl, rfl, ?_⟩
    have hprice : (cost fuel.costs).toNat ≤ fuel.remaining.toNat := hle
    rw [if_pos henabled]
    show (fuel.remaining - cost fuel.costs).toNat + _ = _
    rw [UInt64.toNat_sub_of_le _ _ hle]
    omega
  · obtain rfl := Except.ok.inj h
    exact ⟨rfl, rfl, by rw [if_neg henabled, Nat.add_zero]⟩

-- A price that is not paid is more than there is.
theorem consumeFuelIf_error {error : FuelError} (h : fuel.consumeFuelIf cost = .error error) :
    fuel.enabled ∧ fuel.remaining < cost fuel.costs ∧ error = .outOfFuel (cost fuel.costs) := by
  unfold consumeFuelIf consumeFuelUnchecked at h
  split_ifs at h with henabled hle
  exact ⟨henabled, UInt64.not_le.mp hle, (Except.error.inj h).symm⟩

end Fuel

end Milo.Runtime.Wasmi
