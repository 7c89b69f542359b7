import Milo.Targets.Sim
import Mathlib.Tactic.Positivity

-- What holds of the simulated hardware whenever and however it is called.
namespace Milo.Targets.Sim

open Milo.Lib Milo.Runtime Milo.Hal

theorem passItems_spec {beltPos : ℚ} (itemsPassed : ℕ) (hpos : 0 ≤ beltPos) :
    (passItems beltPos itemsPassed).1 ∈ Set.Ico 0 1 ∧
      ((passItems beltPos itemsPassed).2 : ℚ) + (passItems beltPos itemsPassed).1 =
        itemsPassed + beltPos := by
  induction beltPos, itemsPassed using passItems.induct with
  | case1 beltPos itemsPassed hfull ih =>
      rw [passItems, if_pos hfull]
      obtain ⟨hrange, hsum⟩ := ih (by linarith)
      refine ⟨hrange, ?_⟩
      rw [hsum]
      push_cast
      ring
  | case2 beltPos itemsPassed hfull =>
      rw [passItems, if_neg hfull]
      exact ⟨⟨hpos, not_le.mp hfull⟩, rfl⟩

structure Bounded (hal : SimHal) : Prop where
  duty : ∀ ch, hal.pwm ch ∈ Set.Icc 0 1
  belt : hal.beltPos ∈ Set.Ico 0 1
  motor : hal.motorTempC ∈ Set.Icc 25 80
  oven : hal.ovenTempC ∈ Set.Icc 25 430
  joints : ∀ j, hal.jointsDeg j ∈ Set.Icc 0 180
  altitude : 0 ≤ hal.altitudeM
  battery : hal.batteryMv ∈ Set.Icc 3300 4200

theorem bounded_new (profile : SimProfile) : Bounded (SimHal.new profile) where
  duty _ := ⟨le_rfl, zero_le_one⟩
  belt := ⟨le_rfl, zero_lt_one⟩
  motor := ⟨le_rfl, by norm_num [SimHal.new]⟩
  oven := ⟨le_rfl, by norm_num [SimHal.new]⟩
  joints _ := ⟨le_rfl, by norm_num [SimHal.new]⟩
  altitude := le_rfl
  battery := ⟨by norm_num [SimHal.new], le_rfl⟩

section Physics

variable {hal : SimHal} {dt : ℚ}

theorem Bounded.thrust (h : Bounded hal) (fault : UInt32) : 0 ≤ hal.thrust fault := by
  have h0 := (h.duty 0).1
  have h1 := (h.duty 1).1
  have h2 := (h.duty 2).1
  have h3 := (h.duty 3).1
  unfold SimHal.thrust
  split_ifs
  · positivity
  · positivity

theorem Bounded.stepDrone (h : Bounded hal) (fault : UInt32) (hdt : 0 ≤ dt) :
    Bounded (hal.stepDrone fault dt) := by
  have hthrust := h.thrust fault
  have hdrain : 0 ≤ hal.thrust fault * 25 * dt := by positivity
  have hfull := h.battery.2
  refine { h with altitude := ?_, battery := ?_ }
  · dsimp only [SimHal.stepDrone]
    split_ifs with hbelow
    · exact le_rfl
    · exact not_lt.mp hbelow
  · dsimp only [SimHal.stepDrone]
    split_ifs with hempty
    · exact ⟨le_rfl, by norm_num⟩
    · exact ⟨not_lt.mp hempty, by linarith⟩

theorem Bounded.stepConveyor (h : Bounded hal) (hdt : dt ∈ Set.Icc 0 0.5) :
    Bounded (hal.stepConveyor dt) := by
  obtain ⟨hduty, hduty'⟩ := h.duty 0
  have htravel : 0 ≤ hal.pwm 0 * 2 * dt := by
    have := hdt.1
    positivity
  have hpos : 0 ≤ hal.beltPos + hal.pwm 0 * 2 * dt := add_nonneg h.belt.1 htravel
  refine { h with belt := (passItems_spec hal.itemsPassed hpos).1, motor := ?_ }
  refine lag_mem_Icc h.motor ⟨by linarith, by linarith⟩ ⟨?_, ?_⟩
  · have := hdt.1
    positivity
  · have := hdt.2
    norm_num at this ⊢
    linarith

theorem Bounded.stepOven (h : Bounded hal) (fault : UInt32) (hdt : dt ∈ Set.Icc 0 0.5) :
    Bounded (hal.stepOven fault dt) := by
  obtain ⟨hduty, hduty'⟩ := h.duty 0
  refine { h with oven := lag_mem_Icc h.oven ?_ ⟨?_, ?_⟩ }
  · split_ifs
    · exact ⟨by norm_num; linarith, by norm_num; linarith⟩
    · exact ⟨by linarith, by linarith⟩
  · have := hdt.1
    positivity
  · have := hdt.2
    norm_num at this ⊢
    linarith

theorem Bounded.stepArm (h : Bounded hal) (hdt : 0 ≤ dt) : Bounded (hal.stepArm dt) := by
  refine { h with joints := fun j => slew_mem_Icc (by positivity) (h.joints j) ?_ }
  obtain ⟨hduty, hduty'⟩ := h.duty (SimHal.channel j)
  exact ⟨by positivity, by linarith⟩

end Physics

-- The time that a step up to now goes on by.
def SimHal.dt (hal : SimHal) (now : ℚ) : ℚ :=
  if now - hal.lastStep ≤ 0 then 0
  else if 0.5 < now - hal.lastStep then 0.5 else now - hal.lastStep

theorem SimHal.dt_mem (hal : SimHal) (now : ℚ) : hal.dt now ∈ Set.Icc 0 0.5 := by
  unfold SimHal.dt
  split_ifs with hback hlong
  · exact ⟨le_rfl, by norm_num⟩
  · exact ⟨by norm_num, le_rfl⟩
  · exact ⟨(not_le.mp hback).le, not_lt.mp hlong⟩

-- What a step changes: the clock, and the peripherals of the profile.
theorem SimHal.step_cases (hal : SimHal) (readings : Readings) :
    (hal.dt readings.now = 0 ∧ hal.step readings = { hal with lastStep := readings.now }) ∨
      hal.step readings =
        { hal with lastStep := readings.now }.advance readings.fault (hal.dt readings.now) := by
  unfold SimHal.step SimHal.dt
  dsimp only
  split_ifs with hback hlong
  · exact .inl ⟨rfl, rfl⟩
  · exact .inr rfl
  · exact .inr rfl

-- What moves in that time: the belt as far as it travels, no joint faster than it may or
-- past its target.
structure Moved (hal hal' : SimHal) (dt : ℚ) : Prop where
  profile : hal'.profile = hal.profile
  travel : (hal'.itemsPassed : ℚ) + hal'.beltPos = hal.itemsPassed + hal.beltPos + hal.travel dt
  rate : ∀ j, |hal'.jointsDeg j - hal.jointsDeg j| ≤ 90 * dt
  short : ∀ j, hal'.jointsDeg j ∈ Set.uIcc (hal.jointsDeg j) (hal.pwm (SimHal.channel j) * 180)

section Step

variable {hal : SimHal} {dt : ℚ}

theorem Moved.still {hal' : SimHal} (hprofile : hal'.profile = hal.profile)
    (hitems : hal'.itemsPassed = hal.itemsPassed) (hbelt : hal'.beltPos = hal.beltPos)
    (hjoints : hal'.jointsDeg = hal.jointsDeg) (htravel : hal.travel dt = 0) (hdt : 0 ≤ dt) :
    Moved hal hal' dt where
  profile := hprofile
  travel := by rw [hitems, hbelt, htravel, add_zero]
  rate j := by
    rw [hjoints, sub_self, abs_zero]
    positivity
  short j := hjoints ▸ Set.left_mem_uIcc

theorem SimHal.travel_zero (hal : SimHal) : hal.travel 0 = 0 := by
  unfold SimHal.travel
  split_ifs
  · exact mul_zero _
  · rfl

theorem Bounded.advance (h : Bounded hal) (fault : UInt32) (hdt : dt ∈ Set.Icc 0 0.5) :
    Bounded (hal.advance fault dt) ∧ Moved hal (hal.advance fault dt) dt := by
  unfold SimHal.advance
  cases hprofile : hal.profile with
  | drone =>
      refine ⟨h.stepDrone fault hdt.1, .still rfl rfl rfl rfl ?_ hdt.1⟩
      simp [SimHal.travel, hprofile]
  | conveyor =>
      have hpos : 0 ≤ hal.beltPos + hal.pwm 0 * 2 * dt := by
        have := (h.duty 0).1
        have := hdt.1
        have := h.belt.1
        positivity
      refine ⟨h.stepConveyor hdt, rfl, ?_, fun j => ?_, fun j => Set.left_mem_uIcc⟩
      · refine (passItems_spec hal.itemsPassed hpos).2.trans ?_
        rw [SimHal.travel, if_pos hprofile]
        ring
      · have := hdt.1
        simp only [SimHal.stepConveyor, sub_self, abs_zero]
        positivity
  | oven =>
      refine ⟨h.stepOven fault hdt, .still rfl rfl rfl rfl ?_ hdt.1⟩
      simp [SimHal.travel, hprofile]
  | arm =>
      have hmost : 0 ≤ 90 * dt := by
        have := hdt.1
        positivity
      refine ⟨h.stepArm hdt.1, rfl, ?_, fun j => abs_slew_sub_le hmost, fun j => slew_mem_uIcc hmost⟩
      simp [SimHal.travel, SimHal.stepArm, hprofile]

theorem Bounded.step (h : Bounded hal) (readings : Readings) :
    Bounded (hal.step readings) ∧ Moved hal (hal.step readings) (hal.dt readings.now) := by
  rcases hal.step_cases readings with ⟨hdt, hstep⟩ | hstep
  · rw [hstep, hdt]
    exact ⟨{ h with }, .still rfl rfl rfl rfl hal.travel_zero le_rfl⟩
  · rw [hstep]
    have hclock : Bounded { hal with lastStep := readings.now } := { h with }
    obtain ⟨hbounded, hmoved⟩ := hclock.advance readings.fault (hal.dt_mem readings.now)
    exact ⟨hbounded, { hmoved with }⟩

end Step

-- The operations that first bring the physics up to date.
def steps : Operation → Bool
  | .gpioSet .. | .gpioGet _ | .delayMs _ | .i2cTransfer .. | .pwmSet .. | .adcRead _ => true
  | _ => false

section Calls

variable (hal : SimHal)

theorem SimHal.gpioGet_snd (readings : Readings) (pin : UInt32) :
    (hal.gpioGet readings pin).2 = hal.step readings := by
  unfold SimHal.gpioGet
  dsimp only
  split
  · split_ifs
    all_goals rfl
  all_goals rfl

theorem SimHal.adcRead_snd (readings : Readings) (channel : UInt32) :
    (hal.adcRead readings channel).2 = hal.step readings := by
  unfold SimHal.adcRead
  dsimp only
  split
  all_goals rfl

theorem SimHal.i2cTransfer_snd (readings : Readings) (addr : UInt8) {n : ℕ} (rx : Vector UInt8 n) :
    (hal.i2cTransfer readings addr rx).2.2 = hal.step readings := by
  unfold SimHal.i2cTransfer
  dsimp only
  split
  all_goals rfl

theorem duty_mem (duty : ℕ) : ((min duty 10000 : ℕ) / 10000 : ℚ) ∈ Set.Icc 0 1 := by
  have hmin : ((min duty 10000 : ℕ) : ℚ) ≤ 10000 := by exact_mod_cast min_le_right duty 10000
  exact ⟨by positivity, (div_le_one (by norm_num)).mpr hmin⟩

-- What a call changes beyond its step: the levels, and a duty.
theorem SimHal.after_cases (c : Call) :
    (steps c.op = true ∧ ∃ pwm gpio, hal.after c = { hal.step c.readings with pwm := pwm, gpio := gpio } ∧
      ∀ ch, pwm ch = (hal.step c.readings).pwm ch ∨ pwm ch ∈ Set.Icc 0 1) ∨
    (steps c.op = false ∧ hal.after c = hal) := by
  obtain ⟨op, readings⟩ := c
  have hsame : ∃ pwm gpio, hal.step readings = { hal.step readings with pwm := pwm, gpio := gpio } ∧
      ∀ ch, pwm ch = (hal.step readings).pwm ch ∨ pwm ch ∈ Set.Icc 0 1 :=
    ⟨_, _, rfl, fun ch => .inl rfl⟩
  cases op with
  | gpioSet pin state =>
      refine .inl ⟨rfl, ?_⟩
      change ∃ pwm gpio, hal.gpioSet readings pin state = _ ∧ _
      unfold SimHal.gpioSet
      dsimp only
      split_ifs
      · exact ⟨_, _, rfl, fun ch => .inl rfl⟩
      · exact hsame
  | gpioGet pin => exact .inl ⟨rfl, (hal.gpioGet_snd readings pin).symm ▸ hsame⟩
  | delayMs ms => exact .inl ⟨rfl, hsame⟩
  | i2cTransfer addr tx n rx => exact .inl ⟨rfl, (hal.i2cTransfer_snd readings addr rx).symm ▸ hsame⟩
  | pwmSet channel duty =>
      refine .inl ⟨rfl, ?_⟩
      change ∃ pwm gpio, hal.pwmSet readings channel duty = _ ∧ _
      unfold SimHal.pwmSet
      dsimp only
      split_ifs with hchannel
      · refine ⟨_, _, rfl, fun ch => ?_⟩
        rw [Function.update_apply]
        split_ifs
        · exact .inr (duty_mem duty.toNat)
        · exact .inl rfl
      · exact hsame
  | adcRead channel => exact .inl ⟨rfl, (hal.adcRead_snd readings channel).symm ▸ hsame⟩
  | _ => exact .inr ⟨rfl, rfl⟩

end Calls

-- The time that a call goes on by.
def SimHal.callDt (hal : SimHal) (c : Call) : ℚ :=
  if steps c.op then hal.dt c.readings.now else 0

theorem Bounded.after {hal : SimHal} (h : Bounded hal) (c : Call) :
    Bounded (hal.after c) ∧ Moved hal (hal.after c) (hal.callDt c) := by
  unfold SimHal.callDt
  rcases hal.after_cases c with ⟨hsteps, pwm, gpio, hafter, hpwm⟩ | ⟨hsteps, hafter⟩
  · obtain ⟨hbounded, hmoved⟩ := h.step c.readings
    rw [if_pos hsteps, hafter]
    refine ⟨{ hbounded with duty := fun ch => ?_ }, { hmoved with }⟩
    change pwm ch ∈ Set.Icc 0 1
    rcases hpwm ch with heq | hmem
    · rw [heq]
      exact hbounded.duty ch
    · exact hmem
  · rw [if_neg (by simp [hsteps]), hafter]
    exact ⟨h, .still rfl rfl rfl rfl hal.travel_zero le_rfl⟩

-- The way that the belt has gone over a sequence of calls.
def SimHal.travelled (hal : SimHal) : List Call → ℚ
  | [] => 0
  | c :: calls => hal.travel (hal.callDt c) + (hal.after c).travelled calls

theorem Bounded.run {hal : SimHal} (h : Bounded hal) (calls : List Call) :
    Bounded (hal.run calls) ∧
      ((hal.run calls).itemsPassed : ℚ) + (hal.run calls).beltPos =
        hal.itemsPassed + hal.beltPos + hal.travelled calls := by
  induction calls generalizing hal with
  | nil => exact ⟨h, (add_zero _).symm⟩
  | cons c calls ih =>
      obtain ⟨hbounded, hmoved⟩ := h.after c
      obtain ⟨hrun, htravel⟩ := ih hbounded
      refine ⟨hrun, ?_⟩
      rw [SimHal.travelled, ← add_assoc, ← hmoved.travel]
      exact htravel

theorem run_new_travel (profile : SimProfile) (calls : List Call) :
    (((SimHal.new profile).run calls).itemsPassed : ℚ) + ((SimHal.new profile).run calls).beltPos =
      (SimHal.new profile).travelled calls := by
  rw [((bounded_new profile).run calls).2]
  simp [SimHal.new]

-- From the start on, whatever is called and whatever the clock and the fault slot read: all
-- values stay within their ranges, each item that has come by is counted once, and a joint
-- turns towards its target, at its rate and not past it.
theorem run_bounded (profile : SimProfile) (calls : List Call) :
    Bounded ((SimHal.new profile).run calls) ∧
    (((SimHal.new profile).run calls).itemsPassed : ℚ) + ((SimHal.new profile).run calls).beltPos =
      (SimHal.new profile).travelled calls ∧
    ((SimHal.new profile).run calls).itemsPassed = ⌊(SimHal.new profile).travelled calls⌋₊ ∧
    ∀ c, Moved ((SimHal.new profile).run calls) (((SimHal.new profile).run calls).after c)
      (((SimHal.new profile).run calls).callDt c) := by
  have hbounded := ((bounded_new profile).run calls).1
  have htravel := run_new_travel profile calls
  refine ⟨hbounded, htravel, ?_, fun c => (hbounded.after c).2⟩
  rw [← htravel, add_comm, Nat.floor_add_natCast hbounded.belt.1, Nat.floor_eq_zero.mpr hbounded.belt.2,
    zero_add]

section Count

-- The clock does not go back.
def Forward : ℚ → List Call → Prop
  | _, [] => True
  | time, c :: calls => time ≤ c.readings.now ∧ Forward c.readings.now calls

theorem Forward.mono {time time' : ℚ} {calls : List Call} (h : Forward time calls) (hle : time' ≤ time) :
    Forward time' calls := by
  cases calls with
  | nil => trivial
  | cons c calls => exact ⟨hle.trans h.1, h.2⟩

theorem SimHal.step_lastStep (hal : SimHal) (readings : Readings) :
    (hal.step readings).lastStep = readings.now := by
  rcases hal.step_cases readings with ⟨-, hstep⟩ | hstep
  · rw [hstep]
  · rw [hstep]
    unfold SimHal.advance
    split
    all_goals rfl

theorem SimHal.after_lastStep (hal : SimHal) {c : Call} (hle : hal.lastStep ≤ c.readings.now) :
    hal.lastStep + hal.callDt c ≤ (hal.after c).lastStep ∧ (hal.after c).lastStep ≤ c.readings.now := by
  unfold SimHal.callDt
  rcases hal.after_cases c with ⟨hsteps, pwm, gpio, hafter, -⟩ | ⟨hsteps, hafter⟩
  · have hlast : (hal.after c).lastStep = c.readings.now := by
      rw [hafter]
      exact hal.step_lastStep c.readings
    rw [if_pos hsteps, hlast]
    refine ⟨?_, le_rfl⟩
    unfold SimHal.dt
    split_ifs
    all_goals linarith
  · rw [if_neg (by simp [hsteps]), hafter, add_zero]
    exact ⟨le_rfl, hle⟩

-- No more than two items come by in a second.
theorem Bounded.travelled_le {hal : SimHal} (h : Bounded hal) {calls : List Call}
    (hforward : Forward hal.lastStep calls) {limit : ℚ} (hstart : hal.lastStep ≤ limit)
    (hlimit : ∀ c ∈ calls, c.readings.now ≤ limit) :
    hal.travelled calls ≤ 2 * (limit - hal.lastStep) := by
  induction calls generalizing hal with
  | nil =>
      rw [SimHal.travelled]
      linarith
  | cons c calls ih =>
      obtain ⟨hnow, hrest⟩ := List.forall_mem_cons.mp hlimit
      obtain ⟨htime, hlast⟩ := hal.after_lastStep hforward.1
      have hbehind := ih (h.after c).1 (hforward.2.mono hlast) (hlast.trans hnow) hrest
      have htravel : hal.travel (hal.callDt c) ≤ 2 * hal.callDt c := by
        have hdt : 0 ≤ hal.callDt c := by
          unfold SimHal.callDt
          split_ifs
          · exact (hal.dt_mem c.readings.now).1
          · exact le_rfl
        unfold SimHal.travel
        split_ifs
        · have := mul_le_mul_of_nonneg_right (h.duty 0).2 hdt
          linarith
        · linarith
      rw [SimHal.travelled]
      linarith

-- The count is a u64 in the source: an Instant ends before that does.
theorem itemsPassed_lt (profile : SimProfile) {calls : List Call} (hforward : Forward 0 calls)
    (hclock : ∀ c ∈ calls, c.readings.now < 2 ^ 63) :
    ((SimHal.new profile).run calls).itemsPassed < 2 ^ 64 := by
  have hlast : ∃ limit < (2 : ℚ) ^ 63, 0 ≤ limit ∧ ∀ c ∈ calls, c.readings.now ≤ limit := by
    clear hforward
    induction calls with
    | nil => exact ⟨0, by norm_num, le_rfl, fun c h => absurd h List.not_mem_nil⟩
    | cons c calls ih =>
        obtain ⟨hnow, hrest⟩ := List.forall_mem_cons.mp hclock
        obtain ⟨limit, hlt, hpos, hall⟩ := ih hrest
        refine ⟨max c.readings.now limit, max_lt hnow hlt, le_max_of_le_right hpos, ?_⟩
        refine List.forall_mem_cons.mpr ⟨le_max_left _ _, fun c' hc' => ?_⟩
        exact (hall c' hc').trans (le_max_right _ _)
  obtain ⟨limit, hlt, hpos, hall⟩ := hlast
  have hbelt := ((bounded_new profile).run calls).1.belt.1
  have htravelled : (SimHal.new profile).travelled calls ≤ 2 * (limit - 0) :=
    (bounded_new profile).travelled_le hforward hpos hall
  have hitems : (((SimHal.new profile).run calls).itemsPassed : ℚ) < 2 * 2 ^ 63 := by
    have htravel := run_new_travel profile calls
    linarith
  have hcast : (2 : ℚ) * 2 ^ 63 = ((2 ^ 64 : ℕ) : ℚ) := by norm_num
  exact Nat.cast_lt.mp (hcast ▸ hitems)

end Count

end Milo.Targets.Sim
