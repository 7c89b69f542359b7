import Milo.Demos.Conveyor

-- What the open loop of the oven logs from episode to episode, and what the control station makes
-- of it while the heater is healthy or has drifted.
namespace Milo.Demos

open Milo.Lib Milo.Lib.Program Milo.Targets.Sim
open Milo.Rust (Build)

section Chamber

variable {hal : SimHal} {readings : Readings}

theorem step_oven (hprofile : hal.profile = .oven) :
    (hal.step readings).ovenTempC =
      lag hal.ovenTempC (25 + hal.pwm 0 * 300 * if readings.fault ≠ 0 then 1.35 else 1)
        (hal.dt readings.now / 6) := by
  rcases hal.step_cases readings with ⟨hdt, hstep⟩ | hstep
  · rw [hstep, hdt]
    unfold lag
    ring
  · rw [hstep]
    unfold SimHal.advance
    rw [hprofile]
    rfl

theorem dt_part (hal : SimHal) (now : ℚ) : hal.dt now / 6 ∈ Set.Icc 0 1 := by
  obtain ⟨hdt0, hdt1⟩ := hal.dt_mem now
  norm_num at hdt1
  constructor
  · positivity
  · linarith

-- The setting that the heater is at, or a lower one, keeps a healthy oven below its limit.
theorem step_cool (hprofile : hal.profile = .oven) (hbounded : Bounded hal) (hpwm : hal.pwm 0 ≤ 0.417)
    (hfault : readings.fault = 0) (h : hal.ovenTempC ≤ 165) : (hal.step readings).ovenTempC ≤ 165 := by
  have hpwm0 := (hbounded.duty 0).1
  norm_num at hpwm
  rw [step_oven hprofile, if_neg (not_not.mpr hfault)]
  refine (lag_mem_Icc ⟨hbounded.oven.1, h⟩ ⟨?_, ?_⟩ (dt_part hal readings.now)).2
  · linarith
  · linarith

-- With a heater that has drifted the chamber comes nearer to 193.885 degrees.
theorem step_warm {r : ℚ} (hprofile : hal.profile = .oven) (hpwm : hal.pwm 0 = 0.417)
    (hfault : readings.fault ≠ 0) (h : 193.885 - hal.ovenTempC ≤ r) :
    193.885 - (hal.step readings).ovenTempC ≤ (1 - hal.dt readings.now / 6) * r := by
  have htarget : (25 + hal.pwm 0 * 300 * if readings.fault ≠ 0 then 1.35 else 1 : ℚ) = 193.885 := by
    rw [if_pos hfault, hpwm]
    norm_num
  rw [step_oven hprofile, htarget]
  exact sub_lag_le (dt_part hal readings.now).2 h

theorem toNat_asU32 {x : ℚ} (h : x ≤ 4300) : (asU32 x).toNat = ⌊x⌋₊ := by
  have hfloor : ⌊x⌋₊ ≤ 4300 := Nat.floor_le_of_le (by exact_mod_cast h)
  unfold asU32
  rw [Nat.min_eq_left (by omega)]
  exact UInt32.toNat_ofNat_of_lt' (by rw [UInt32.size]; omega)

theorem adcRead_oven (hbounded : Bounded (hal.step readings)) (hprofile : (hal.step readings).profile = .oven) :
    (hal.adcRead readings 0).1.toNat = ⌊(hal.step readings).ovenTempC * 10⌋₊ := by
  have hvalue : (hal.adcRead readings 0).1 = asU32 ((hal.step readings).ovenTempC * 10) := by
    unfold SimHal.adcRead
    dsimp only
    rw [hprofile]
    rfl
  have hmost := hbounded.oven.2
  rw [hvalue]
  exact toNat_asU32 (by linarith)

-- A fifth of a second is a thirtieth of the way.
theorem dt_long {now : ℚ} (h : 1 / 5 ≤ now - hal.lastStep) : 1 - hal.dt now / 6 ≤ 29 / 30 := by
  unfold SimHal.dt
  split_ifs
  · linarith
  · norm_num
  · linarith

end Chamber

section Episode

-- The heater is at the open loop's setting, and the clock is not behind the hardware.
structure Heats (b : Board) : Prop where
  bounded : Bounded b.host.hw
  profile : b.host.hw.profile = .oven
  pwm : b.host.hw.pwm 0 = 0.417
  late : b.host.hw.lastStep ≤ b.clock

variable {build : Build} {w : Setting} {b b₁ b₂ b₃ : Board} {drifted cool : Prop} {r : ℚ}

theorem Heats.step (h : Heats b) {readings : Readings} (hhw : b₁.host.hw = b.host.hw.step readings)
    (hclock : b₁.clock = readings.now) : Heats b₁ := by
  have hstep := h.bounded.step readings
  refine ⟨hhw ▸ hstep.1, ?_, ?_, ?_⟩
  · rw [hhw, hstep.2.profile, h.profile]
  · rw [hhw, step_pwm, h.pwm]
  · rw [hhw, SimHal.step_lastStep, hclock]

-- What the chamber has come to and what has been logged of it, from an oven that is cool enough at
-- the start, or that lacks r degrees of what a drifted heater leads to.
structure Baked (drifted cool : Prop) (r : ℚ) (logs : List String) (b : Board) (temps : List UInt32) : Prop where
  heats : Heats b
  logs : b.host.logs = logs ++ temps.map fun t => kvLine "T" t.toNat
  cool : ¬drifted → cool → b.host.hw.ovenTempC ≤ 165 ∧ ∀ t ∈ temps, t.toNat ≤ 1650
  warm : drifted → 193.885 - b.host.hw.ovenTempC ≤ (29 / 30) ^ temps.length * r ∧
    ∀ (i : ℕ) t, temps[i]? = some t → (193.885 - (29 / 30) ^ i * r) * 10 < t.toNat + 1

theorem Baked.turn {logs : List String} {temps : List UInt32} {t : UInt32}
    (hpossible : ∀ readings, w.possible readings → (readings.fault ≠ 0 ↔ drifted)) (hr : 0 ≤ r)
    (h : Baked drifted cool r logs b temps) (h₁ : world build w b (.adcRead 0) t b₁) {answer : Unit}
    (h₂ : world build w b₁ (.logMsg (Rust.intoBytes (kvLine "T" t.toNat))) answer b₂) {answer' : Unit}
    (h₃ : world build w b₂ (.delayMs 200) answer' b₃) : Baked drifted cool r logs b₃ (temps ++ [t]) := by
  obtain ⟨readings, hposs, -, ht, hhost, hclock, -⟩ := world_adcRead h₁
  obtain ⟨hhw₂, hlogs₂, -, hclock₂, -⟩ := world_logMsg h₂
  obtain ⟨readings', hposs', ⟨hnow', -⟩, hhost', hclock', -⟩ := world_delayMs h₃
  have hhw : b₁.host.hw = b.host.hw.step readings := by rw [hhost]
  have hhw' : b₃.host.hw = b₁.host.hw.step readings' := by rw [hhost', hhw₂]
  have heats₁ := h.heats.step hhw hclock
  have heats₃ := heats₁.step hhw' hclock'
  have hread : t.toNat = ⌊b₁.host.hw.ovenTempC * 10⌋₊ := by
    rw [← ht, hhw]
    exact adcRead_oven (hhw ▸ heats₁.bounded) (hhw ▸ heats₁.profile)
  have hlong : 1 - b₁.host.hw.dt readings'.now / 6 ≤ 29 / 30 := by
    have hms : ((200 : UInt32).toNat : ℚ) / 1000 = 1 / 5 := by
      have h200 : (200 : UInt32).toNat = 200 := rfl
      rw [h200]
      norm_num
    rw [hms] at hnow'
    exact dt_long (by linarith [heats₁.late])
  refine ⟨heats₃, ?_, fun hhealthy hcool => ?_, fun hdrifted => ?_⟩
  · rw [hhost', hlogs₂, hhost, List.map_append, ← List.append_assoc]
    exact congrArg (· ++ _) h.logs
  · obtain ⟨hbelow, hall⟩ := h.cool hhealthy hcool
    have hfault : ∀ readings, w.possible readings → readings.fault = 0 := fun readings hposs => by
      by_contra hne
      exact hhealthy ((hpossible readings hposs).mp hne)
    have hbelow₁ : b₁.host.hw.ovenTempC ≤ 165 :=
      hhw ▸ step_cool h.heats.profile h.heats.bounded h.heats.pwm.le (hfault readings hposs) hbelow
    refine ⟨hhw' ▸ step_cool heats₁.profile heats₁.bounded heats₁.pwm.le (hfault readings' hposs') hbelow₁, ?_⟩
    intro t' hmem
    rcases List.mem_append.mp hmem with hold | hnew
    · exact hall t' hold
    · rw [List.mem_singleton.mp hnew, hread]
      exact Nat.floor_le_of_le (by push_cast; linarith)
  · obtain ⟨hrest, hall⟩ := h.warm hdrifted
    have hpow : (0 : ℚ) ≤ (29 / 30) ^ temps.length * r := by positivity
    have hrest₁ : 193.885 - b₁.host.hw.ovenTempC ≤ (29 / 30) ^ temps.length * r := by
      have hdt := (dt_part b.host.hw readings.now).1
      have hstep := step_warm h.heats.profile h.heats.pwm ((hpossible readings hposs).mpr hdrifted) hrest
      rw [← hhw] at hstep
      nlinarith
    refine ⟨?_, fun i t' hget => ?_⟩
    · have hstep := step_warm heats₁.profile heats₁.pwm ((hpossible readings' hposs').mpr hdrifted) hrest₁
      rw [← hhw'] at hstep
      rw [List.length_append, List.length_singleton, pow_succ]
      nlinarith
    · rcases Nat.lt_or_ge i temps.length with hlt | hge
      · exact hall i t' (by rwa [List.getElem?_append_left hlt] at hget)
      · rw [List.getElem?_append_right hge, List.getElem?_singleton] at hget
        split_ifs at hget with hzero
        obtain rfl := Option.some.inj hget
        obtain rfl : i = temps.length := by omega
        rw [hread]
        have hfloor := Nat.lt_floor_add_one (b₁.host.hw.ovenTempC * 10)
        linarith

end Episode

section Shift

variable {build : Build} {w : Setting} {b b' : Board} {drifted cool : Prop} {digit : Char → Option ℕ}

end Shift

end Milo.Demos
