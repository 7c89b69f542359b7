import Mathlib
import Milo.Demos.Conveyor

-- What the clear sweep of the arm reports, and where it leaves the arm.
namespace Milo.Demos

open Milo.Lib Milo.Lib.Program Milo.Targets.Sim
open Milo.Rust (Build)

-- The arm turns its first joint towards a target, and its hardware is as old as the clock says.
structure Turning (target : ℚ) (b : Board) : Prop where
  bounded : Bounded b.host.hw
  profile : b.host.hw.profile = .arm
  pwm : b.host.hw.pwm 0 * 180 = target
  synced : b.host.hw.lastStep = b.clock

-- How far the joint still has to turn.
def left (target : ℚ) (hal : SimHal) : ℚ := |target - hal.jointsDeg 0|

section Turn

variable {target : ℚ} {b b' : Board} {readings : Readings}

theorem Turning.step (h : Turning target b) (hhw : b'.host.hw = b.host.hw.step readings)
    (hclock : b'.clock = readings.now) (hnow : b.clock ≤ readings.now) :
    Turning target b' ∧ left target b'.host.hw ≤
      max 0 (left target b.host.hw - 90 * min (readings.now - b.clock) 0.5) := by
  have hstep := h.bounded.step readings
  refine ⟨⟨hhw ▸ hstep.1, ?_, ?_, ?_⟩, ?_⟩
  · rw [hhw, hstep.2.profile, h.profile]
  · rw [hhw, step_pwm, h.pwm]
  · rw [hhw, SimHal.step_lastStep, hclock]
  · have hdt : b.host.hw.dt readings.now = min (readings.now - b.clock) 0.5 := by
      rw [← h.synced] at hnow ⊢
      unfold SimHal.dt
      split_ifs with hback hlong
      · rw [min_eq_left (by linarith)]
        linarith
      · rw [min_eq_right hlong.le]
      · rw [min_eq_left (not_lt.mp hlong)]
    rw [hhw, ← hdt]
    rcases b.host.hw.step_cases readings with ⟨hzero, hstep⟩ | hstep
    · rw [hzero, hstep]
      exact le_max_of_le_right (by rw [mul_zero, sub_zero]; exact le_rfl)
    · rw [hstep]
      unfold SimHal.advance
      rw [h.profile]
      have hdt0 := (b.host.hw.dt_mem readings.now).1
      have hnear : |b.host.hw.pwm 0 * 180 - slew (b.host.hw.jointsDeg 0) (b.host.hw.pwm 0 * 180)
          (90 * b.host.hw.dt readings.now)| ≤ _ := abs_sub_slew_le (by positivity)
      unfold left
      rw [← h.pwm]
      exact hnear

end Turn

section Sweep

variable {build : Build} {w : Setting} {target : ℚ} {b b' : Board}

end Sweep

end Milo.Demos
