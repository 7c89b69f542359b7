import Milo.Demos.Board

-- What an episode of the conveyor counts, and what the control station makes of it.
namespace Milo.Demos

open Milo.Lib Milo.Lib.Program Milo.Targets.Sim
open Milo.Rust (Build)

-- How far the belt has come, in items.
def position (hal : SimHal) : ℚ := hal.itemsPassed + hal.beltPos

-- What the photo-sensor shows of the belt.
def level (hal : SimHal) : UInt32 := if hal.beltPos < 0.2 then 1 else 0

section Belt

variable {hal : SimHal} {readings : Readings}

theorem step_pwm (hal : SimHal) (readings : Readings) : (hal.step readings).pwm = hal.pwm := by
  rcases hal.step_cases readings with ⟨-, hstep⟩ | hstep
  · rw [hstep]
  · rw [hstep]
    unfold SimHal.advance
    split
    all_goals rfl

theorem step_position (h : Bounded hal) (hprofile : hal.profile = .conveyor)
    (hnow : readings.now ∈ Set.Icc hal.lastStep (hal.lastStep + 0.5)) :
    position (hal.step readings) = position hal + 2 * hal.pwm 0 * (readings.now - hal.lastStep) := by
  have htravel := (h.step readings).2.travel
  have hdt : hal.dt readings.now = readings.now - hal.lastStep := by
    obtain ⟨hle, hshort⟩ := hnow
    unfold SimHal.dt
    split_ifs
    · linarith
    · linarith
    · rfl
  rw [SimHal.travel, if_pos hprofile, hdt] at htravel
  exact htravel

end Belt

section Polls

-- The belt runs at a duty, and its hardware is as old as the clock says.
structure Running (duty : ℚ) (b : Board) : Prop where
  bounded : Bounded b.host.hw
  profile : b.host.hw.profile = .conveyor
  pwm : b.host.hw.pwm 0 = duty
  synced : b.host.hw.lastStep = b.clock

variable {build : Build} {w : Setting} {slack duty : ℚ} {b b' : Board}

theorem Running.step (h : Running duty b) {readings : Readings} (hhw : b'.host.hw = b.host.hw.step readings)
    (hclock : b'.clock = readings.now) (hnow : readings.now ∈ Set.Icc b.clock (b.clock + 0.5)) :
    Running duty b' ∧ position b'.host.hw = position b.host.hw + 2 * duty * (b'.clock - b.clock) := by
  have hstep := h.bounded.step readings
  refine ⟨⟨hhw ▸ hstep.1, ?_, ?_, ?_⟩, ?_⟩
  · rw [hhw, hstep.2.profile, h.profile]
  · rw [hhw, step_pwm, h.pwm]
  · rw [hhw, SimHal.step_lastStep, hclock]
  · rw [← h.synced] at hnow
    rw [hhw, step_position h.bounded h.profile hnow, h.pwm, h.synced, hclock]

-- What is known between two polls of the episode. The sensor shows nothing when it is jammed.
structure Counted (jammed : Prop) (duty slack : ℚ) (polls : List SimHal) (first last b : SimHal) (clock : ℚ)
    (items prev : UInt32) : Prop where
  head : polls.head? = some first
  getLast : polls.getLast? = some last
  start : first.beltPos ∈ Set.Ico 0 1
  belt : last.beltPos ∈ Set.Ico 0 1
  went : position b = position last + 2 * duty * (clock - last.lastStep)
  pause : clock - last.lastStep ∈ Set.Icc 0.05 (0.05 + slack)
  total : position last = position first + 2 * duty * (last.lastStep - first.lastStep)
  time : 0.05 * (polls.length - 1 : ℚ) ≤ last.lastStep - first.lastStep
  few : items.toNat ≤ polls.length
  none : jammed → items = 0
  each : ¬jammed → first.itemsPassed + items.toNat = last.itemsPassed + (level first).toNat ∧ prev = level last

def countItem (items prev s : UInt32) : UInt32 := if s = 1 ∧ prev = 0 then items + 1 else items

theorem level_cases (hal : SimHal) :
    (hal.beltPos < 0.2 ∧ level hal = 1) ∨ (¬hal.beltPos < 0.2 ∧ level hal = 0) := by
  unfold level
  split_ifs with h
  · exact .inl ⟨h, rfl⟩
  · exact .inr ⟨h, rfl⟩

-- The first poll has an item in front of the sensor, or none.
theorem Counted.first {jammed : Prop} {hal next : SimHal} {clock : ℚ} {s : UInt32}
    (hbelt : hal.beltPos ∈ Set.Ico 0 1) (hnone : jammed → s = 0) (hlevel : ¬jammed → s = level hal)
    (hpause : clock - hal.lastStep ∈ Set.Icc 0.05 (0.05 + slack))
    (hwent : position next = position hal + 2 * duty * (clock - hal.lastStep)) :
    Counted jammed duty slack [hal] hal hal next clock (countItem 0 0 s) s where
  head := rfl
  getLast := rfl
  start := hbelt
  belt := hbelt
  went := hwent
  pause := hpause
  total := by ring
  time := by simp
  few := by
    unfold countItem
    split_ifs
    · exact Nat.le_refl 1
    · exact Nat.zero_le 1
  none hjam := by rw [countItem, hnone hjam, if_neg (by decide)]
  each hfree := by
    refine ⟨?_, hlevel hfree⟩
    rw [countItem, hlevel hfree]
    rcases level_cases hal with ⟨-, hs⟩ | ⟨-, hs⟩
    · rw [hs]
      rfl
    · rw [hs]
      rfl

end Polls

section Run

variable {build : Build} {w : Setting} {b : Board}

-- The duty as the hardware has it, no more than all.
def fraction (duty : UInt32) : ℚ := (min duty.toNat 10000 : ℕ) / 10000

theorem pwmSet_zero (hal : SimHal) (readings : Readings) (duty : UInt32) :
    hal.pwmSet readings 0 duty =
      { hal.step readings with pwm := Function.update (hal.step readings).pwm 0 (fraction duty) } := by
  unfold SimHal.pwmSet
  dsimp only
  rw [dif_pos (by decide)]
  rfl

end Run

section Alarm

-- A conveyor that has just been started, with no jam and a duty of 60 per cent.
def started (profile : SimProfile) : Board where
  host := { hw := SimHal.new profile, memory := none, logs := [], transfers := [] }
  clock := 0
  polls := []

def smooth : Setting where
  slack := 1 / 100
  possible readings := readings.sensorFault = 0
  slot _ value := value = 6000

theorem answers_smooth (b : Board) (c : HostCall) (hc : Plain c) :
    ∃ answer b', world Runtime.release64 smooth b c answer b' :=
  world_answers (by norm_num [smooth]) (fun now => ⟨⟨now, 0, 0⟩, rfl, rfl⟩) (fun _ => ⟨6000, rfl⟩) b hc

end Alarm

section Halt

theorem after_pwm (hal : SimHal) {c : Call} (h : ∀ duty, c.op ≠ .pwmSet 0 duty) :
    (hal.after c).pwm 0 = hal.pwm 0 := by
  obtain ⟨op, readings⟩ := c
  cases op with
  | gpioSet pin state =>
      change (hal.gpioSet readings pin state).pwm 0 = _
      unfold SimHal.gpioSet
      dsimp only
      split_ifs
      all_goals rw [step_pwm]
  | gpioGet pin => exact (congrArg (SimHal.pwm · 0) (hal.gpioGet_snd readings pin)).trans (by rw [step_pwm])
  | delayMs ms => exact congrFun (step_pwm hal readings) 0
  | i2cTransfer addr tx n rx =>
      exact (congrArg (SimHal.pwm · 0) (hal.i2cTransfer_snd readings addr rx)).trans (by rw [step_pwm])
  | pwmSet channel duty =>
      have hne : channel ≠ 0 := fun hzero => h duty (by rw [hzero])
      change (hal.pwmSet readings channel duty).pwm 0 = _
      unfold SimHal.pwmSet
      dsimp only
      split_ifs with hchannel
      · have hfin : (0 : Fin 8) ≠ ⟨channel.toNat, hchannel⟩ := fun heq =>
          hne (UInt32.toNat_inj.mp (congrArg Fin.val heq).symm)
        dsimp only
        rw [Function.update_of_ne hfin, step_pwm]
      · rw [step_pwm]
  | adcRead channel =>
      exact (congrArg (SimHal.pwm · 0) (hal.adcRead_snd readings channel)).trans (by rw [step_pwm])
  | _ => rfl

theorem position_still {hal : SimHal} (h : Bounded hal) (hpwm : hal.pwm 0 = 0) {calls : List Call}
    (hothers : ∀ c ∈ calls, ∀ duty, c.op ≠ .pwmSet 0 duty) : position (hal.run calls) = position hal := by
  induction calls generalizing hal with
  | nil => rfl
  | cons c calls ih =>
      obtain ⟨hc, hrest⟩ := List.forall_mem_cons.mp hothers
      obtain ⟨hbounded, hmoved⟩ := h.after c
      have htravel : hal.travel (hal.callDt c) = 0 := by
        unfold SimHal.travel
        rw [hpwm]
        split_ifs
        · ring
        · rfl
      have hstill : position (hal.after c) = position hal := by
        have hway := hmoved.travel
        rwa [htravel, add_zero] at hway
      exact (ih hbounded ((after_pwm hal hc).trans hpwm) hrest).trans hstill

-- Behind a halt the belt stays where it is, whatever is called other than for its motor.
theorem belt_halted {build : Build} {w : Setting} {b b' : Board} (hbounded : Bounded b.host.hw)
    {events : List HostEvent} {outcome : Except Fault Unit}
    (hruns : RunsIn (world build w) b conveyorHalt events outcome b') {calls : List Call}
    (hothers : ∀ c ∈ calls, ∀ duty, c.op ≠ .pwmSet 0 duty) :
    position (b'.host.hw.run calls) = position b'.host.hw := by
  have hwithin : Within (world build w) b [] conveyorHalt fun b' _ _ =>
      Bounded b'.host.hw ∧ b'.host.hw.pwm 0 = 0 := by
    refine (within_ask _ _).mpr fun _ b₁ h₁ => fun _ b₂ h₂ => ?_
    obtain ⟨readings, -, -, hhost, -, -⟩ := world_pwmSet h₁
    obtain ⟨hhw, -, -, -⟩ := world_logMsg h₂
    have hzero : fraction 0 = 0 := by norm_num [fraction]
    have hset : b₂.host.hw = b.host.hw.pwmSet readings 0 0 := by rw [hhw, hhost]
    refine ⟨hset ▸ (hbounded.after ⟨.pwmSet 0 0, readings⟩).1, ?_⟩
    rw [hset, pwmSet_zero]
    dsimp only
    rw [Function.update_self, hzero]
  obtain ⟨_, _, hafter, hpwm⟩ := hwithin.runs hruns
  exact position_still hafter hpwm hothers

theorem plain_conveyorHalt : Keeps (fun _ e => Plain e.call) [] conveyorHalt fun _ _ => True := by
  have hsaid : (Rust.intoBytes "belt: halted for obstruction clear").length ≤ 65536 := by decide
  exact (keeps_ask _ _).mpr fun _ => ⟨trivial, fun _ => ⟨hsaid, trivial⟩⟩

-- A poll of the sensor and a motor of another channel, one and two seconds behind the halt.
theorem belt_halted_started : ∃ events outcome b',
    RunsIn (world Runtime.release64 smooth) (started .conveyor) conveyorHalt events outcome b' ∧
      position (b'.host.hw.run [⟨.gpioGet 26, ⟨b'.clock + 1, 0, 0⟩⟩, ⟨.pwmSet 1 5000, ⟨b'.clock + 2, 0, 0⟩⟩]) =
        position b'.host.hw := by
  obtain ⟨events, outcome, b', hruns⟩ := exists_runsIn answers_smooth plain_conveyorHalt (started .conveyor)
  refine ⟨events, outcome, b', hruns, belt_halted (bounded_new .conveyor) hruns ?_⟩
  rintro c hmem duty h
  rcases List.mem_cons.mp hmem with rfl | hmem
  · cases h
  · obtain rfl := List.mem_singleton.mp hmem
    exact absurd (Hal.Operation.pwmSet.inj h).1 (by decide)

end Halt

end Milo.Demos
