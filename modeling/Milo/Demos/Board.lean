import Milo.Demos.Lines
import Milo.Runtime.Ranges
import Milo.Targets.Sim.Bounds

-- The simulated board under a driver of the demonstrations, while it is not told to stop.
namespace Milo.Demos

open Milo.Lib Milo.Targets.Sim
open Milo.Rust (Build)
open Milo.Runtime (HostState bytesAt)

-- There is a first one of the joints and of the channels.
instance joints_neZero : NeZero 3 := ⟨by decide⟩

instance channels_neZero : NeZero 8 := ⟨by decide⟩

-- The polls are no field of the source: they hold the hardware as each reading of a pin left it.
structure Board where
  host : HostState SimHal
  clock : ℚ
  polls : List SimHal

-- The bytes lie there in the memory of a module, which is one page.
structure Lies (data : Bytes) (ptr : UInt32) (bytes : Bytes) : Prop where
  size : data.length = 65536
  inside : ptr.toNat + bytes.length ≤ data.length
  eq : bytesAt data ptr bytes.length = bytes

-- How late a call is served at most, what the world outside may read like, and what the host
-- may have set the parameter slots to.
structure Setting where
  slack : ℚ
  possible : Readings → Prop
  slot : UInt32 → UInt32 → Prop

section World

variable (build : Build) (w : Setting)

-- What the syscall of a call makes of the receiver, and what it answers.
def Answered (readings : Readings) (s s' : HostState SimHal) : (c : HostCall) → c.Answer → Prop
  | .getParam slot, value => w.slot slot value ∧ s' = s
  | .gpioGet pin, level => Runtime.gpioGet (SimHal.hardware readings) s pin = (level, s')
  | .adcRead channel, value => Runtime.adcRead (SimHal.hardware readings) s channel = (value, s')
  | .pwmSet channel duty, _ => Runtime.pwmSet (SimHal.hardware readings) s channel duty = s'
  | .delayMs ms, _ => Runtime.delayMs (SimHal.hardware readings) s ms = s'
  | .logMsg text, _ => ∃ data ptr, Lies data ptr text ∧
      Runtime.logMsg build (SimHal.hardware readings) { s with memory := some data } ptr
        (UInt32.ofNat text.length) = .ok s'
  | .i2cTransfer addr tx n, (result, rx) => ∃ data txPtr rxPtr, Lies data txPtr tx ∧
      Lies data rxPtr (List.replicate n 0) ∧
      Runtime.i2cTransfer build (SimHal.hardware readings) { s with memory := some data } addr txPtr
        (UInt32.ofNat tx.length) rxPtr (UInt32.ofNat n) = .ok (result, s') ∧
      ∃ data', s'.memory = some data' ∧ bytesAt data' rxPtr n = rx.toList

-- The seconds that a call sleeps.
def HostCall.sleeps : HostCall → ℚ
  | .delayMs ms => ms.toNat / 1000
  | _ => 0

def HostCall.isPoll : HostCall → Bool
  | .gpioGet _ => true
  | _ => false

-- A call comes at once, and is served within the slack of the time that it has to take.
def world (b : Board) (c : HostCall) (answer : c.Answer) (b' : Board) : Prop :=
  ∃ readings, w.possible readings ∧
    readings.now ∈ Set.Icc (b.clock + c.sleeps) (b.clock + c.sleeps + w.slack) ∧
    Answered build w readings b.host b'.host c answer ∧ b'.clock = readings.now ∧
    b'.polls = b.polls ++ if c.isPoll then [b'.host.hw] else []

end World

section Calls

theorem sleeps_eq_zero {c : HostCall} (h : ∀ ms, c ≠ .delayMs ms) : c.sleeps = 0 := by
  cases c with
  | delayMs ms => exact absurd rfl (h ms)
  | _ => rfl

variable {build : Build} {w : Setting} {b b' : Board}

theorem world_adcRead {channel value : UInt32}
    (h : world build w b (.adcRead channel) value b') :
    ∃ readings, w.possible readings ∧ readings.now ∈ Set.Icc b.clock (b.clock + w.slack) ∧
      (b.host.hw.adcRead readings channel).1 = value ∧
      b'.host = { b.host with hw := b.host.hw.step readings } ∧ b'.clock = readings.now ∧
      b'.polls = b.polls := by
  obtain ⟨readings, hpossible, hnow, hanswered, hclock, hpolls⟩ := h
  rw [sleeps_eq_zero (fun _ h => by cases h), add_zero] at hnow
  obtain ⟨hvalue, hhost⟩ := Prod.mk.inj hanswered
  refine ⟨readings, hpossible, hnow, hvalue, ?_, hclock, hpolls.trans (List.append_nil _)⟩
  rw [← hhost, ← b.host.hw.adcRead_snd readings channel]
  rfl

theorem world_pwmSet {channel duty : UInt32} {answer : Unit}
    (h : world build w b (.pwmSet channel duty) answer b') :
    ∃ readings, w.possible readings ∧ readings.now ∈ Set.Icc b.clock (b.clock + w.slack) ∧
      b'.host = { b.host with hw := b.host.hw.pwmSet readings channel duty } ∧
      b'.clock = readings.now ∧ b'.polls = b.polls := by
  obtain ⟨readings, hpossible, hnow, hanswered, hclock, hpolls⟩ := h
  rw [sleeps_eq_zero (fun _ h => by cases h), add_zero] at hnow
  exact ⟨readings, hpossible, hnow, hanswered.symm, hclock, hpolls.trans (List.append_nil _)⟩

theorem world_delayMs {ms : UInt32} {answer : Unit}
    (h : world build w b (.delayMs ms) answer b') :
    ∃ readings, w.possible readings ∧
      readings.now ∈ Set.Icc (b.clock + ms.toNat / 1000) (b.clock + ms.toNat / 1000 + w.slack) ∧
      b'.host = { b.host with hw := b.host.hw.step readings } ∧ b'.clock = readings.now ∧
      b'.polls = b.polls := by
  obtain ⟨readings, hpossible, hnow, hanswered, hclock, hpolls⟩ := h
  exact ⟨readings, hpossible, hnow, hanswered.symm, hclock, hpolls.trans (List.append_nil _)⟩

theorem toNat_length {data : Bytes} {ptr : UInt32} {bytes : Bytes} (h : Lies data ptr bytes) :
    (UInt32.ofNat bytes.length).toNat = bytes.length := by
  have hsize := h.size
  have hinside := h.inside
  exact UInt32.toNat_ofNat_of_lt' (by rw [UInt32.size]; omega)

theorem adds_lies {data : Bytes} {ptr : UInt32} {bytes : Bytes} (h : Lies data ptr bytes) :
    Runtime.Adds build data ptr bytes.length := by
  have hwide : 2 ^ 31 ≤ 2 ^ (build.width - 1) :=
    Nat.pow_le_pow_right (by decide) (Nat.sub_le_sub_right build.wide 1)
  have hsize := h.size
  exact Runtime.adds_of_le (by omega) h.inside

-- A text that is UTF-8 comes into the log as it is, and the board goes on.
theorem world_logMsg {text : String} {answer : Unit}
    (h : world build w b (.logMsg (Rust.intoBytes text)) answer b') :
    b'.host.hw = b.host.hw ∧ b'.host.logs = b.host.logs ++ [text] ∧ b'.polls = b.polls ∧
      b'.clock ∈ Set.Icc b.clock (b.clock + w.slack) := by
  obtain ⟨readings, -, hnow, ⟨data, ptr, hlies, hlog⟩, hclock, hpolls⟩ := h
  rw [sleeps_eq_zero (fun _ h => by cases h), add_zero, ← hclock] at hnow
  rw [Runtime.logMsg_eq build (SimHal.hardware readings) _ rfl, toNat_length hlies, if_pos (adds_lies hlies),
    if_pos hlies.inside, hlies.eq] at hlog
  have hhost := Except.ok.inj hlog
  unfold Runtime.logged at hhost
  rw [Rust.fromUtf8_intoBytes] at hhost
  exact ⟨by rw [← hhost]; rfl, by rw [← hhost], hpolls.trans (List.append_nil _), hnow⟩

end Calls

section Progress

-- The calls that the world always has an answer for.
def Plain : HostCall → Prop
  | .logMsg text => text.length ≤ 65536
  | .i2cTransfer .. => False
  | _ => True

theorem lies_front {text : Bytes} (h : text.length ≤ 65536) :
    Lies (text ++ List.replicate (65536 - text.length) 0) 0 text where
  size := by rw [List.length_append, List.length_replicate]; omega
  inside := by rw [List.length_append, UInt32.toNat_zero]; omega
  eq := by
    unfold bytesAt
    rw [UInt32.toNat_zero, Nat.zero_add, List.drop_zero, List.take_left]

theorem world_answers {build : Build} {w : Setting} (hslack : 0 ≤ w.slack)
    (hpossible : ∀ now, ∃ readings, w.possible readings ∧ readings.now = now)
    (hslot : ∀ slot, ∃ value, w.slot slot value) (b : Board) {c : HostCall} (hc : Plain c) :
    ∃ answer b', world build w b c answer b' := by
  obtain ⟨readings, hreadings, hnow⟩ := hpossible (b.clock + c.sleeps)
  have hmem : readings.now ∈ Set.Icc (b.clock + c.sleeps) (b.clock + c.sleeps + w.slack) := by
    rw [hnow]
    exact ⟨le_rfl, by linarith⟩
  have hanswer : ∃ answer s', Answered build w readings b.host s' c answer := by
    cases c with
    | getParam slot =>
        obtain ⟨value, hvalue⟩ := hslot slot
        exact ⟨value, b.host, hvalue, rfl⟩
    | gpioGet pin => exact ⟨_, _, rfl⟩
    | adcRead channel => exact ⟨_, _, rfl⟩
    | pwmSet channel duty => exact ⟨(), _, rfl⟩
    | delayMs ms => exact ⟨(), _, rfl⟩
    | logMsg text =>
        have hlies := lies_front hc
        have hlog := Runtime.logMsg_eq build (SimHal.hardware readings)
          { b.host with memory := some (text ++ List.replicate (65536 - text.length) 0) } rfl 0
          (UInt32.ofNat text.length)
        rw [toNat_length hlies, if_pos (adds_lies hlies), if_pos hlies.inside] at hlog
        exact ⟨(), _, _, 0, hlies, hlog⟩
    | i2cTransfer addr tx n => exact hc.elim
  obtain ⟨answer, s', hanswered⟩ := hanswer
  refine ⟨answer, ⟨s', readings.now, b.polls ++ if c.isPoll then [s'.hw] else []⟩, ?_⟩
  exact ⟨readings, hreadings, hmem, hanswered, rfl, rfl⟩

end Progress

end Milo.Demos
