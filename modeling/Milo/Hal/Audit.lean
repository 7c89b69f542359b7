import Milo.Hal.Adapter
import Milo.Runtime.Execute

namespace Milo.Hal

open Milo.Rust Milo.Runtime Milo.Engine.Executor

namespace Registered

variable {P : Type} (r : Registered P)

-- The name of a peripheral syscall, the id it acts on, and whether one is registered
-- there.
def target : Syscall → Option (String × UInt32 × Bool)
  | .gpioSet pin _ => some ("gpio_set", pin, (r.pins pin).isSome)
  | .gpioGet pin => some ("gpio_get", pin, (r.pins pin).isSome)
  | .i2cTransfer .. => some ("i2c_transfer", 0, (r.i2cBuses 0).isSome)
  | .pwmSet channel _ => some ("pwm_set", channel, (r.pwmChannels channel).isSome)
  | .adcRead channel => some ("adc_read", channel, (r.adcChannels channel).isSome)
  | .spiTransfer bus .. => some ("spi_transfer", bus, (r.spiBuses bus).isSome)
  | .uartWrite bus .. => some ("uart_write", bus, (r.uartBuses bus).isSome)
  | .uartRead bus .. => some ("uart_read", bus, (r.uartBuses bus).isSome)
  | .delayMs _ => none
  | .getUptimeUs => none
  | .logMsg .. => none
  | .getParam _ => none

def denial (syscall : Syscall) : Option String :=
  match r.target syscall with
  | some (name, id, false) => some (denied name id)
  | _ => none

def denies (syscall : Syscall) : Bool := (r.denial syscall).isSome

-- The documented audit trail: the denials, in call order, among the messages.
def trail (calls : List (Option Bytes × Syscall)) : List String :=
  calls.flatMap fun call => (r.denial call.2).toList ++ (message call.1 call.2).toList

theorem length_trail (calls : List (Option Bytes × Syscall)) :
    (r.trail calls).length = (messages calls).length + calls.countP fun call => r.denies call.2 := by
  induction calls with
  | nil => rfl
  | cons call calls ih =>
      have hcall : (r.denial call.2).toList.length = if r.denies call.2 then 1 else 0 := by
        unfold denies
        cases r.denial call.2 <;> rfl
      simp only [trail, messages, List.flatMap_cons, List.length_append, List.countP_cons] at ih ⊢
      omega

theorem trail_eq_messages_iff (calls : List (Option Bytes × Syscall)) :
    messages calls = r.trail calls ↔ ∀ call ∈ calls, r.denies call.2 = false := by
  constructor
  · intro h
    have hlen := r.length_trail calls
    rw [← h] at hlen
    have hcount : (calls.countP fun call => r.denies call.2) = 0 := by omega
    simpa only [List.countP_eq_zero, Bool.not_eq_true] using hcount
  · intro h
    apply List.flatMap_congr
    intro call hcall
    have hnone : r.denial call.2 = none := by simpa [denies] using h call hcall
    rw [hnone]
    rfl

end Registered

namespace EmbeddedHalAdapter

variable {P : Type} {a a' : EmbeddedHalAdapter P} {syscall : Syscall}

theorem called_registered (h : Called hardware a syscall a') : a'.toRegistered = a.toRegistered := by
  cases h with
  | kept => rfl
  | gpioSet pin state => simp only [hardware, gpioSet]; split <;> rfl
  | gpioGet pin => simp only [hardware, gpioGet]; split <;> rfl
  | delayMs ms => rfl
  | i2cTransfer => simp only [hardware, i2cTransfer]; split <;> rfl
  | logMsg ptr len msg => rfl
  | pwmSet channel duty => simp only [hardware, pwmSet]; split <;> rfl
  | adcRead channel => simp only [hardware, adcRead]; split <;> rfl
  | spiTransfer => simp only [hardware, spiTransfer]; split <;> rfl
  | uartWrite => simp only [hardware, uartWrite]; split <;> rfl
  | uartRead => simp only [hardware, uartRead]; split <;> rfl

theorem called_denied (h : Called hardware a syscall a') (hdenied : a.denies syscall) :
    a'.peripherals = a.peripherals := by
  unfold Registered.denies Registered.denial at hdenied
  cases h with
  | kept => rfl
  | gpioSet pin state =>
      cases hpin : a.pins pin with
      | some p => simp [Registered.target, hpin] at hdenied
      | none => simp only [hardware, gpioSet, hpin]; rfl
  | gpioGet pin =>
      cases hpin : a.pins pin with
      | some p => simp [Registered.target, hpin] at hdenied
      | none => simp only [hardware, gpioGet, hpin]; rfl
  | delayMs ms => simp [Registered.target] at hdenied
  | i2cTransfer =>
      cases hbus : a.i2cBuses 0 with
      | some b => simp [Registered.target, hbus] at hdenied
      | none => simp only [hardware, i2cTransfer, hbus]
  | logMsg ptr len msg => rfl
  | pwmSet channel duty =>
      cases hchannel : a.pwmChannels channel with
      | some p => simp [Registered.target, hchannel] at hdenied
      | none => simp only [hardware, pwmSet, hchannel]; rfl
  | adcRead channel =>
      cases hchannel : a.adcChannels channel with
      | some p => simp [Registered.target, hchannel] at hdenied
      | none => simp only [hardware, adcRead, hchannel]; rfl
  | spiTransfer bus =>
      cases hbus : a.spiBuses bus with
      | some b => simp [Registered.target, hbus] at hdenied
      | none => simp only [hardware, spiTransfer, hbus]
  | uartWrite bus =>
      cases hbus : a.uartBuses bus with
      | some b => simp [Registered.target, hbus] at hdenied
      | none => simp only [hardware, uartWrite, hbus]
  | uartRead bus =>
      cases hbus : a.uartBuses bus with
      | some b => simp [Registered.target, hbus] at hdenied
      | none => simp only [hardware, uartRead, hbus]

end EmbeddedHalAdapter

-- The audit that the log list of a completed run owes the host.
structure Audited {P : Type} (build : Build) (r : Registered P) (guest : Interpretation)
    (logs : List String) : Prop where
  untouched : ∀ (s s' : HostState (EmbeddedHalAdapter P)) params syscall value,
    s.hw.toRegistered = r → r.denies syscall →
      perform build EmbeddedHalAdapter.hardware params s syscall = .ok (value, s') →
        s'.hw.peripherals = s.hw.peripherals
  trail : logs = r.trail guest.calls

-- The registrations outlast the run, so the denials of a module are known from them.
theorem execute_audited_iff {P : Type} (build : Build) (s s' : HostState (EmbeddedHalAdapter P))
    (exportName : String) (guest : Interpretation) (logs : List String)
    (h : execute build EmbeddedHalAdapter.hardware s exportName guest = .ok (.ok logs, s')) :
    s'.hw.toRegistered = s.hw.toRegistered ∧
      (Audited build s.hw.toRegistered guest logs ↔
        ∀ call ∈ guest.calls, s.hw.denies call.2 = false) := by
  obtain ⟨hkept, hlogs⟩ := execute_effect
    (fun a a' : EmbeddedHalAdapter P => a'.toRegistered = a.toRegistered) (fun _ => rfl)
    (fun _ _ _ hab hbc => hbc.trans hab) (fun _ _ _ hcall => EmbeddedHalAdapter.called_registered hcall) h
  have hmessages := hlogs logs rfl
  refine ⟨hkept, fun haudited => ?_, fun hgranted => ⟨?_, ?_⟩⟩
  · exact (s.hw.trail_eq_messages_iff _).mp (hmessages ▸ haudited.trail)
  · rintro t t' params syscall value hreg hdenied hperform
    exact EmbeddedHalAdapter.called_denied (perform_effect hperform).1 (hreg ▸ hdenied)
  · exact hmessages.trans ((s.hw.trail_eq_messages_iff _).mpr hgranted)

-- An adapter with pin 5 alone, whose state is the level of the pin.
def pinFive : HostState (EmbeddedHalAdapter Bool) where
  hw :=
    { pins := fun id => if id = 5 then some { set := fun _ level => level, get := fun p => (p, p) } else none
      pwmChannels := fun _ => none
      adcChannels := fun _ => none
      i2cBuses := fun _ => none
      spiBuses := fun _ => none
      uartBuses := fun _ => none
      delay := { delayMs := fun p _ => p }
      uptimeFn := fun _ => 42
      peripherals := false
      logSink := []
      lastLog := none }
  memory := none
  logs := []
  transfers := []

-- A module whose export makes the given syscalls and returns.
def calling (syscalls : List Syscall) : Interpretation :=
  .started [] true
    (some (syscalls.map fun syscall => { memory := [], params := .initial, syscall := syscall }, none))

theorem execute_audited_pinFive :
    Audited release64 pinFive.hw.toRegistered (calling [.gpioSet 5 1, .gpioGet 5]) [] :=
  (execute_audited_iff release64 pinFive _ "run" (calling [.gpioSet 5 1, .gpioGet 5]) [] rfl).2.mpr
    (by decide)

-- A pin and a bus that no manifest advertised: the log list says nothing of either.
theorem execute_silent :
    (execute release64 EmbeddedHalAdapter.hardware pinFive "run"
        (calling [.gpioSet 99 1, .i2cTransfer 0x48 0 0 0 0])).map Prod.fst = .ok (.ok []) ∧
      ¬Audited release64 pinFive.hw.toRegistered
        (calling [.gpioSet 99 1, .i2cTransfer 0x48 0 0 0 0]) [] := by
  refine ⟨rfl, fun h => ?_⟩
  have hlen := congrArg List.length h.trail
  rw [Registered.length_trail] at hlen
  exact absurd hlen (by decide)

end Milo.Hal
