import Milo.Demos.Flight.Law
import Milo.Demos.Oven

-- The closed loop of the oven: what it sets the heater to is what its log gives.
namespace Milo.Demos

open Milo.Lib Milo.Lib.Program Milo.Targets.Sim
open Milo.Rust (Build)

-- Integral control of the heater over the integers.
def ovenLaw : Law where
  State := ℤ
  start := 4170
  next duty err :=
    let duty := clamp 0 10000 (duty + err.tdiv 2)
    (duty, duty)

theorem ovenLaw_cons (duty err : ℤ) (errs : List ℤ) :
    ovenLaw.duties duty (err :: errs) =
      clamp 0 10000 (duty + err.tdiv 2) :: ovenLaw.duties (clamp 0 10000 (duty + err.tdiv 2) : ℤ) errs := rfl

-- The target of the closed loop, and how far a temperature is from it.
def goal (target : UInt32) : ℕ := if target = 0 then 1500 else target.toNat

def shortfall (target t : UInt32) : ℤ := goal target - (t.toNat : ℤ)

theorem toInt_shortfall {target t : UInt32} (htarget : target.toNat < 2 ^ 31) (ht : t.toNat < 2 ^ 31) :
    ((if target = 0 then 1500 else target).toInt32 - t.toInt32).toInt = shortfall target t := by
  have hgoal : (if target = 0 then 1500 else target : UInt32).toNat = goal target := by
    unfold goal
    split_ifs
    all_goals rfl
  have hbound : goal target < 2 ^ 31 := by
    unfold goal
    split_ifs
    · decide
    · exact htarget
  rw [Int32.toInt_sub, toInt_toInt32 (by rwa [hgoal]), toInt_toInt32 ht, hgoal]
  exact toInt_eq_of_mem (by omega) (by omega)

-- Nothing wraps: the error is halved before it is added.
theorem toInt_turn {duty err : Int32} (h : duty.toInt ∈ Set.Icc 0 10000) (hlo : -2 ^ 31 < err.toInt) :
    (limited 0 10000 (duty + err / 2)).toInt = clamp 0 10000 (duty.toInt + err.toInt.tdiv 2) := by
  have hhi : err.toInt < 2 ^ 31 := err.toInt_lt
  have hdiv : (err / 2).toInt = err.toInt.tdiv 2 := Int32.toInt_div_of_ne_right err 2 (by decide)
  have hpart : -2 ^ 30 ≤ err.toInt.tdiv 2 ∧ err.toInt.tdiv 2 ≤ 2 ^ 30 := by
    rw [Int.tdiv_eq_ediv]
    have hsign : Int.sign 2 = 1 := rfl
    split_ifs
    · omega
    · omega
  obtain ⟨hduty0, hduty1⟩ := h
  have hsum : (duty + err / 2).toInt = duty.toInt + err.toInt.tdiv 2 := by
    rw [Int32.toInt_add, hdiv]
    exact toInt_eq_of_mem (x := duty.toInt + err.toInt.tdiv 2) (by omega) (by omega)
  rw [toInt_limited _ (by decide), hsum]
  rfl

section Episode

variable {build : Build} {w : Setting} {b b₁ b₂ b₃ : Board} {target : UInt32}

-- So much is logged and set by the temperatures so far, whatever comes behind them.
structure Controlled (target : UInt32) (logs : List String) (b : Board) (past : List HostEvent) (duty : Int32)
    (temps : List UInt32) : Prop where
  bounded : Bounded b.host.hw
  profile : b.host.hw.profile = .oven
  logs : b.host.logs = logs ++ temps.map fun t => kvLine "T" t.toNat
  near : ∀ t ∈ temps, t.toNat ≤ 4300
  others : ∀ ch ≠ 0, commands ch past = []
  limits : duty.toInt ∈ Set.Icc 0 10000
  law : ∀ errs, ovenLaw.duties (4170 : ℤ) (temps.map (shortfall target) ++ errs) =
    (commands 0 past).map (fun duty => (duty.toNat : ℤ)) ++ ovenLaw.duties duty.toInt errs

theorem Controlled.turn {logs : List String} {past : List HostEvent} {duty : Int32} {temps : List UInt32}
    {t : UInt32} (htarget : target.toNat < 2 ^ 31) (h : Controlled target logs b past duty temps)
    {after : Int32} (hafter : after = limited 0 10000
      (duty + ((if target = 0 then 1500 else target).toInt32 - t.toInt32) / 2)) {past' : List HostEvent}
    (hpast : ∀ ch, commands ch past' = commands ch past ++ if ch = 0 then [after.toUInt32] else [])
    {readings₁ readings₂ readings₃ : Readings} (ht : (b.host.hw.adcRead readings₁ 0).1 = t)
    (hhw : b₃.host.hw = ((b.host.hw.step readings₁).pwmSet readings₂ 0 after.toUInt32).step readings₃)
    (hlogs : b₃.host.logs = b.host.logs ++ [kvLine "T" t.toNat]) :
    Controlled target logs b₃ past' after (temps ++ [t]) := by
  have hstep₁ := h.bounded.step readings₁
  have hset := hstep₁.1.after ⟨.pwmSet 0 after.toUInt32, readings₂⟩
  have hstep₃ := hset.1.step readings₃
  have hprofile₁ : (b.host.hw.step readings₁).profile = .oven := hstep₁.2.profile.trans h.profile
  have hread : t.toNat ≤ 4300 := by
    rw [← ht, adcRead_oven hstep₁.1 hprofile₁]
    have hmost := hstep₁.1.oven.2
    exact Nat.floor_le_of_le (by push_cast; linarith)
  have herr := toInt_shortfall htarget (t := t) (by omega)
  have hnext : after.toInt = clamp 0 10000 (duty.toInt + (shortfall target t).tdiv 2) := by
    rw [hafter, toInt_turn h.limits (by rw [herr]; unfold shortfall; omega), herr]
  have hmem : after.toInt ∈ Set.Icc 0 10000 := hnext ▸ clamp_mem_Icc (by decide) _
  refine ⟨hhw ▸ hstep₃.1, ?_, ?_, ?_, ?_, hmem, ?_⟩
  · rw [hhw]
    exact (hstep₃.2.profile.trans hset.2.profile).trans hprofile₁
  · rw [hlogs, h.logs, List.append_assoc, List.map_append]
    rfl
  · intro t' ht'
    rcases List.mem_append.mp ht' with hold | hnew
    · exact h.near t' hold
    · exact List.mem_singleton.mp hnew ▸ hread
  · intro ch hch
    rw [hpast, h.others ch hch, if_neg hch, List.append_nil]
  · intro errs
    rw [List.map_append, List.append_assoc, h.law, hpast, if_pos rfl, List.map_append, List.append_assoc]
    rw [List.map_singleton, List.singleton_append, ovenLaw_cons, ← hnext, List.map_singleton,
      toNat_toUInt32 hmem.1, List.singleton_append]

end Episode

end Milo.Demos
