import Milo.Demos.Flight

-- The control laws of the flights, and where the flights follow them.
namespace Milo.Demos

open Milo.Lib Milo.Lib.Program

-- A control law over the integers.
structure Law where
  State : Type
  start : State
  next : State → ℤ → State × ℤ

def Law.duties (law : Law) : law.State → List ℤ → List ℤ
  | _, [] => []
  | s, err :: errs => (law.next s err).2 :: law.duties (law.next s err).1 errs

-- Proportional control around the duty that hovers.
def holdLaw : Law where
  State := Unit
  start := ()
  next _ err := ((), clamp 2500 8500 (5000 + err * 6))

-- Control with an integral part that is kept in its range.
def repairLaw : Law where
  State := ℤ
  start := 5000
  next duty err :=
    let duty := clamp 2500 8500 (duty + err.tdiv 24)
    (duty, clamp 2500 9500 (duty + err * 3))

-- The errors at which 5000 + err * 6 is no more than an i32 holds.
def Near (err : ℤ) : Prop := -65535 ≤ err ∧ err ≤ 357913107

theorem duties_eq {c : Controller} {law : Law} {rel : c.State → law.State → Prop}
    (hstep : ∀ s z err, rel s z → Near err.toInt →
      ((c.command s err).2.toNat : ℤ) = (law.next z err.toInt).2 ∧
        rel (c.command s err).1 (law.next z err.toInt).1)
    {s : c.State} {z : law.State} (h : rel s z) {errs : List Int32} (hnear : ∀ err ∈ errs, Near err.toInt) :
    (c.duties s errs).map (fun duty => (duty.toNat : ℤ)) = law.duties z (errs.map Int32.toInt) := by
  induction errs generalizing s z with
  | nil => rfl
  | cons err errs ih =>
      obtain ⟨herr, hrest⟩ := List.forall_mem_cons.mp hnear
      obtain ⟨hduty, hrel⟩ := hstep s z err h herr
      rw [Controller.duties, List.map_cons, List.map_cons, Law.duties, ih hrel hrest, hduty]

theorem hold_step (s z : Unit) (err : Int32) (hnear : Near err.toInt) :
    ((hold.command s err).2.toNat : ℤ) = (holdLaw.next z err.toInt).2 := by
  obtain ⟨hlo, hhi⟩ := hnear
  have hsum : (5000 + err * 6 : Int32).toInt = 5000 + err.toInt * 6 := by
    have hmul : (err * 6).toInt = err.toInt * 6 := by
      rw [Int32.toInt_mul]
      exact toInt_eq_of_mem (x := err.toInt * 6) (by omega) (by omega)
    rw [Int32.toInt_add, hmul]
    exact toInt_eq_of_mem (x := 5000 + err.toInt * 6) (by omega) (by omega)
  have hlim : (limited 2500 8500 (5000 + err * 6)).toInt = _ := toInt_limited _ (by decide)
  change ((limited 2500 8500 (5000 + err * 6)).toUInt32.toNat : ℤ) = clamp 2500 8500 (5000 + err.toInt * 6)
  rw [hsum] at hlim
  rw [toNat_toUInt32, hlim]
  · rfl
  · rw [hlim]
    exact le_trans (by decide) (clamp_mem_Icc (by decide : (2500 : Int32).toInt ≤ _) _).1

theorem repair_step {s : Int32} {z : ℤ} (err : Int32) (hs : s.toInt = z ∧ z ∈ Set.Icc 2500 8500)
    (hnear : Near err.toInt) :
    ((repair.command s err).2.toNat : ℤ) = (repairLaw.next z err.toInt).2 ∧
      (limited 2500 8500 (s + err / 24)).toInt = clamp 2500 8500 (z + err.toInt.tdiv 24) ∧
      clamp 2500 8500 (z + err.toInt.tdiv 24) ∈ Set.Icc 2500 8500 := by
  obtain ⟨hlo, hhi⟩ := hnear
  obtain ⟨rfl, hzlo, hzhi⟩ := hs
  have hdiv : (err / 24).toInt = err.toInt.tdiv 24 := Int32.toInt_div_of_ne_right err 24 (by decide)
  have hpart : -65535 ≤ err.toInt.tdiv 24 ∧ err.toInt.tdiv 24 ≤ 357913107 := by
    rw [Int.tdiv_eq_ediv]
    have hsign : Int.sign 24 = 1 := rfl
    split_ifs
    · omega
    · omega
  have hsum : (s + err / 24).toInt = s.toInt + err.toInt.tdiv 24 := by
    rw [Int32.toInt_add, hdiv]
    exact toInt_eq_of_mem (x := s.toInt + err.toInt.tdiv 24) (by omega) (by omega)
  have hduty : (limited 2500 8500 (s + err / 24)).toInt = clamp 2500 8500 (s.toInt + err.toInt.tdiv 24) := by
    rw [toInt_limited _ (by decide), hsum]
    rfl
  have hmem : clamp 2500 8500 (s.toInt + err.toInt.tdiv 24) ∈ Set.Icc 2500 8500 :=
    clamp_mem_Icc (by decide) _
  refine ⟨?_, hduty, hmem⟩
  have hmul : (err * 3).toInt = err.toInt * 3 := by
    rw [Int32.toInt_mul]
    exact toInt_eq_of_mem (x := err.toInt * 3) (by omega) (by omega)
  have hp : (limited 2500 8500 (s + err / 24) + err * 3).toInt =
      clamp 2500 8500 (s.toInt + err.toInt.tdiv 24) + err.toInt * 3 := by
    obtain ⟨hduty_lo, hduty_hi⟩ := hmem
    rw [Int32.toInt_add, hduty, hmul]
    exact toInt_eq_of_mem (x := clamp 2500 8500 (s.toInt + err.toInt.tdiv 24) + err.toInt * 3)
      (by omega) (by omega)
  have hcmd := toInt_ite 2500 9500 (limited 2500 8500 (s + err / 24) + err * 3)
  rw [hp] at hcmd
  refine (toNat_toUInt32 ?_).trans hcmd
  rw [hcmd]
  exact le_trans (by decide) (clamp_mem_Icc (by decide : (2500 : Int32).toInt ≤ _) _).1

-- A target up to that bound is no nearer to the altimeter's than Near allows.
theorem toInt_err {o : Observation} (h : o.target.toNat ≤ 357913107) :
    o.err.toInt = (if o.target = 0 then 200 else o.target.toNat : ℕ) - ((altitude o.rx).toNat : ℤ) ∧
      Near o.err.toInt := by
  have haltitude : (altitude o.rx).toNat < 65536 := by
    rw [toNat_altitude]
    have hlow := o.rx[1].toNat_lt
    have hhigh := o.rx[0].toNat_lt
    omega
  have htarget : (if o.target = 0 then 200 else o.target : UInt32).toNat =
      if o.target = 0 then 200 else o.target.toNat := by
    split_ifs
    all_goals rfl
  have hbound : (if o.target = 0 then 200 else o.target.toNat) ≤ 357913107 := by
    split_ifs
    · decide
    · exact h
  have herr : o.err.toInt = (if o.target = 0 then 200 else o.target.toNat : ℕ) - ((altitude o.rx).toNat : ℤ) := by
    unfold Observation.err altitudeError
    rw [Int32.toInt_sub, toInt_toInt32 (by rw [htarget]; omega), toInt_toInt32 (by omega), htarget]
    exact toInt_eq_of_mem (by omega) (by omega)
  rw [herr]
  exact ⟨rfl, by unfold Near; omega⟩

theorem Controller.lawful (c : Controller) (law : Law) (rel : c.State → law.State → Prop)
    (hstep : ∀ s z err, rel s z → Near err.toInt →
      ((c.command s err).2.toNat : ℤ) = (law.next z err.toInt).2 ∧
        rel (c.command s err).1 (law.next z err.toInt).1) (hstart : rel c.start law.start)
    {events : List HostEvent} {outcome : Except Fault Unit} (hruns : Runs (flight c) events outcome)
    (htargets : ∀ target ∈ targets events, target.toNat ≤ 357913107) (ch : UInt32) (hch : ch < 4) :
    (commands ch events).map (fun duty => (duty.toNat : ℤ)) = law.duties law.start (errors events) ++ [0] := by
  obtain ⟨-, os, -, -, rfl⟩ := runs_flight_iff.mp hruns
  rw [targets_flightEvents, List.forall_mem_map] at htargets
  have herrors : errors (c.flightEvents os) = (os.map Observation.err).map Int32.toInt := by
    unfold errors
    rw [targets_flightEvents, heights_flightEvents, List.zipWith_map, List.zipWith_self, List.map_map]
    exact List.map_congr_left fun o ho => (toInt_err (htargets o ho)).1.symm
  rw [commands_flightEvents, if_pos hch, List.map_append, herrors, duties_eq hstep hstart]
  · rfl
  · rw [List.forall_mem_map]
    exact fun o ho => (toInt_err (htargets o ho)).2

-- On targets up to there nothing wraps: each turn sets the duty of the law over the integers.
theorem flights_lawful {events : List HostEvent} {outcome : Except Fault Unit}
    (htargets : ∀ target ∈ targets events, target.toNat ≤ 357913107) (ch : UInt32) (hch : ch < 4) :
    (Runs droneHold events outcome → (commands ch events).map (fun duty => (duty.toNat : ℤ)) =
      holdLaw.duties holdLaw.start (errors events) ++ [0]) ∧
    (Runs droneRepairFallback events outcome → (commands ch events).map (fun duty => (duty.toNat : ℤ)) =
      repairLaw.duties repairLaw.start (errors events) ++ [0]) := by
  constructor
  · intro hruns
    refine hold.lawful holdLaw (fun _ _ => True) (fun s z err _ hnear => ?_) trivial hruns htargets ch hch
    exact ⟨hold_step s z err hnear, trivial⟩
  · intro hruns
    have hstart : (5000 : ℤ) ∈ Set.Icc 2500 8500 := ⟨by decide, by decide⟩
    refine repair.lawful repairLaw (fun (s : Int32) (z : ℤ) => s.toInt = z ∧ z ∈ Set.Icc 2500 8500)
      (fun s z err hs hnear => ?_) ⟨rfl, hstart⟩ hruns htargets ch hch
    exact repair_step err hs hnear

theorem flights_lawful_climb :
    (commands 3 (hold.flightEvents [climb])).map (fun duty => (duty.toNat : ℤ)) = [5300, 0] ∧
      (commands 3 (repair.flightEvents [climb])).map (fun duty => (duty.toNat : ℤ)) = [5152, 0] := by
  have htargets : ∀ c : Controller, ∀ target ∈ targets (c.flightEvents [climb]), target.toNat ≤ 357913107 := by
    intro c
    rw [targets_flightEvents]
    exact List.forall_mem_singleton.mpr (by decide)
  have herrors : ∀ c : Controller, errors (c.flightEvents [climb]) = [50] := by
    intro c
    unfold errors
    rw [targets_flightEvents, heights_flightEvents]
    decide
  have hhold := (flights_lawful (htargets hold) 3 (by decide)).1 (runs_climb hold)
  have hrepair := (flights_lawful (htargets repair) 3 (by decide)).2 (runs_climb repair)
  rw [herrors] at hhold hrepair
  exact ⟨hhold, hrepair⟩

end Milo.Demos
