import Mathlib
import Milo.Demos.Drivers
import Milo.Lib.Approach

-- What the flights call, whatever their turns are answered.
namespace Milo.Demos

open Milo.Lib Milo.Lib.Program

-- What a turn of a flight is answered.
structure Observation where
  stop : UInt32
  target : UInt32
  result : Int32
  rx : Vector UInt8 3

def Observation.err (o : Observation) : Int32 := altitudeError o.target o.rx

def motors (duty : UInt32) : List HostEvent :=
  [⟨.pwmSet 0 duty, ()⟩, ⟨.pwmSet 1 duty, ()⟩, ⟨.pwmSet 2 duty, ()⟩, ⟨.pwmSet 3 duty, ()⟩]

def said (text : String) : HostEvent := ⟨.logMsg (Rust.intoBytes text), ()⟩

def Observation.events (o : Observation) (duty : UInt32) : List HostEvent :=
  [⟨.getParam 6, o.stop⟩, ⟨.getParam 0, o.target⟩, ⟨.i2cTransfer 0x68 [0] 3, (o.result, o.rx)⟩] ++
    motors duty ++ [⟨.delayMs 50, ()⟩]

-- The duties of a controller over the errors that it is told.
def Controller.duties (c : Controller) : c.State → List Int32 → List UInt32
  | _, [] => []
  | s, err :: errs => (c.command s err).2 :: c.duties (c.command s err).1 errs

def Controller.flown (c : Controller) : c.State → List Observation → List HostEvent
  | _, [] => []
  | s, o :: os => o.events (c.command s o.err).2 ++ c.flown (c.command s o.err).1 os

-- The turns up to the one that is told to stop, if there is one before so many.
def Controller.loopEvents (c : Controller) (n : ℕ) (s : c.State) (os : List Observation) : List HostEvent :=
  c.flown s os ++ if os.length < n then [⟨.getParam 6, 9999⟩] else []

def Controller.flightEvents (c : Controller) (os : List Observation) : List HostEvent :=
  said c.engaged :: c.loopEvents 1200 c.start os ++ motors 0 ++
    [said "flight: episode complete, motors safed"]

theorem Controller.loopEvents_cons (c : Controller) (n : ℕ) (s : c.State) (o : Observation)
    (os : List Observation) :
    c.loopEvents (n + 1) s (o :: os) =
      o.events (c.command s o.err).2 ++ c.loopEvents n (c.command s o.err).1 os := by
  simp only [Controller.loopEvents, Controller.flown, List.append_assoc, List.length_cons,
    Nat.add_lt_add_iff_right]

section Runs

variable {c : Controller} {events : List HostEvent}

theorem runs_setMotors {duty : UInt32} {outcome : Except Fault Unit} :
    Runs (setMotors duty) events outcome ↔ events = motors duty ∧ outcome = .ok () := by
  constructor
  · intro h
    obtain ⟨-, _, rfl, h1⟩ := runs_ask.mp h
    obtain ⟨-, _, rfl, h2⟩ := runs_ask.mp h1
    obtain ⟨-, _, rfl, h3⟩ := runs_ask.mp h2
    cases h3 with
    | call _ _ _ h4 =>
        obtain ⟨rfl, rfl⟩ := runs_pure.mp h4
        exact ⟨rfl, rfl⟩
  · rintro ⟨rfl, rfl⟩
    refine runs_ask.mpr ⟨(), _, rfl, runs_ask.mpr ⟨(), _, rfl, runs_ask.mpr ⟨(), _, rfl, ?_⟩⟩⟩
    exact Runs.call (A := HostCall.Answer) (.pwmSet 3 duty) Program.done () (.done ())

theorem runs_setMotors_bind {α : Type} {duty : UInt32} {f : Unit → Driver α} {outcome : Except Fault α} :
    Runs (setMotors duty >>= f) events outcome ↔
      ∃ back, events = motors duty ++ back ∧ Runs (f ()) back outcome := by
  rw [runs_bind fun _ e h => by cases (runs_setMotors.mp h).2]
  constructor
  · rintro ⟨front, back, ⟨⟩, rfl, h, hback⟩
    exact ⟨back, by rw [(runs_setMotors.mp h).1], hback⟩
  · rintro ⟨back, rfl, hback⟩
    exact ⟨_, back, (), rfl, runs_setMotors.mpr ⟨rfl, rfl⟩, hback⟩

-- A turn is the last when slot 6 says so, and flies by what it observes else.
theorem runs_flightTurn {s : c.State} {outcome : Except Fault (ForInStep c.State)} :
    Runs (flightTurn c s) events outcome ↔
      (events = [⟨.getParam 6, 9999⟩] ∧ outcome = .ok (.done s)) ∨
      ∃ o : Observation, o.stop ≠ 9999 ∧ events = o.events (c.command s o.err).2 ∧
        outcome = .ok (.yield (c.command s o.err).1) := by
  constructor
  · intro h
    obtain ⟨stop, _, rfl, hturn⟩ := runs_ask.mp h
    by_cases hstop : stop = 9999
    · rw [if_pos hstop] at hturn
      obtain ⟨rfl, rfl⟩ := runs_pure.mp hturn
      exact .inl ⟨by rw [hstop], rfl⟩
    · rw [if_neg hstop] at hturn
      obtain ⟨target, _, rfl, hread⟩ := runs_ask.mp hturn
      obtain ⟨⟨result, rx⟩, _, rfl, hset⟩ := runs_ask.mp hread
      obtain ⟨_, rfl, hdelay⟩ := runs_setMotors_bind.mp hset
      obtain ⟨-, _, rfl, hend⟩ := runs_ask.mp hdelay
      obtain ⟨rfl, rfl⟩ := runs_pure.mp hend
      exact .inr ⟨⟨stop, target, result, rx⟩, hstop, rfl, rfl⟩
  · rintro (⟨rfl, rfl⟩ | ⟨o, hstop, rfl, rfl⟩)
    · refine runs_ask.mpr ⟨9999, [], rfl, ?_⟩
      rw [if_pos rfl]
      exact .done _
    · refine runs_ask.mpr ⟨o.stop, _, rfl, ?_⟩
      rw [if_neg hstop]
      refine runs_ask.mpr ⟨o.target, _, rfl, runs_ask.mpr ⟨(o.result, o.rx), _, rfl, ?_⟩⟩
      exact runs_setMotors_bind.mpr ⟨_, rfl, runs_ask.mpr ⟨(), _, rfl, .done _⟩⟩

theorem flightTurn_ok {s : c.State} (events : List HostEvent) (e : Fault) :
    ¬Runs (flightTurn c s) events (.error e) := by
  intro h
  rcases runs_flightTurn.mp h with ⟨-, h⟩ | ⟨o, -, -, h⟩
  · cases h
  · cases h

theorem runs_flightLoop {n : ℕ} {s : c.State} {outcome : Except Fault c.State} :
    Runs (loop (flightTurn c) n s) events outcome → (∃ s', outcome = .ok s') ∧
      ∃ os : List Observation, os.length ≤ n ∧ (∀ o ∈ os, o.stop ≠ 9999) ∧ events = c.loopEvents n s os := by
  induction n generalizing s events with
  | zero =>
      intro h
      obtain ⟨rfl, rfl⟩ := runs_pure.mp h
      exact ⟨⟨s, rfl⟩, [], le_rfl, fun o ho => absurd ho List.not_mem_nil, rfl⟩
  | succ n ih =>
      intro h
      obtain ⟨front, back, next, rfl, hturn, hback⟩ := (runs_bind flightTurn_ok).mp h
      rcases runs_flightTurn.mp hturn with ⟨rfl, hnext⟩ | ⟨o, hstop, rfl, hnext⟩
      · obtain rfl := Except.ok.inj hnext
        obtain ⟨rfl, rfl⟩ := runs_pure.mp hback
        exact ⟨⟨s, rfl⟩, [], Nat.zero_le _, fun o ho => absurd ho List.not_mem_nil, rfl⟩
      · obtain rfl := Except.ok.inj hnext
        obtain ⟨hok, os, hlen, hall, rfl⟩ := ih hback
        exact ⟨hok, o :: os, Nat.succ_le_succ hlen, List.forall_mem_cons.mpr ⟨hstop, hall⟩,
          (c.loopEvents_cons n s o os).symm⟩

theorem flightLoop_runs (c : Controller) {os : List Observation} (hstop : ∀ o ∈ os, o.stop ≠ 9999) {n : ℕ}
    (hlen : os.length ≤ n) (s : c.State) :
    ∃ s', Runs (loop (flightTurn c) n s) (c.loopEvents n s os) (.ok s') := by
  induction os generalizing n s with
  | nil =>
      cases n with
      | zero => exact ⟨s, .done s⟩
      | succ n =>
          have hturn : Runs (flightTurn c s) [⟨.getParam 6, 9999⟩] (.ok (.done s)) :=
            runs_flightTurn.mpr (.inl ⟨rfl, rfl⟩)
          exact ⟨s, (runs_bind flightTurn_ok).mpr ⟨_, [], _, rfl, hturn, .done s⟩⟩
  | cons o os ih =>
      obtain ⟨n, rfl⟩ : ∃ m, n = m + 1 := ⟨n - 1, by rw [List.length_cons] at hlen; omega⟩
      obtain ⟨ho, hrest⟩ := List.forall_mem_cons.mp hstop
      obtain ⟨s', hloop⟩ := ih hrest (Nat.le_of_succ_le_succ hlen) (c.command s o.err).1
      rw [c.loopEvents_cons]
      refine ⟨s', (runs_bind flightTurn_ok).mpr ⟨_, _, .yield _, rfl, ?_, hloop⟩⟩
      exact runs_flightTurn.mpr (.inr ⟨o, ho, rfl, rfl⟩)

-- The runs of a flight, by what its turns observe.
theorem runs_flight_iff {outcome : Except Fault Unit} :
    Runs (flight c) events outcome ↔ outcome = .ok () ∧ ∃ os : List Observation, os.length ≤ 1200 ∧
      (∀ o ∈ os, o.stop ≠ 9999) ∧ events = c.flightEvents os := by
  have hloop_ok : ∀ events e, ¬Runs (loop (flightTurn c) 1200 c.start) events (.error e) :=
    fun _ e h => by cases (runs_flightLoop h).1.choose_spec
  constructor
  · intro h
    obtain ⟨-, _, rfl, hflight⟩ := runs_ask.mp h
    obtain ⟨_, back, s, rfl, hloop, hset⟩ := (runs_bind hloop_ok).mp hflight
    obtain ⟨_, rfl, hlog⟩ := runs_setMotors_bind.mp hset
    cases hlog with
    | call _ _ _ hend =>
        obtain ⟨rfl, rfl⟩ := runs_pure.mp hend
        obtain ⟨-, os, hlen, hall, rfl⟩ := runs_flightLoop hloop
        refine ⟨rfl, os, hlen, hall, ?_⟩
        simp only [Controller.flightEvents, List.cons_append, List.append_assoc]
        rfl
  · rintro ⟨rfl, os, hlen, hstop, rfl⟩
    obtain ⟨s, hloop⟩ := flightLoop_runs c hstop hlen c.start
    refine runs_ask.mpr ⟨(), _, rfl, (runs_bind hloop_ok).mpr ⟨_, _, s, List.append_assoc _ _ _, hloop, ?_⟩⟩
    refine runs_setMotors_bind.mpr ⟨_, rfl, ?_⟩
    exact Runs.call (A := HostCall.Answer) (.logMsg _) Program.done () (.done ())

end Runs

section Int32

theorem toInt_eq_of_mem {x : ℤ} (hlo : -2 ^ 31 ≤ x) (hhi : x < 2 ^ 31) : x.bmod (2 ^ 32) = x :=
  Int.bmod_eq_of_le (by omega) (by omega)

theorem toInt_limited {lo hi : Int32} (duty : Int32) (h : lo.toInt ≤ hi.toInt) :
    (limited lo hi duty).toInt = clamp lo.toInt hi.toInt duty.toInt := by
  unfold limited clamp
  simp only [Int32.lt_iff_toInt_lt]
  split_ifs
  all_goals omega

theorem toInt_ite (lo hi duty : Int32) :
    (if duty < lo then lo else if hi < duty then hi else duty).toInt = clamp lo.toInt hi.toInt duty.toInt := by
  unfold clamp
  simp only [Int32.lt_iff_toInt_lt]
  split_ifs
  all_goals rfl

theorem toNat_toUInt32 {x : Int32} (h : 0 ≤ x.toInt) : (x.toUInt32.toNat : ℤ) = x.toInt := by
  have hmod : x.toInt = (x.toUInt32.toNat : ℤ).bmod (2 ^ 32) := BitVec.toInt_eq_toNat_bmod x.toBitVec
  have hlt := x.toUInt32.toNat_lt
  rw [Int.bmod_def] at hmod
  split_ifs at hmod
  · omega
  · omega

theorem toInt_toInt32 {x : UInt32} (h : x.toNat < 2 ^ 31) : x.toInt32.toInt = x.toNat := by
  have hmod : x.toInt32.toInt = (x.toNat : ℤ).bmod (2 ^ 32) := BitVec.toInt_eq_toNat_bmod x.toBitVec
  rw [hmod]
  exact toInt_eq_of_mem (by omega) (by omega)

end Int32

section Commands

-- The duties that a motor is set to.
def commands (ch : UInt32) (events : List HostEvent) : List UInt32 :=
  events.filterMap fun
    | ⟨.pwmSet channel duty, _⟩ => if channel = ch then some duty else none
    | _ => none

-- The errors of altitude that a flight is told, in centimetres: the target is 200 unless set.
def targets (events : List HostEvent) : List UInt32 :=
  events.filterMap fun
    | ⟨.getParam slot, value⟩ => if slot = 0 then some value else none
    | _ => none

def heights (events : List HostEvent) : List ℕ :=
  events.filterMap fun
    | ⟨.i2cTransfer _ _ _, (_, rx)⟩ => some ((rx.toList.getD 0 0).toNat * 256 + (rx.toList.getD 1 0).toNat)
    | _ => none

def errors (events : List HostEvent) : List ℤ :=
  List.zipWith (fun (target : UInt32) (height : ℕ) => (if target = 0 then 200 else target.toNat : ℕ) - (height : ℤ))
    (targets events) (heights events)

variable (c : Controller)

theorem commands_append (ch : UInt32) (events events' : List HostEvent) :
    commands ch (events ++ events') = commands ch events ++ commands ch events' := List.filterMap_append

theorem commands_motors (ch duty : UInt32) : commands ch (motors duty) = if ch < 4 then [duty] else [] := by
  split_ifs with hch
  · have hcases : ch = 0 ∨ ch = 1 ∨ ch = 2 ∨ ch = 3 := by
      simp only [← UInt32.toNat_inj, UInt32.lt_iff_toNat_lt, UInt32.reduceToNat] at hch ⊢
      omega
    rcases hcases with rfl | rfl | rfl | rfl
    all_goals rfl
  · have hne : ∀ motor < 4, motor ≠ ch := by
      rintro motor hmotor rfl
      exact hch hmotor
    simp only [commands, motors, List.filterMap_cons, List.filterMap_nil, if_neg (hne 0 (by decide)),
      if_neg (hne 1 (by decide)), if_neg (hne 2 (by decide)), if_neg (hne 3 (by decide))]

theorem commands_flown (ch : UInt32) (s : c.State) (os : List Observation) :
    commands ch (c.flown s os) = if ch < 4 then c.duties s (os.map Observation.err) else [] := by
  induction os generalizing s with
  | nil => exact (ite_self _).symm
  | cons o os ih =>
      rw [Controller.flown, commands_append, ih, Observation.events, commands_append, commands_append,
        commands_motors]
      split_ifs
      all_goals rfl

-- The four motors are set alike, and to nothing behind the loop.
theorem commands_flightEvents (ch : UInt32) (os : List Observation) :
    commands ch (c.flightEvents os) =
      if ch < 4 then c.duties c.start (os.map Observation.err) ++ [0] else [] := by
  have htail : commands ch (if os.length < 1200 then [⟨.getParam 6, 9999⟩] else []) = [] := by
    split_ifs
    all_goals rfl
  unfold Controller.flightEvents Controller.loopEvents
  rw [commands_append, commands_append, commands_motors, ← List.singleton_append, commands_append,
    commands_append, commands_flown, htail]
  split_ifs
  all_goals simp [commands, said]

-- What only the turns are told, each of them once.
theorem filterMap_flightEvents {β : Type} {f : HostEvent → Option β} {g : Observation → β}
    (hturn : ∀ o duty, (o.events duty).filterMap f = [g o]) (hmotors : (motors 0).filterMap f = [])
    (hsaid : ∀ text, f (said text) = none) (hstop : f ⟨.getParam 6, 9999⟩ = none) (os : List Observation) :
    (c.flightEvents os).filterMap f = os.map g := by
  have hflown : ∀ s, (c.flown s os).filterMap f = os.map g := by
    induction os with
    | nil => exact fun s => rfl
    | cons o os ih =>
        intro s
        rw [Controller.flown, List.filterMap_append, hturn, ih, List.map_cons]
        rfl
  have htail : (if os.length < 1200 then [⟨.getParam 6, 9999⟩] else []).filterMap f = [] := by
    split_ifs
    · rw [List.filterMap_cons, hstop]
      rfl
    · rfl
  unfold Controller.flightEvents Controller.loopEvents
  rw [List.filterMap_append, List.filterMap_append, hmotors, List.filterMap_cons, hsaid,
    List.filterMap_append, hflown, htail, List.filterMap_cons, hsaid]
  simp

theorem targets_flightEvents (os : List Observation) :
    targets (c.flightEvents os) = os.map Observation.target :=
  filterMap_flightEvents c (fun _ _ => rfl) rfl (fun _ => rfl) rfl os

theorem heights_flightEvents (os : List Observation) :
    heights (c.flightEvents os) = os.map fun o => (altitude o.rx).toNat := by
  refine filterMap_flightEvents c (fun o duty => ?_) rfl (fun _ => rfl) rfl os
  change [_] = [(altitude o.rx).toNat]
  simp [toNat_altitude]

theorem length_flightEvents {os : List Observation} (h : os.length ≤ 1200) :
    (c.flightEvents os).length ≤ 9606 := by
  have hflown : ∀ s, (c.flown s os).length = 8 * os.length := by
    clear h
    induction os with
    | nil => exact fun s => rfl
    | cons o os ih =>
        intro s
        rw [Controller.flown, List.length_append, ih, List.length_cons]
        change 8 + _ = _
        omega
  simp only [Controller.flightEvents, Controller.loopEvents, List.length_append, List.length_cons, hflown,
    motors, List.length_nil]
  split_ifs
  all_goals simp
  all_goals omega

end Commands

section Safety

variable {c : Controller}

-- What a flight does with its motors: all four are set alike, to duties of the range and at last
-- to zero, and to zero only once slot 6 has told it to stop.
structure Safed (hi : ℕ) (events : List HostEvent) : Prop where
  others : ∀ ch, 4 ≤ ch → commands ch events = []
  alike : ∃ duties : List UInt32, (∀ duty ∈ duties, duty.toNat ∈ Set.Icc 2500 hi) ∧
    ∀ ch < 4, commands ch events = duties ++ [0]
  stopped : ∀ front back, events = front ++ ⟨.getParam 6, 9999⟩ :: back →
    ∀ ch, ∀ duty ∈ commands ch back, duty = 0
  ends : ∃ front, events = front ++ motors 0 ++ [said "flight: episode complete, motors safed"]
  length_le : events.length ≤ 9606

theorem duties_mem {good : UInt32 → Prop} (h : ∀ s err, good (c.command s err).2) (s : c.State)
    (errs : List Int32) : ∀ duty ∈ c.duties s errs, good duty := by
  induction errs generalizing s with
  | nil => exact fun duty hduty => absurd hduty List.not_mem_nil
  | cons err errs ih => exact List.forall_mem_cons.mpr ⟨h s err, ih _⟩

theorem not_mem_flown {os : List Observation} (h : ∀ o ∈ os, o.stop ≠ 9999) (s : c.State) :
    ⟨.getParam 6, 9999⟩ ∉ c.flown s os := by
  induction os generalizing s with
  | nil => exact List.not_mem_nil
  | cons o os ih =>
      rw [Controller.flown, List.mem_append, not_or]
      refine ⟨?_, ih (fun o' ho' => h o' (List.mem_cons_of_mem o ho')) _⟩
      have hne := h o List.mem_cons_self
      simp [Observation.events, motors, hne.symm]

theorem exists_suffix {α : Type} {x : α} {front back first last : List α} (hx : x ∉ first)
    (h : first ++ last = front ++ x :: back) : ∃ mid, last = mid ++ x :: back := by
  rcases List.append_eq_append_iff.mp h with ⟨mid, -, hlast⟩ | ⟨mid, hfirst, hlast⟩
  · exact ⟨mid, hlast⟩
  · cases mid with
    | nil => exact ⟨[], hlast.symm⟩
    | cons y mid =>
        obtain ⟨rfl, -⟩ := List.cons.inj hlast
        exact (hx (hfirst ▸ List.mem_append_right front List.mem_cons_self)).elim

theorem stopped_flightEvents {os : List Observation} (h : ∀ o ∈ os, o.stop ≠ 9999)
    {front back : List HostEvent} (hsplit : c.flightEvents os = front ++ ⟨.getParam 6, 9999⟩ :: back)
    (ch : UInt32) : ∀ duty ∈ commands ch back, duty = 0 := by
  have hflight : c.flightEvents os = (said c.engaged :: c.flown c.start os) ++
      ((if os.length < 1200 then [⟨.getParam 6, 9999⟩] else []) ++ motors 0 ++
        [said "flight: episode complete, motors safed"]) := by
    simp [Controller.flightEvents, Controller.loopEvents]
  have hflown : ⟨.getParam 6, 9999⟩ ∉ said c.engaged :: c.flown c.start os := by
    rw [List.mem_cons, not_or]
    exact ⟨by simp [said], not_mem_flown h c.start⟩
  rw [hflight] at hsplit
  obtain ⟨mid, hmid⟩ := exists_suffix hflown hsplit
  have hzero : commands ch (mid ++ ⟨.getParam 6, 9999⟩ :: back) = if ch < 4 then [0] else [] := by
    rw [← hmid, commands_append, commands_append, commands_motors]
    split_ifs
    all_goals rfl
  intro duty hduty
  have hmem : duty ∈ commands ch (mid ++ ⟨.getParam 6, 9999⟩ :: back) := by
    rw [commands_append]
    exact List.mem_append_right _ hduty
  rw [hzero] at hmem
  split_ifs at hmem
  · exact List.mem_singleton.mp hmem
  · exact absurd hmem List.not_mem_nil

theorem Controller.safed {hi : ℕ} (h : ∀ s err, (c.command s err).2.toNat ∈ Set.Icc 2500 hi)
    {events : List HostEvent} {outcome : Except Fault Unit} (hruns : Runs (flight c) events outcome) :
    outcome = .ok () ∧ Safed hi events := by
  obtain ⟨hok, os, hlen, hstop, rfl⟩ := runs_flight_iff.mp hruns
  refine ⟨hok, fun ch hch => ?_, ⟨c.duties c.start (os.map Observation.err), ?_, fun ch hch => ?_⟩,
    fun front back hsplit ch => stopped_flightEvents hstop hsplit ch, ⟨_, rfl⟩, length_flightEvents c hlen⟩
  · rw [commands_flightEvents, if_neg (UInt32.not_lt.mpr hch)]
  · exact duties_mem h c.start _
  · rw [commands_flightEvents, if_pos hch]

theorem toNat_mem {lo hi : ℕ} {x : Int32} (h : x.toInt ∈ Set.Icc (lo : ℤ) hi) :
    x.toUInt32.toNat ∈ Set.Icc lo hi := by
  have hx := toNat_toUInt32 (le_trans (Int.natCast_nonneg lo) h.1)
  rw [← hx] at h
  exact ⟨by exact_mod_cast h.1, by exact_mod_cast h.2⟩

theorem hold_mem (s : Unit) (err : Int32) : (hold.command s err).2.toNat ∈ Set.Icc 2500 8500 := by
  refine toNat_mem ?_
  rw [toInt_limited _ (by decide)]
  exact clamp_mem_Icc (by decide) _

theorem repair_mem (s : Int32) (err : Int32) : (repair.command s err).2.toNat ∈ Set.Icc 2500 9500 := by
  refine toNat_mem ?_
  rw [toInt_ite]
  exact clamp_mem_Icc (by decide) _

-- A climb: the target is at 150 cm, the altimeter reads 100, and the flight is told to stop.
def climb : Observation := ⟨0, 150, 0, #v[0, 100, 1]⟩

theorem runs_climb (c : Controller) : Runs (flight c) (c.flightEvents [climb]) (.ok ()) :=
  runs_flight_iff.mpr ⟨rfl, [climb], by decide, List.forall_mem_singleton.mpr (by decide), rfl⟩

-- Whatever the altimeter and the parameter slots say, and whenever.
theorem flights_safed {events : List HostEvent} {outcome : Except Fault Unit} :
    (Runs droneHold events outcome → outcome = .ok () ∧ Safed 8500 events) ∧
    (Runs droneRepairFallback events outcome → outcome = .ok () ∧ Safed 9500 events) :=
  ⟨Controller.safed hold_mem, Controller.safed repair_mem⟩

theorem flights_safed_climb : commands 0 (hold.flightEvents [climb]) = [5300, 0] ∧
    Safed 8500 (hold.flightEvents [climb]) ∧ Safed 9500 (repair.flightEvents [climb]) :=
  ⟨by decide, (flights_safed.1 (runs_climb hold)).2, (flights_safed.2 (runs_climb repair)).2⟩

end Safety

end Milo.Demos
