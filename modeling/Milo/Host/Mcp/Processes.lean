import Milo.Host.Mcp.Server
import Milo.Lib.Guarded

-- Where the processes are that the server has started.
namespace Milo.Host.Mcp

open Milo.Lib

-- A call with its world.
structure Call (κ : Type) where
  name : Json
  arguments : Json
  world : World κ

section Runs

variable {κ : Type} [DecidableEq κ] (py : Builtins κ)

def Server.step (s : Server κ) (call : Call κ) : Server κ :=
  (s.callTool py call.world call.name call.arguments).2.stop call.world.ended

def Server.run (calls : List (Call κ)) : Server κ := calls.foldl (Server.step py) .init

def Server.final (w : World κ) (s : Server κ) : Server κ := (s.shutdown w).2.stop w.ended

-- The process is held under the name of a device, and when that is disconnected and its
-- transport closes the process is stopped.
def Server.Holds (s : Server κ) (proc : Nat) : Prop :=
  ∃ key ∈ s.registry, s.procs.lookup key = some proc ∧
    ∀ w members name, get members "device" = some name → name.truthy → name.hashable →
      py.key name = key → w.close key = none → proc ∉ (toolMiloDisconnect py w members s).2.running

-- The call starts an emulator.
def Call.Starts (s : Server κ) (call : Call κ) : Prop :=
  call.name = .str "milo_spawn_sim" ∧ call.world.popen = none ∧
    ∃ members profile name, orEmpty call.arguments = .object members ∧
      spawnChecks py call.world members s = .ok (profile, name)

-- Its port cannot be asked, or answers but its device is not registered.
def World.Strands (w : World κ) : Prop :=
  match w.waitPort with
  | .error _ => True
  | .ok up => up = true ∧ ∃ raised, w.register = .error raised

-- No emulator that a call starts and strands is left running.
def Call.Keeps (s : Server κ) (call : Call κ) : Prop :=
  call.Starts py s → call.world.Strands → call.world.ended s.started = true

end Runs

section Steps

variable {κ : Type} [DecidableEq κ] {py : Builtins κ} {w : World κ} {s s' : Server κ}

def Server.Held (s : Server κ) (proc : Nat) : Prop :=
  ∃ key ∈ s.registry, s.procs.lookup key = some proc

def Server.AllHeld (s : Server κ) : Prop := ∀ proc ∈ s.running, s.Held proc

-- The processes of the table have been started.
def Server.Fresh (s : Server κ) : Prop :=
  ∀ key proc, s.procs.lookup key = some proc → proc < s.started

structure Kept (s s' : Server κ) : Prop where
  fresh : s.Fresh → s'.Fresh
  held : s.AllHeld → s'.AllHeld

theorem Kept.refl (s : Server κ) : Kept s s := ⟨id, id⟩

theorem kept_stop (s : Server κ) (stopped : Nat → Bool) : Kept s (s.stop stopped) where
  fresh h := h
  held h proc hproc := h proc (List.mem_of_mem_filter hproc)

theorem held_enter {proc : Nat} (h : s.Held proc) (key : κ) : (s.enter key).Held proc := by
  obtain ⟨held, hmem, hlookup⟩ := h
  refine ⟨held, ?_, hlookup⟩
  unfold Server.enter
  dsimp only
  split_ifs
  · exact hmem
  · exact List.mem_append_left _ hmem

theorem kept_enter (s : Server κ) (key : κ) : Kept s (s.enter key) where
  fresh h := h
  held h proc hproc := held_enter (h proc hproc) key

theorem kept_leave (s : Server κ) (key : κ) : Kept s (s.leave key) where
  fresh h other proc hlookup := by
    have hne : other ≠ key := by
      rintro rfl
      rw [Server.leave, AList.lookup_erase] at hlookup
      cases hlookup
    rw [Server.leave, AList.lookup_erase_ne hne] at hlookup
    exact h other proc hlookup
  held h proc hproc := by
    obtain ⟨hrunning, hstop⟩ := List.mem_filter.mp hproc
    obtain ⟨other, hmem, hlookup⟩ := h proc hrunning
    have hne : other ≠ key := by
      rintro rfl
      exact of_decide_eq_true hstop hlookup
    refine ⟨other, List.mem_filter.mpr ⟨hmem, decide_eq_true hne⟩, ?_⟩
    rw [Server.leave, AList.lookup_erase_ne hne]
    exact hlookup

theorem kept_unregister (s : Server κ) (name : Json) : Kept s (unregister py w name s).2 := by
  unfold unregister
  cases w.close (py.key name) with
  | some raised => exact .refl s
  | none => exact kept_leave s _

theorem kept_connect (s : Server κ) (name : Json) : Kept s (connect py w name s).2 := by
  unfold connect
  cases w.register with
  | error raised => exact .refl s
  | ok manifest =>
      dsimp only
      split_ifs
      · exact kept_enter s _
      · exact .refl s

theorem kept_toolMiloConnectTcp (s : Server κ) (members : List (String × Json)) :
    Kept s (toolMiloConnectTcp py w members s).2 := by
  unfold toolMiloConnectTcp
  cases py.int ((get members "port").getD (.int 9400)) with
  | error raised => exact .refl s
  | ok port =>
      dsimp only
      split_ifs
      · exact kept_connect s _
      · exact .refl s

theorem kept_toolMiloConnectSerial (s : Server κ) (members : List (String × Json)) :
    Kept s (toolMiloConnectSerial py w members s).2 := by
  unfold toolMiloConnectSerial
  dsimp only
  split_ifs
  · cases py.int ((get members "baud").getD (.int 115200)) with
    | error raised => exact .refl s
    | ok baud => exact kept_connect s _
  · exact .refl s

theorem kept_toolMiloDisconnect (s : Server κ) (members : List (String × Json)) :
    Kept s (toolMiloDisconnect py w members s).2 := by
  unfold toolMiloDisconnect
  dsimp only
  split_ifs
  · exact kept_unregister s _
  · exact .refl s
  · exact .refl s
  · exact .refl s

-- The name that passes the checks is none of the registry.
theorem key_not_mem_of_spawnChecks {members : List (String × Json)} {profile : String} {name : Json}
    (h : spawnChecks py w members s = .ok (profile, name)) : py.key name ∉ s.registry := by
  unfold spawnChecks at h
  dsimp only at h
  cases hprofile : (((get members "profile").getD (.str "drone")).str?.filter (· ∈ PROFILES)) with
  | none =>
      rw [hprofile] at h
      cases h
  | some known =>
      rw [hprofile] at h
      dsimp only at h
      split_ifs at h with hhashable hmem hbuilt
      cases h
      exact hmem

section Spawn

variable {profile : String} {name : Json}

theorem not_held_started (h : s.Fresh) : ¬s.Held s.started := by
  rintro ⟨key, -, hlookup⟩
  exact Nat.lt_irrefl _ (h key _ hlookup)

-- A process under the name of no device hides none that is held.
theorem held_record_iff {key : κ} (hkey : key ∉ s.registry) (new proc : Nat) :
    (s.record key new).Held proc ↔ s.Held proc := by
  refine exists_congr fun other => and_congr_right fun hmem => ?_
  have hne : other ≠ key := by
    rintro rfl
    exact hkey hmem
  rw [Server.record, AList.lookup_insert_ne hne]

theorem held_enter_record (s : Server κ) (key : κ) (new : Nat) :
    ((s.record key new).enter key).Held new := by
  refine ⟨key, ?_, AList.lookup_insert _⟩
  unfold Server.enter
  dsimp only
  split_ifs with hmem
  · exact hmem
  · exact List.mem_append_right _ (List.mem_singleton.mpr rfl)

theorem Server.Fresh.launch (h : s.Fresh) : s.takePort.launch.Fresh := fun key proc hlookup =>
  Nat.lt_succ_of_lt (h key proc hlookup)

theorem Server.Fresh.record (h : s.Fresh) (key : κ) {new : Nat} (hnew : new < s.started) :
    (s.record key new).Fresh := by
  intro other proc hlookup
  by_cases hother : other = key
  · rw [hother, Server.record, AList.lookup_insert] at hlookup
    cases hlookup
    exact hnew
  · rw [Server.record, AList.lookup_insert_ne hother] at hlookup
    exact h other proc hlookup

theorem spawn_fresh (h : s.Fresh) : (spawn py w profile name s).2.Fresh := by
  have hrecord := h.launch.record (py.key name) (Nat.lt_succ_self s.started)
  unfold spawn
  cases w.popen with
  | some raised => exact h
  | none =>
      cases w.waitPort with
      | error raised => exact h.launch
      | ok up =>
          cases up with
          | false => exact h.launch
          | true =>
              cases w.register with
              | error raised => exact hrecord
              | ok manifest => exact hrecord

-- What is left when one more process runs that is not held.
theorem stop_allHeld_iff {ended : Nat → Bool} {new : Nat} (hrunning : s'.running = new :: s.running)
    (hnew : ¬s'.Held new) (hold : ∀ proc ∈ s.running, s'.Held proc) :
    (s'.stop ended).AllHeld ↔ ended new = true := by
  constructor
  · intro h
    by_contra hended
    have hmem : new ∈ (s'.stop ended).running := by
      refine List.mem_filter.mpr ⟨?_, ?_⟩
      · rw [hrunning]
        exact List.mem_cons_self
      · rw [Bool.not_eq_true] at hended
        rw [hended]
        rfl
    exact hnew (h new hmem)
  · intro hended proc hproc
    obtain ⟨hmem, hstop⟩ := List.mem_filter.mp hproc
    rw [hrunning] at hmem
    cases List.mem_cons.mp hmem with
    | inl heq =>
        rw [heq, hended] at hstop
        cases hstop
    | inr hmem => exact hold proc hmem

-- The new process is the only one that may be left without a device.
theorem spawn_allHeld_iff (hfresh : s.Fresh) (hheld : s.AllHeld) (hkey : py.key name ∉ s.registry)
    (hpopen : w.popen = none) (ended : Nat → Bool) :
    ((spawn py w profile name s).2.stop ended).AllHeld ↔ (w.Strands → ended s.started = true) := by
  have hnew : ¬s.takePort.launch.Held s.started := not_held_started hfresh
  have hrecord := held_record_iff (s := s.takePort.launch) hkey s.started
  unfold spawn World.Strands
  rw [hpopen]
  cases w.waitPort with
  | error raised => exact (stop_allHeld_iff rfl hnew hheld).trans true_imp_iff.symm
  | ok up =>
      cases up with
      | false =>
          have hdown : (s.takePort.launch.stop (· = s.started)).AllHeld :=
            (stop_allHeld_iff rfl hnew hheld).mpr (decide_eq_true rfl)
          exact iff_of_true ((kept_stop _ ended).held hdown) fun h => Bool.noConfusion h.1
      | true =>
          cases w.register with
          | error raised =>
              refine Iff.trans ?_ (imp_iff_right ⟨rfl, raised, rfl⟩).symm
              exact stop_allHeld_iff rfl (fun h => hnew ((hrecord _).mp h))
                fun proc hproc => (hrecord proc).mpr (hheld proc hproc)
          | ok manifest =>
              have hup : ((s.takePort.launch.record (py.key name) s.started).enter
                  (py.key name)).AllHeld := by
                intro proc hproc
                cases List.mem_cons.mp hproc with
                | inl heq => exact heq ▸ held_enter_record _ _ _
                | inr hmem => exact held_enter ((hrecord proc).mpr (hheld proc hmem)) _
              exact iff_of_true ((kept_stop _ ended).held hup) fun ⟨_, raised, h⟩ => by cases h

end Spawn

theorem kept_spawn {raised : Raised} (h : w.popen = some raised) (profile : String) (name : Json) :
    Kept s (spawn py w profile name s).2 := by
  unfold spawn
  rw [h]
  exact ⟨id, id⟩

theorem kept_handle {handler : String} {arguments : Json}
    (h : ∀ members profile name, handler = "milo_spawn_sim" → arguments = .object members →
      spawnChecks py w members s = .ok (profile, name) → ∃ raised, w.popen = some raised) :
    Kept s (s.handle py w handler arguments).2 := by
  unfold Server.handle
  cases htool : lifecycle py w handler with
  | none => exact .refl s
  | some tool =>
      cases arguments with
      | object members =>
          unfold lifecycle at htool
          split_ifs at htool with hspawn
          · obtain rfl := Option.some.inj htool
            dsimp only
            unfold toolMiloSpawnSim
            cases hchecks : spawnChecks py w members s with
            | error outcome => exact .refl s
            | ok passed =>
                obtain ⟨raised, hpopen⟩ := h members passed.1 passed.2 hspawn rfl hchecks
                exact kept_spawn hpopen _ _
          · obtain rfl := Option.some.inj htool
            exact kept_toolMiloConnectTcp s members
          · obtain rfl := Option.some.inj htool
            exact kept_toolMiloConnectSerial s members
          · obtain rfl := Option.some.inj htool
            exact kept_toolMiloDisconnect s members
      | null | bool b | int n | float repr | str s' | array elements => exact .refl s

-- A call changes what a tool changes, and one that starts no emulator loses none.
theorem kept_callTool {call : Call κ} (h : ¬call.Starts py s) :
    Kept s (s.callTool py call.world call.name call.arguments).2 := by
  unfold Server.callTool
  dsimp only
  cases hname : call.name.str?.filter (· ∈ HANDLERS) with
  | none => exact .refl s
  | some handler =>
      refine kept_handle fun members profile name hhandler harguments hchecks => ?_
      by_contra hpopen
      refine h ⟨?_, ?_, members, profile, name, harguments, hchecks⟩
      · obtain ⟨hstr, -⟩ := Option.filter_eq_some_iff.mp hname
        rw [hhandler] at hstr
        exact (str?_eq_some_iff _ _).mp hstr
      · exact Option.eq_none_iff_forall_ne_some.mpr fun raised hraised => hpopen ⟨raised, hraised⟩

theorem callTool_of_starts {call : Call κ} (h : call.Starts py s) :
    call.world.popen = none ∧ ∃ profile name, py.key name ∉ s.registry ∧
      (s.callTool py call.world call.name call.arguments).2 =
        (spawn py call.world profile name s).2 := by
  obtain ⟨hname, hpopen, members, profile, name, harguments, hchecks⟩ := h
  refine ⟨hpopen, profile, name, key_not_mem_of_spawnChecks hchecks, ?_⟩
  have hhandle : (s.handle py call.world "milo_spawn_sim" (.object members)).2 =
      (spawn py call.world profile name s).2 := by
    unfold Server.handle lifecycle
    rw [if_pos rfl]
    dsimp only
    unfold toolMiloSpawnSim
    rw [hchecks]
  unfold Server.callTool
  rw [hname, harguments]
  exact hhandle

theorem callTool_fresh (h : s.Fresh) (call : Call κ) :
    (s.callTool py call.world call.name call.arguments).2.Fresh := by
  by_cases hstarts : call.Starts py s
  · obtain ⟨-, profile, name, -, hcall⟩ := callTool_of_starts hstarts
    rw [hcall]
    exact spawn_fresh h
  · exact (kept_callTool hstarts).fresh h

theorem step_fresh (h : s.Fresh) (call : Call κ) : (s.step py call).Fresh := callTool_fresh h call

-- One call leaves every process held just when it keeps the one that it starts.
theorem step_allHeld_iff (hfresh : s.Fresh) (hheld : s.AllHeld) (call : Call κ) :
    (s.step py call).AllHeld ↔ call.Keeps py s := by
  unfold Call.Keeps
  by_cases hstarts : call.Starts py s
  · obtain ⟨hpopen, profile, name, hkey, hcall⟩ := callTool_of_starts hstarts
    unfold Server.step
    rw [hcall, imp_iff_right hstarts]
    exact spawn_allHeld_iff hfresh hheld hkey hpopen _
  · refine iff_of_true ?_ fun h => absurd h hstarts
    exact (kept_stop _ _).held ((kept_callTool hstarts).held hheld)

theorem holds_iff (py : Builtins κ) (s : Server κ) (proc : Nat) : s.Holds py proc ↔ s.Held proc := by
  constructor
  · rintro ⟨key, hmem, hlookup, -⟩
    exact ⟨key, hmem, hlookup⟩
  · rintro ⟨key, hmem, hlookup⟩
    refine ⟨key, hmem, hlookup, fun w members name hname htruthy hhashable hkey hclose hproc => ?_⟩
    unfold toolMiloDisconnect unregister at hproc
    rw [hname, Option.getD_some, if_pos htruthy, if_pos hhashable, hkey, if_pos hmem, hclose] at hproc
    exact of_decide_eq_true (List.mem_filter.mp hproc).2 hlookup

-- The shutdown leaves a process running when a transport does not close.
theorem final_running_iff (hheld : s.AllHeld) (w : World κ) : (s.final w).running = [] ↔
    (∀ key ∈ s.registry, w.close key = none) ∨ ∀ proc ∈ s.running, w.ended proc = true := by
  unfold Server.final Server.shutdown
  cases hclose : s.registry.findSome? w.close with
  | some raised =>
      obtain ⟨key, hmem, hraised⟩ := List.exists_of_findSome?_eq_some hclose
      have hopen : ¬∀ key ∈ s.registry, w.close key = none := fun h => by
        rw [h key hmem] at hraised
        cases hraised
      rw [or_iff_right hopen]
      refine List.filter_eq_nil_iff.trans (forall₂_congr fun proc _ => ?_)
      rw [Bool.not_eq_true, Bool.not_eq_false']
  | none =>
      refine iff_of_true (List.filter_eq_nil_iff.mpr fun proc hproc => ?_)
        (.inl (List.findSome?_eq_none_iff.mp hclose))
      obtain ⟨hrunning, hstop⟩ := List.mem_filter.mp hproc
      obtain ⟨key, -, hlookup⟩ := hheld proc hrunning
      have hmem := List.mem_map_of_mem (f := Sigma.snd) (AList.mem_lookup_iff.mp hlookup)
      exact absurd hmem (of_decide_eq_true hstop)

end Steps

-- In any run of calls every process that still runs is held under the name of a device, and
-- none runs after the shutdown, just when no call strands the emulator that it starts and
-- no transport raises when it is closed for the last time.
theorem processes_held_iff {κ : Type} [DecidableEq κ] (py : Builtins κ) (calls : List (Call κ))
    (w : World κ) :
    ((∀ pre, pre <+: calls →
        ∀ proc ∈ (Server.run py pre).running, (Server.run py pre).Holds py proc) ∧
      ((Server.run py calls).final w).running = []) ↔
    AllMeet (Server.step py) (Call.Keeps py) .init calls ∧
      ((∀ key ∈ (Server.run py calls).registry, w.close key = none) ∨
        ∀ proc ∈ (Server.run py calls).running, w.ended proc = true) := by
  have hfresh : (Server.init : Server κ).Fresh := fun key proc h => by cases h
  have hheld : (Server.init : Server κ).AllHeld := fun proc h => absurd h List.not_mem_nil
  have hprefixes : (∀ pre, pre <+: calls → (Server.run py pre).AllHeld) ↔
      AllMeet (Server.step py) (Call.Keeps py) .init calls :=
    prefixes_good_iff (motive := Server.Fresh) (fun s call h => step_fresh h call)
      (fun s call hfresh hheld => step_allHeld_iff hfresh hheld call) hfresh hheld
  simp only [holds_iff]
  refine (and_congr_left' hprefixes).trans ?_
  refine and_congr_right fun hmeet => ?_
  exact final_running_iff (hprefixes.mpr hmeet calls (List.prefix_refl calls)) w

section Stranded

-- Python where names are strings.
def names : Builtins String where
  format value := value.str?.getD ""
  dumps _ := ""
  indentLevels := 300
  levels := 900
  enough := ⟨by decide, by decide⟩
  key value := value.str?.getD ""
  int
    | .int n => .ok n
    | value => .error ⟨"TypeError", value.typeName⟩
  receiverBin := "receiver/target/debug/milo-receiver"

def world (register : Except Raised Json) : World String where
  built := true
  popen := none
  waitPort := .ok true
  register := register
  close _ := none
  ended _ := false
  others _ _ := .returned (.object [])

def spawnOven (w : World String) : Call String where
  name := .str "milo_spawn_sim"
  arguments := .object [("profile", .str "oven"), ("name", .str "a")]
  world := w

-- The connection closes before the manifest is there.
def closed : World String := world (.error ⟨"ConnectionError", "connection closed"⟩)

-- The emulator is no device that could be disconnected, and its name is free for another one,
-- behind which the shutdown does not find it.
theorem closed_connection_strands :
    (Server.run names [spawnOven closed]).running = [0] ∧
    ¬(Server.run names [spawnOven closed]).Holds names 0 ∧
    (toolMiloDisconnect names closed [("device", .str "a")]
      (Server.run names [spawnOven closed])).1 = .returned (errorResult "device 'a' not found") ∧
    ((Server.run names [spawnOven closed, spawnOven (world (.ok .null))]).final closed).running = [0] := by
  refine ⟨by decide, ?_, rfl, by decide⟩
  rintro ⟨key, hmem, -⟩
  cases hmem

end Stranded

end Milo.Host.Mcp
