import Milo.Runtime
import Mathlib.Data.List.Infix

namespace Milo.Runtime

open Milo.Rust Milo.Engine.Executor

-- A syscall of a running module, with the linear memory and the parameters it meets.
structure Turn where
  memory : Bytes
  params : ParamSlots
  syscall : Syscall

-- What the interpreter makes of a module's bytes. A start function may make syscalls,
-- before the memory is looked up; the export is none when the module has none of that
-- name and type, and else it makes its syscalls and returns or traps with a message.
inductive Interpretation where
  | invalid (error : String)
  | startTrapped (start : List Turn) (message : String)
  | started (start : List Turn) (exportsMemory : Bool) (func : Option (List Turn × Option String))

def trapError (message : String) : MiloError :=
  if "fuel".toList <:+: message.toList then .fuelExhausted else .trapped message

-- The memory as data().memory holds it during a turn.
def Turn.seen (visible : Bool) (turn : Turn) : Option Bytes :=
  if visible then some turn.memory else none

section Execute

variable {H : Type} (build : Build) (hardware : MiloHardware H)

def takeTurn (visible : Bool) (s : HostState H) (turn : Turn) : Except Fault (HostState H) := do
  let (_, s) ← perform build hardware turn.params { s with memory := turn.seen visible } turn.syscall
  return s

def takeTurns (visible : Bool) (s : HostState H) (turns : List Turn) : Except Fault (HostState H) :=
  turns.foldlM (takeTurn build hardware visible) s

def execute (s : HostState H) (exportName : String) :
    Interpretation → Except Fault (Except MiloError (List String) × HostState H)
  | .invalid error => .ok (.error (.moduleInvalid error), { s with logs := [], memory := none })
  | .startTrapped start message => do
      let s ← takeTurns build hardware false { s with logs := [], memory := none } start
      return (.error (trapError message), s)
  | .started start exportsMemory func => do
      let s ← takeTurns build hardware false { s with logs := [], memory := none } start
      match func with
      | none => return (.error (.missingExport exportName), s)
      | some (turns, trap) =>
          let s ← takeTurns build hardware exportsMemory s turns
          match trap with
          | some message => return (.error (trapError message), s)
          | none => return (.ok s.logs, s)

end Execute

-- What a log_msg call has to say.
def message (memory : Option Bytes) : Syscall → Option String
  | .logMsg ptr len =>
      match memory with
      | none => none
      | some data =>
          if ptr.toNat + len.toNat ≤ data.length then
            fromUtf8 ((data.take (ptr.toNat + len.toNat)).drop ptr.toNat)
          else none
  | _ => none

-- What a syscall may do to the backend.
inductive Called {H : Type} (hardware : MiloHardware H) (hw : H) : Syscall → H → Prop
  | kept (syscall : Syscall) : Called hardware hw syscall hw
  | gpioSet (pin state : UInt32) :
      Called hardware hw (.gpioSet pin state) (hardware.gpioSet hw pin state)
  | gpioGet (pin : UInt32) : Called hardware hw (.gpioGet pin) (hardware.gpioGet hw pin).2
  | delayMs (ms : UInt32) : Called hardware hw (.delayMs ms) (hardware.delayMs hw ms)
  | i2cTransfer (addr txPtr txLen rxPtr rxLen : UInt32) (tx : Bytes) {n : Nat} (rx : Vector UInt8 n) :
      Called hardware hw (.i2cTransfer addr txPtr txLen rxPtr rxLen)
        (hardware.i2cTransfer hw addr.toUInt8 tx rx).2.2
  | logMsg (ptr len : UInt32) (msg : String) :
      Called hardware hw (.logMsg ptr len) (hardware.log hw msg)
  | pwmSet (channel duty : UInt32) :
      Called hardware hw (.pwmSet channel duty) (hardware.pwmSet hw channel duty)
  | adcRead (channel : UInt32) : Called hardware hw (.adcRead channel) (hardware.adcRead hw channel).2
  | spiTransfer (bus txPtr txLen rxPtr rxLen : UInt32) (tx : Bytes) {n : Nat} (rx : Vector UInt8 n) :
      Called hardware hw (.spiTransfer bus txPtr txLen rxPtr rxLen)
        (hardware.spiTransfer hw bus tx rx).2.2
  | uartWrite (bus ptr len : UInt32) (data : Bytes) :
      Called hardware hw (.uartWrite bus ptr len) (hardware.uartWrite hw bus data).2
  | uartRead (bus ptr lenMax timeoutMs : UInt32) {n : Nat} (buf : Vector UInt8 n) :
      Called hardware hw (.uartRead bus ptr lenMax timeoutMs)
        (hardware.uartRead hw bus buf timeoutMs).2.2

section Effects

variable {H : Type} {build : Build} {hardware : MiloHardware H} {s s' : HostState H}

theorem logMsg_effect {ptr len : UInt32} (h : logMsg build hardware s ptr len = .ok s') :
    Called hardware s.hw (.logMsg ptr len) s'.hw ∧
      s'.logs = s.logs ++ (message s.memory (.logMsg ptr len)).toList := by
  unfold logMsg at h
  cases hdata : s.memory with
  | none =>
      rw [hdata] at h
      obtain rfl := Except.ok.inj h
      exact ⟨.kept _, (List.append_nil _).symm⟩
  | some data =>
      rw [hdata] at h
      obtain ⟨stop, hstop, h⟩ := bind_eq_ok.mp h
      split_ifs at h with hlong
      · obtain rfl := Except.ok.inj h
        have hsum := build.checkedAdd_le hstop
        have hout : ¬ptr.toNat + len.toNat ≤ data.length := by omega
        simp only [message, if_neg hout]
        exact ⟨.kept _, (List.append_nil _).symm⟩
      · obtain ⟨bytes, hslice, h⟩ := bind_eq_ok.mp h
        unfold slice at hslice
        split_ifs at hslice with hrange
        obtain ⟨rfl, -⟩ :=
          build.checkedAdd_eq_ok (build.toNat_lt ptr) (build.toNat_lt len) hstop hrange.1
        obtain rfl := Except.ok.inj hslice
        simp only [message, if_pos hrange.2]
        cases hutf : fromUtf8 ((data.take (ptr.toNat + len.toNat)).drop ptr.toNat) with
        | none =>
            rw [hutf] at h
            obtain rfl := Except.ok.inj h
            exact ⟨.kept _, (List.append_nil _).symm⟩
        | some msg =>
            rw [hutf] at h
            obtain rfl := Except.ok.inj h
            exact ⟨.logMsg _ _ _, rfl⟩

theorem busTransfer_effect
    {transact : H → Bytes → {n : Nat} → Vector UInt8 n → Int32 × Vector UInt8 n × H}
    {transfer : Bytes → Transfer} {txPtr txLen rxPtr rxLen : UInt32} {result : Int32}
    (h : busTransfer build s transact transfer txPtr txLen rxPtr rxLen = .ok (result, s')) :
    (s'.hw = s.hw ∨ ∃ tx, ∃ rx : Vector UInt8 rxLen.toNat, s'.hw = (transact s.hw tx rx).2.2) ∧
      s'.logs = s.logs := by
  unfold busTransfer at h
  split at h
  · obtain ⟨-, rfl⟩ := Prod.mk.inj (Except.ok.inj h)
    exact ⟨.inl rfl, rfl⟩
  · obtain ⟨txEnd, -, h⟩ := bind_eq_ok.mp h
    obtain ⟨tx, -, h⟩ := bind_eq_ok.mp h
    obtain ⟨rx, -, h⟩ := bind_eq_ok.mp h
    dsimp only at h
    split_ifs at h with hback
    · obtain ⟨rxEnd, -, h⟩ := bind_eq_ok.mp h
      obtain ⟨data, -, h⟩ := bind_eq_ok.mp h
      obtain ⟨-, rfl⟩ := Prod.mk.inj (Except.ok.inj h)
      exact ⟨.inr ⟨tx, rx, rfl⟩, rfl⟩
    · obtain ⟨-, rfl⟩ := Prod.mk.inj (Except.ok.inj h)
      exact ⟨.inr ⟨tx, rx, rfl⟩, rfl⟩

theorem i2cTransfer_effect {addr txPtr txLen rxPtr rxLen : UInt32} {result : Int32}
    (h : i2cTransfer build hardware s addr txPtr txLen rxPtr rxLen = .ok (result, s')) :
    Called hardware s.hw (.i2cTransfer addr txPtr txLen rxPtr rxLen) s'.hw ∧ s'.logs = s.logs := by
  obtain ⟨hhw, hlogs⟩ := busTransfer_effect h
  rcases hhw with hkept | ⟨tx, rx, hcall⟩
  · exact ⟨hkept ▸ .kept _, hlogs⟩
  · exact ⟨hcall ▸ .i2cTransfer _ _ _ _ _ tx rx, hlogs⟩

theorem spiTransfer_effect {bus txPtr txLen rxPtr rxLen : UInt32} {result : Int32}
    (h : spiTransfer build hardware s bus txPtr txLen rxPtr rxLen = .ok (result, s')) :
    Called hardware s.hw (.spiTransfer bus txPtr txLen rxPtr rxLen) s'.hw ∧ s'.logs = s.logs := by
  obtain ⟨hhw, hlogs⟩ := busTransfer_effect h
  rcases hhw with hkept | ⟨tx, rx, hcall⟩
  · exact ⟨hkept ▸ .kept _, hlogs⟩
  · exact ⟨hcall ▸ .spiTransfer _ _ _ _ _ tx rx, hlogs⟩

theorem uartWrite_effect {bus ptr len : UInt32} {result : Int32}
    (h : uartWrite build hardware s bus ptr len = .ok (result, s')) :
    Called hardware s.hw (.uartWrite bus ptr len) s'.hw ∧ s'.logs = s.logs := by
  unfold uartWrite at h
  split at h
  · obtain ⟨-, rfl⟩ := Prod.mk.inj (Except.ok.inj h)
    exact ⟨.kept _, rfl⟩
  · obtain ⟨stop, -, h⟩ := bind_eq_ok.mp h
    split_ifs at h with hlong
    · obtain ⟨-, rfl⟩ := Prod.mk.inj (Except.ok.inj h)
      exact ⟨.kept _, rfl⟩
    · obtain ⟨data, -, h⟩ := bind_eq_ok.mp h
      obtain ⟨-, rfl⟩ := Prod.mk.inj (Except.ok.inj h)
      exact ⟨.uartWrite _ _ _ data, rfl⟩

theorem uartRead_effect {bus ptr lenMax timeoutMs : UInt32} {result : Int32}
    (h : uartRead build hardware s bus ptr lenMax timeoutMs = .ok (result, s')) :
    Called hardware s.hw (.uartRead bus ptr lenMax timeoutMs) s'.hw ∧ s'.logs = s.logs := by
  unfold uartRead at h
  split at h
  · obtain ⟨-, rfl⟩ := Prod.mk.inj (Except.ok.inj h)
    exact ⟨.kept _, rfl⟩
  · obtain ⟨buf, -, h⟩ := bind_eq_ok.mp h
    dsimp only at h
    split_ifs at h with hread
    · obtain ⟨stop, -, h⟩ := bind_eq_ok.mp h
      split_ifs at h with hfits
      · obtain ⟨data, -, h⟩ := bind_eq_ok.mp h
        obtain ⟨-, rfl⟩ := Prod.mk.inj (Except.ok.inj h)
        exact ⟨.uartRead _ _ _ _ buf, rfl⟩
      · obtain ⟨-, rfl⟩ := Prod.mk.inj (Except.ok.inj h)
        exact ⟨.uartRead _ _ _ _ buf, rfl⟩
    · obtain ⟨-, rfl⟩ := Prod.mk.inj (Except.ok.inj h)
      exact ⟨.uartRead _ _ _ _ buf, rfl⟩

-- Only log_msg writes to the logs, and no syscall calls the backend for another.
theorem perform_effect {params : ParamSlots} {syscall : Syscall} {value : Value}
    (h : perform build hardware params s syscall = .ok (value, s')) :
    Called hardware s.hw syscall s'.hw ∧ s'.logs = s.logs ++ (message s.memory syscall).toList := by
  have quiet : ∀ {s' : HostState H}, Called hardware s.hw syscall s'.hw ∧ s'.logs = s.logs →
      message s.memory syscall = none →
      Called hardware s.hw syscall s'.hw ∧
        s'.logs = s.logs ++ (message s.memory syscall).toList := by
    intro s' hcalled hnone
    exact ⟨hcalled.1, by rw [hnone, hcalled.2]; exact (List.append_nil _).symm⟩
  cases syscall with
  | gpioSet pin state =>
      obtain ⟨-, rfl⟩ := Prod.mk.inj (Except.ok.inj h)
      exact quiet ⟨.gpioSet pin state, rfl⟩ rfl
  | gpioGet pin =>
      obtain ⟨-, rfl⟩ := Prod.mk.inj (Except.ok.inj h)
      exact quiet ⟨.gpioGet pin, rfl⟩ rfl
  | delayMs ms =>
      obtain ⟨-, rfl⟩ := Prod.mk.inj (Except.ok.inj h)
      exact quiet ⟨.delayMs ms, rfl⟩ rfl
  | getUptimeUs =>
      obtain ⟨-, rfl⟩ := Prod.mk.inj (Except.ok.inj h)
      exact quiet ⟨.kept _, rfl⟩ rfl
  | i2cTransfer addr txPtr txLen rxPtr rxLen =>
      obtain ⟨⟨result, s''⟩, hcall, heq⟩ := map_eq_ok.mp h
      obtain ⟨-, rfl⟩ := Prod.mk.inj heq
      exact quiet (i2cTransfer_effect hcall) rfl
  | logMsg ptr len =>
      obtain ⟨s'', hcall, heq⟩ := map_eq_ok.mp h
      obtain ⟨-, rfl⟩ := Prod.mk.inj heq
      exact logMsg_effect hcall
  | pwmSet channel duty =>
      obtain ⟨-, rfl⟩ := Prod.mk.inj (Except.ok.inj h)
      exact quiet ⟨.pwmSet channel duty, rfl⟩ rfl
  | adcRead channel =>
      obtain ⟨-, rfl⟩ := Prod.mk.inj (Except.ok.inj h)
      exact quiet ⟨.adcRead channel, rfl⟩ rfl
  | spiTransfer bus txPtr txLen rxPtr rxLen =>
      obtain ⟨⟨result, s''⟩, hcall, heq⟩ := map_eq_ok.mp h
      obtain ⟨-, rfl⟩ := Prod.mk.inj heq
      exact quiet (spiTransfer_effect hcall) rfl
  | uartWrite bus ptr len =>
      obtain ⟨⟨result, s''⟩, hcall, heq⟩ := map_eq_ok.mp h
      obtain ⟨-, rfl⟩ := Prod.mk.inj heq
      exact quiet (uartWrite_effect hcall) rfl
  | uartRead bus ptr lenMax timeoutMs =>
      obtain ⟨⟨result, s''⟩, hcall, heq⟩ := map_eq_ok.mp h
      obtain ⟨-, rfl⟩ := Prod.mk.inj heq
      exact quiet (uartRead_effect hcall) rfl
  | getParam slot =>
      obtain ⟨-, rfl⟩ := Prod.mk.inj (Except.ok.inj h)
      exact quiet ⟨.kept _, rfl⟩ rfl

end Effects

namespace Interpretation

-- The syscalls of a module, each with what it sees of the memory.
def calls : Interpretation → List (Option Bytes × Syscall)
  | .invalid _ => []
  | .startTrapped start _ => start.map fun turn => (turn.seen false, turn.syscall)
  | .started start exportsMemory func =>
      start.map (fun turn => (turn.seen false, turn.syscall)) ++
        match func with
        | none => []
        | some (turns, _) => turns.map fun turn => (turn.seen exportsMemory, turn.syscall)

end Interpretation

def messages (calls : List (Option Bytes × Syscall)) : List String :=
  calls.flatMap fun call => (message call.1 call.2).toList

section Runs

variable {H : Type} {build : Build} {hardware : MiloHardware H} (Kept : H → H → Prop)

-- What every call of the backend keeps is kept, and the messages come in their order.
theorem takeTurns_effect (hrefl : ∀ hw, Kept hw hw)
    (htrans : ∀ a b c, Kept a b → Kept b c → Kept a c)
    (hcalled : ∀ a syscall b, Called hardware a syscall b → Kept a b) {visible : Bool}
    (turns : List Turn) {s s' : HostState H}
    (h : takeTurns build hardware visible s turns = .ok s') :
    Kept s.hw s'.hw ∧
      s'.logs = s.logs ++ messages (turns.map fun turn => (turn.seen visible, turn.syscall)) := by
  induction turns generalizing s with
  | nil =>
      obtain rfl := Except.ok.inj h
      exact ⟨hrefl _, (List.append_nil _).symm⟩
  | cons turn turns ih =>
      rw [takeTurns, List.foldlM_cons] at h
      obtain ⟨next, hnext, h⟩ := bind_eq_ok.mp h
      obtain ⟨⟨value, s''⟩, hperform, heq⟩ := bind_eq_ok.mp hnext
      obtain rfl := Except.ok.inj heq
      obtain ⟨hcall, hlogs⟩ := perform_effect hperform
      obtain ⟨hkept, hrest⟩ := ih h
      refine ⟨htrans _ _ _ (hcalled _ _ _ hcall) hkept, ?_⟩
      rw [hrest, hlogs, List.append_assoc]
      rfl

-- A run that completes returns the messages of its module, and nothing else.
theorem execute_effect (hrefl : ∀ hw, Kept hw hw)
    (htrans : ∀ a b c, Kept a b → Kept b c → Kept a c)
    (hcalled : ∀ a syscall b, Called hardware a syscall b → Kept a b) {s s' : HostState H}
    {exportName : String} {guest : Interpretation} {outcome : Except MiloError (List String)}
    (h : execute build hardware s exportName guest = .ok (outcome, s')) :
    Kept s.hw s'.hw ∧ ∀ logs, outcome = .ok logs → logs = messages guest.calls := by
  cases guest with
  | invalid error =>
      obtain ⟨rfl, rfl⟩ := Prod.mk.inj (Except.ok.inj h)
      exact ⟨hrefl _, fun logs hlogs => by cases hlogs⟩
  | startTrapped start message =>
      obtain ⟨s₁, hstart, h⟩ := bind_eq_ok.mp h
      obtain ⟨rfl, rfl⟩ := Prod.mk.inj (Except.ok.inj h)
      exact ⟨(takeTurns_effect Kept hrefl htrans hcalled start hstart).1, fun logs hlogs => by cases hlogs⟩
  | started start exportsMemory func =>
      obtain ⟨s₁, hstart, h⟩ := bind_eq_ok.mp h
      obtain ⟨hkept, hfirst⟩ := takeTurns_effect Kept hrefl htrans hcalled start hstart
      cases func with
      | none =>
          obtain ⟨rfl, rfl⟩ := Prod.mk.inj (Except.ok.inj h)
          exact ⟨hkept, fun logs hlogs => by cases hlogs⟩
      | some func =>
          obtain ⟨turns, trap⟩ := func
          obtain ⟨s₂, hturns, h⟩ := bind_eq_ok.mp h
          obtain ⟨hkept', hthen⟩ := takeTurns_effect Kept hrefl htrans hcalled turns hturns
          cases trap with
          | some message =>
              obtain ⟨rfl, rfl⟩ := Prod.mk.inj (Except.ok.inj h)
              exact ⟨htrans _ _ _ hkept hkept', fun logs hlogs => by cases hlogs⟩
          | none =>
              obtain ⟨rfl, rfl⟩ := Prod.mk.inj (Except.ok.inj h)
              refine ⟨htrans _ _ _ hkept hkept', fun logs hlogs => ?_⟩
              rw [← Except.ok.inj hlogs, hthen, hfirst]
              simp [Interpretation.calls, messages]

end Runs

end Milo.Runtime
