import Milo.Runtime.Execute

namespace Milo.Runtime

open Milo.Rust Milo.Engine.Executor

-- The syscalls of a module that gets to its export, each with the memory that the module
-- exports.
def Interpretation.passed : Interpretation → List (Option Bytes × Syscall)
  | .started start exportsMemory (some (turns, _)) =>
      (start ++ turns).map fun turn => (turn.seen exportsMemory, turn.syscall)
  | _ => []

-- The start function logs nothing that lies inside an exported memory and is UTF-8.
def Interpretation.QuietStart : Interpretation → Prop
  | .started start true _ => ∀ turn ∈ start, message (some turn.memory) turn.syscall = none
  | _ => True

theorem message_none (syscall : Syscall) : message none syscall = none := by
  cases syscall <;> rfl

theorem messages_append (calls calls' : List (Option Bytes × Syscall)) :
    messages (calls ++ calls') = messages calls ++ messages calls' := List.flatMap_append

theorem messages_eq_nil (turns : List Turn) (visible : Bool) :
    messages (turns.map fun turn => (turn.seen visible, turn.syscall)) = [] ↔
      ∀ turn ∈ turns, message (turn.seen visible) turn.syscall = none := by
  simp [messages, List.flatMap_eq_nil_iff]

-- Without its memory the start function has nothing to say.
theorem messages_unseen (turns : List Turn) :
    messages (turns.map fun turn => (turn.seen false, turn.syscall)) = [] :=
  (messages_eq_nil turns false).mpr fun turn _ => message_none turn.syscall

theorem quietStart_iff (start : List Turn) (exportsMemory : Bool)
    (func : Option (List Turn × Option String)) :
    (Interpretation.started start exportsMemory func).QuietStart ↔
      messages (start.map fun turn => (turn.seen exportsMemory, turn.syscall)) = [] := by
  cases exportsMemory with
  | false => exact iff_of_true trivial (messages_unseen start)
  | true => exact (messages_eq_nil start true).symm

-- A completed run returns the strings passed to log_msg from inside the exported memory,
-- and nothing of an earlier run, exactly when the start function has passed none.
theorem logs_passed_iff {H : Type} (build : Build) (hardware : MiloHardware H) (s s' : HostState H)
    (exportName : String) (guest : Interpretation) (logs : List String)
    (h : execute build hardware s exportName guest = .ok (.ok logs, s')) :
    logs = messages guest.passed ↔ guest.QuietStart := by
  have hlogs : logs = messages guest.calls :=
    (execute_effect (fun _ _ => True) (fun _ => trivial) (fun _ _ _ _ _ => trivial)
      (fun _ _ _ _ => trivial) h).2 logs rfl
  cases guest with
  | invalid error => cases h
  | startTrapped start message =>
      obtain ⟨s₁, -, h⟩ := bind_eq_ok.mp h
      cases h
  | started start exportsMemory func =>
      cases func with
      | none =>
          obtain ⟨s₁, -, h⟩ := bind_eq_ok.mp h
          cases h
      | some func =>
          obtain ⟨turns, trap⟩ := func
          rw [quietStart_iff, hlogs]
          simp only [Interpretation.calls, Interpretation.passed, List.map_append, messages_append,
            messages_unseen, List.nil_append]
          exact List.self_eq_append_left

-- A start function with a word to say, and the same word said by the export.
def greeting : Turn := { memory := [0x68, 0x69], params := .initial, syscall := .logMsg 0 2 }

def greetingState : HostState UInt64 := { hw := 0, memory := none, logs := ["old"], transfers := [] }

theorem greeting_from_start_lost :
    (execute release64 laptopMock greetingState "run_logic" (.started [greeting] true (some ([], none)))).map
        (·.1) = .ok (.ok []) ∧
      messages (Interpretation.started [greeting] true (some ([], none))).passed = ["hi"] := by
  decide

theorem greeting_from_export_kept :
    (["hi"] = messages (Interpretation.started [] true (some ([greeting], none))).passed) ↔
      (Interpretation.started [] true (some ([greeting], none))).QuietStart :=
  logs_passed_iff release64 laptopMock greetingState
    { hw := 0, memory := some [0x68, 0x69], logs := ["hi"], transfers := [] } "run_logic" _ ["hi"] rfl

end Milo.Runtime
