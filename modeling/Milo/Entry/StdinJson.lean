import Milo.Engine.Validation
import Milo.Lib.Json.Length
import Milo.MainLoop.ResultJson
import Milo.Runtime.Fuel

namespace Milo.Entry

open Milo.Rust Milo.Engine.Link Milo.Engine.Executor Milo.Engine.Validation Milo.MainLoop Milo.Lib
  Milo.Lib.Json

-- What becomes of a module that is pushed.
inductive Pushed where
  | rejected (imports : List String)
  | ran (outcome : Except MiloError (List String))

-- The stdin loop up to its result. The runtime is new for every module.
def pushed (width : Nat) (run : Bytes → Except MiloError (List String)) (payload : Bytes) :
    Except Fault Pushed := do
  let v ← validateWasmImports width payload
  if v.valid then return .ran (run payload) else return .rejected v.rejectedImports

-- The result as the stdin loop writes it, with serde_json::to_string for the logs.
def Pushed.json (serdeJson : List String → Option String) : Pushed → String
  | .rejected imports => rejectedImportsJson imports
  | .ran (.ok logs) => "\x7b\"ok\":true,\"logs\":" ++ (serdeJson logs).getD "[]" ++ "\x7d"
  | .ran (.error e) => errorJson e.display

def stdinPush (serdeJson : List String → Option String) (width : Nat)
    (run : Bytes → Except MiloError (List String)) (payload : Bytes) : Except Fault Frame := do
  return execResultFrame ((← pushed width run payload).json serdeJson)

-- The result that the shared loop has of it.
def Pushed.result : Pushed → ExecResult
  | .rejected imports => .failed ("rejected imports: " ++ String.intercalate ", " imports)
  | .ran outcome => .ofRun outcome

-- Two texts of objects with the same members.
def SameObject (text text' : String) : Prop :=
  ∃ ms ms', loads text = some (.object ms) ∧ loads text' = some (.object ms') ∧
    ∀ key, (Value.object ms).get key = (Value.object ms').get key

theorem SameObject.of_loads {text text' : String} {ms : List (String × Value)}
    (h : loads text = some (.object ms)) (h' : loads text' = some (.object ms)) :
    SameObject text text' :=
  ⟨ms, ms, h, h', fun _ => rfl⟩

theorem length_errorJson (error : String) :
    (errorJson error).toList.length = error.toList.length + 23 := by
  unfold errorJson
  rw [String.toList_append, String.toList_append]
  simp only [String.reduceToList, List.length_append, List.length_cons, List.length_nil]
  omega

theorem memberSize_error (error : String) :
    memberSize ("ok", .bool false) + memberSize ("error", .str error) = error.toList.length + 22 := by
  unfold memberSize Value.size
  simp only [String.reduceToList, List.length_cons, List.length_nil]
  omega

-- A text between quotes is a string of that text only if no character of it is escaped.
theorem sameObject_errorJson_iff (error : String) :
    SameObject (errorJson error) (execResultToJson (.failed error)) ↔
      ∀ c ∈ error.toList, Plain c := by
  have hshared : loads (execResultToJson (.failed error)) =
      some (.object [("ok", .bool false), ("error", .str error)]) :=
    loads_writes (writes_execResultToJson (.failed error))
  constructor
  · rintro ⟨ms, ms', hloads, hloads', hget⟩
    rw [hshared] at hloads'
    cases hloads'
    have hok : (Value.object ms).get "ok" = some (.bool false) := hget "ok"
    have herror : (Value.object ms).get "error" = some (.str error) := hget "error"
    have hok := mem_of_get hok
    have herror := mem_of_get herror
    have hsum := memberSize_add_le hok herror (show "ok" ≠ "error" by decide)
    obtain ⟨m, ms, rfl⟩ := List.exists_cons_of_ne_nil (List.ne_nil_of_mem hok)
    obtain ⟨hle, hbare⟩ := loads_object_length hloads
    rw [length_errorJson] at hle hbare
    rw [memberSize_error] at hsum
    exact hbare (by omega) _ herror
  · intro hplain
    exact .of_loads (loads_writes (writes_errorJson (spells_plain hplain))) hshared

theorem loads_rejected (imports : List String) :
    loads (rejectedImportsJson imports) = some (.object [("ok", .bool false),
      ("error", .str ("rejected imports: " ++ String.intercalate ", " imports))]) := by
  refine loads_writes (writes_errorJson ?_)
  rw [String.toList_append, String.toList_append]
  have hprefix : Unescaped "rejected imports: ".toList := by decide +kernel
  exact (spells_jsonEscape _).plain_append hprefix

-- The payloads agree but where the text of an error has a character that is escaped.
theorem Pushed.json_sameObject_iff {serdeJson : List String → Option String}
    (hserde : ∀ logs, ∃ text, serdeJson logs = some text ∧
      Writes text.toList (.array (logs.map .str))) (p : Pushed) :
    SameObject (p.json serdeJson) (execResultToJson p.result) ↔
      ∀ e, p = .ran (.error e) → ∀ c ∈ e.display.toList, Plain c := by
  have hshared := loads_writes (writes_execResultToJson p.result)
  cases p with
  | rejected imports =>
      refine iff_of_true ?_ fun e h => by cases h
      exact .of_loads (loads_rejected imports) hshared
  | ran outcome =>
      cases outcome with
      | ok logs =>
          refine iff_of_true ?_ fun e h => by cases h
          obtain ⟨text, htext, hwrites⟩ := hserde logs
          refine .of_loads ?_ hshared
          change loads ("\x7b\"ok\":true,\"logs\":" ++ (serdeJson logs).getD "[]" ++ "\x7d") = _
          rw [htext]
          exact loads_writes (writes_okJson hwrites)
      | error e =>
          refine (sameObject_errorJson_iff e.display).trans ⟨fun h e' heq => ?_, fun h => h e rfl⟩
          cases heq
          exact h

-- The stdin loop writes the object of the shared loop, but for an error whose text has a
-- quote, a backslash or a control character.
theorem stdinPush_sameObject_iff (serdeJson : List String → Option String)
    (hserde : ∀ logs, ∃ text, serdeJson logs = some text ∧
      Writes text.toList (.array (logs.map .str)))
    (width : Nat) (run : Bytes → Except MiloError (List String)) (payload : Bytes) (p : Pushed)
    (h : pushed width run payload = .ok p) :
    (∃ text, stdinPush serdeJson width run payload =
        .ok { opcode := OP_EXEC_RESULT, payload := intoBytes text } ∧
      SameObject text (execResultToJson p.result)) ↔
        ∀ e, p = .ran (.error e) → ∀ c ∈ e.display.toList, Plain c := by
  rw [← p.json_sameObject_iff hserde]
  have hframe : stdinPush serdeJson width run payload =
      .ok { opcode := OP_EXEC_RESULT, payload := intoBytes (p.json serdeJson) } := by
    unfold stdinPush
    rw [h]
    rfl
  rw [hframe]
  constructor
  · rintro ⟨text, heq, hsame⟩
    have hbytes := congrArg Frame.payload (Except.ok.inj heq)
    have htext := congrArg fromUtf8 hbytes
    rw [fromUtf8_intoBytes, fromUtf8_intoBytes] at htext
    rwa [Option.some.inj htext]
  · intro hsame
    exact ⟨_, rfl, hsame⟩

section Serde

-- serde_json has short escapes for two more characters.
def serdeEscape (c : Char) : String :=
  if c = '\x08' then "\\b" else if c = '\x0c' then "\\f" else escapeChar c

def serdeString (s : String) : String := quoted (String.join (s.toList.map serdeEscape))

def serdeToString (logs : List String) : Option String :=
  some ("[" ++ String.intercalate "," (logs.map serdeString) ++ "]")

theorem gives_serdeEscape (c : Char) : Gives (serdeEscape c).toList c := by
  unfold serdeEscape
  split_ifs with hb hf
  · subst hb
    exact fun rest => rfl
  · subst hf
    exact fun rest => rfl
  · exact gives_escapeChar c

theorem writes_serdeString (s : String) : Writes (serdeString s).toList (.str s) := by
  have hwrites := writes_str (spells_flatMap gives_serdeEscape s.toList)
  rw [String.ofList_toList] at hwrites
  unfold serdeString quoted
  rw [String.toList_append, String.toList_append, String.toList_join, List.flatMap_map]
  exact hwrites

theorem writes_serdeToString (logs : List String) : ∃ text, serdeToString logs = some text ∧
    Writes text.toList (.array (logs.map .str)) :=
  ⟨_, rfl, writes_strings writes_serdeString logs⟩

end Serde

theorem stdinPush_logs :
    ∃ text, stdinPush serdeToString 64 (fun _ => .ok ["a \"b\""]) emptyModule =
        .ok { opcode := OP_EXEC_RESULT, payload := intoBytes text } ∧
      SameObject text (execResultToJson (Pushed.ran (.ok ["a \"b\""])).result) :=
  (stdinPush_sameObject_iff serdeToString writes_serdeToString 64 (fun _ => .ok ["a \"b\""])
    emptyModule (.ran (.ok ["a \"b\""])) rfl).mpr fun e h => by cases h

-- A module that imports log_msg from a module with a quote in its name, and what the
-- linker says of it.
def quotedModule : Bytes :=
  emptyModule ++ [0x01, 0x06, 0x01, 0x60, 0x02, 0x7F, 0x7F, 0x00] ++
    [0x02, 0x0F, 0x01, 0x03, 0x61, 0x22, 0x62, 0x07, 0x6C, 0x6F, 0x67, 0x5F, 0x6D, 0x73, 0x67,
      0x00, 0x00]

def quotedImport : MiloError := .trapped (Runtime.foreignImport "a\"b").display

theorem quoted_import_breaks :
    pushed 64 (fun _ => .error quotedImport) quotedModule = .ok (.ran (.error quotedImport)) ∧
      ¬SameObject ((Pushed.ran (.error quotedImport)).json serdeToString)
        (execResultToJson (Pushed.ran (.error quotedImport)).result) := by
  refine ⟨rfl, fun hsame => ?_⟩
  have hplain := (Pushed.json_sameObject_iff writes_serdeToString _).mp hsame quotedImport rfl
  have hquote : '"' ∈ quotedImport.display.toList := by
    unfold quotedImport MiloError.display Runtime.foreignImport Runtime.Wasmi.Error.display
      Runtime.Wasmi.LinkerError.display Runtime.Wasmi.ImportName.display
    simp only [toString, String.toList_append, List.mem_append]
    exact .inr (.inl (.inl (.inr (.inl (.inl (by decide))))))
  exact absurd (hplain _ hquote) (by decide)

end Milo.Entry
