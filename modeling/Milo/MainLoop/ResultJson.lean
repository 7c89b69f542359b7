import Milo.MainLoop
import Milo.Lib.Json.Writes

namespace Milo.MainLoop

open Milo.Rust Milo.Engine.Executor Milo.Lib Milo.Lib.Json

-- What MiloDevice has of a result: the values that _parse_result takes from the object.
structure Parsed where
  ok : Value
  logs : Value
  error : Value

def parseResult (payload : Bytes) : Option Parsed := do
  match ← loads (← fromUtf8 payload) with
  | .object members =>
      let data := Value.object members
      return { ok := (data.get "ok").getD (.bool false)
               logs := (data.get "logs").getD (.array [])
               error := (data.get "error").getD .null }
  | _ => none

section Escape

theorem hex_control : ∀ n < 0x20, hex4 (List.leftpad 4 '0' (Nat.toDigits 16 n)) = some (n, []) := by
  decide

theorem gives_escapeChar (c : Char) : Gives (escapeChar c).toList c := by
  unfold escapeChar
  split
  · exact fun rest => rfl
  · exact fun rest => rfl
  · exact fun rest => rfl
  · exact fun rest => rfl
  · exact fun rest => rfl
  · rename_i hquote hbackslash _ _ _
    split_ifs with hcontrol
    · have hlow : c.toNat < 0xD800 := by omega
      have hgives := gives_hex4 (hex_control c.toNat hcontrol) hlow
      have hdigits : (hex 4 c.toNat).toList = List.leftpad 4 '0' (Nat.toDigits 16 c.toNat) :=
        String.toList_ofList
      rw [String.toList_append, hdigits]
      exact hgives
    · change Gives (String.singleton c).toList c
      rw [String.toList_singleton]
      exact gives_plain ⟨hquote, hbackslash, by omega⟩

theorem spells_jsonEscape (s : String) : Spells (jsonEscape s).toList s.toList := by
  unfold jsonEscape
  rw [String.toList_join, List.flatMap_map]
  exact spells_flatMap gives_escapeChar s.toList

def quoted (text : String) : String := "\"" ++ text ++ "\""

theorem writes_quoted (s : String) : Writes (quoted (jsonEscape s)).toList (.str s) := by
  have hwrites := writes_str (spells_jsonEscape s)
  rw [String.ofList_toList] at hwrites
  unfold quoted
  rw [String.toList_append, String.toList_append]
  exact hwrites

end Escape

section Results

-- The object that a result is written as.
def resultValue (result : ExecResult) : Value :=
  if result.ok then .object [("ok", .bool true), ("logs", .array (result.logs.map .str))]
  else .object [("ok", .bool false), ("error", .str (result.error.getD "unknown"))]

theorem writes_errorJson {text s : String} (h : Spells text.toList s.toList) :
    Writes (errorJson text).toList (.object [("ok", .bool false), ("error", .str s)]) := by
  have herror := writes_str h
  rw [String.ofList_toList] at herror
  have hobject := writes_object (.cons (writes_member "ok" (by decide) writes_false)
    (.cons (writes_member "error" (by decide) herror) .nil))
  simp only [named, commaed_cons, commaed_singleton, String.reduceToList, List.cons_append,
    List.nil_append, List.append_assoc] at hobject
  unfold errorJson
  rw [String.toList_append, String.toList_append]
  simp only [String.reduceToList, List.cons_append, List.nil_append]
  exact hobject

theorem writes_okJson {text : String} {logs : List String}
    (h : Writes text.toList (.array (logs.map .str))) :
    Writes ("\x7b\"ok\":true,\"logs\":" ++ text ++ "\x7d").toList
      (.object [("ok", .bool true), ("logs", .array (logs.map .str))]) := by
  have hobject := writes_object (.cons (writes_member "ok" (by decide) writes_true)
    (.cons (writes_member "logs" (by decide) h) .nil))
  simp only [named, commaed_cons, commaed_singleton, String.reduceToList, List.cons_append,
    List.nil_append] at hobject
  rw [String.toList_append, String.toList_append]
  simp only [String.reduceToList, List.cons_append, List.nil_append]
  exact hobject

-- A list of strings whose escapes are written by the function.
theorem writes_strings {write : String → String} (h : ∀ s, Writes (write s).toList (.str s))
    (logs : List String) :
    Writes ("[" ++ String.intercalate "," (logs.map write) ++ "]").toList
      (.array (logs.map .str)) := by
  rw [String.toList_append, String.toList_append]
  exact writes_map logs fun log _ => h log

theorem writes_execResultToJson (result : ExecResult) :
    Writes (execResultToJson result).toList (resultValue result) := by
  unfold execResultToJson resultValue
  split_ifs
  · have hok := writes_okJson (writes_strings writes_quoted result.logs)
    simp only [String.toList_append, String.reduceToList, List.cons_append, List.nil_append,
      List.append_assoc] at hok ⊢
    exact hok
  · exact writes_errorJson (spells_jsonEscape _)

-- The fields of the host's result.
def Parsed.ofResult (result : ExecResult) : Parsed :=
  if result.ok then { ok := .bool true, logs := .array (result.logs.map .str), error := .null }
  else { ok := .bool false, logs := .array [], error := .str (result.error.getD "unknown") }

theorem parseResult_intoBytes {text : String} {result : ExecResult}
    (h : loads text = some (resultValue result)) :
    parseResult (intoBytes text) = some (.ofResult result) := by
  unfold parseResult
  rw [fromUtf8_intoBytes]
  change (loads text >>= _) = _
  rw [h]
  unfold resultValue Parsed.ofResult
  cases result.ok with
  | true => rfl
  | false => rfl

end Results

-- Every result is written as one object, which the host decodes to the same logs or the
-- same error, and every escaped string as a literal of that string.
theorem execResultToJson_decodes :
    (∀ result : ExecResult, loads (execResultToJson result) = some (resultValue result) ∧
      parseResult (intoBytes (execResultToJson result)) = some (.ofResult result)) ∧
    ∀ s : String, loads (quoted (jsonEscape s)) = some (.str s) := by
  refine ⟨fun result => ?_, fun s => loads_writes (writes_quoted s)⟩
  have hloads := loads_writes (writes_execResultToJson result)
  exact ⟨hloads, parseResult_intoBytes hloads⟩

end Milo.MainLoop
