import Milo.Lib.Occurs
import Milo.Runtime.Execute
import Milo.Runtime.WasmiError

namespace Milo.Runtime

open Milo.Lib Milo.Rust Milo.Engine.Executor Wasmi

-- The test that execute makes on the text of an error.
def MentionsFuel (text : String) : Prop := "fuel".toList <:+: text.toList

instance (text : String) : Decidable (MentionsFuel text) := inferInstanceAs (Decidable (_ <:+: _))

theorem trapError_eq_fuelExhausted_iff (text : String) :
    trapError text = .fuelExhausted ↔ MentionsFuel text := by
  unfold trapError MentionsFuel
  split_ifs with h
  · exact iff_of_true rfl h
  · exact iff_of_false (fun h => by cases h) h

section Pieces

abbrev fuelWord : List Char := ['f', 'u', 'e', 'l']

theorem mentions_iff (text : String) : MentionsFuel text ↔ fuelWord <:+: text.toList := by
  unfold MentionsFuel
  rw [String.toList_ofList]

-- A literal is read letter by letter.
theorem mentions_literal {cs : List Char} (h : fuelWord <:+: cs) : MentionsFuel (String.ofList cs) := by
  rw [mentions_iff, String.toList_ofList]
  exact h

theorem quiet_literal {cs : List Char} (h : ¬fuelWord <:+: cs) : ¬MentionsFuel (String.ofList cs) := by
  rw [mentions_iff, String.toList_ofList]
  exact h

section Append

variable {left right : String} {c : Char} {cs : List Char}

-- The word cannot end in a piece whose first letter it does not have, nor begin in one
-- whose last letter it does not have.
theorem mentions_append_of_head (h : ∀ mark ∈ right.toList.head?, mark ∉ fuelWord) :
    MentionsFuel (left ++ right) ↔ MentionsFuel left ∨ MentionsFuel right := by
  simp only [mentions_iff, String.toList_append]
  exact infix_append_iff_of_head h

theorem mentions_append_of_last (h : ∀ mark ∈ left.toList.getLast?, mark ∉ fuelWord) :
    MentionsFuel (left ++ right) ↔ MentionsFuel left ∨ MentionsFuel right := by
  simp only [mentions_iff, String.toList_append]
  exact infix_append_iff_of_last h

theorem mentions_append_literal (h : c ∉ fuelWord ∧ ¬fuelWord <:+: c :: cs) :
    MentionsFuel (left ++ String.ofList (c :: cs)) ↔ MentionsFuel left := by
  have hhead : ∀ mark ∈ (String.ofList (c :: cs)).toList.head?, mark ∉ fuelWord := by
    rw [String.toList_ofList]
    rintro mark ⟨⟩
    exact h.1
  rw [mentions_append_of_head hhead, or_iff_left (quiet_literal h.2)]

theorem mentions_literal_append
    (h : (c :: cs).getLast (List.cons_ne_nil c cs) ∉ fuelWord ∧ ¬fuelWord <:+: c :: cs) :
    MentionsFuel (String.ofList (c :: cs) ++ right) ↔ MentionsFuel right := by
  have hlast : ∀ mark ∈ (String.ofList (c :: cs)).toList.getLast?, mark ∉ fuelWord := by
    rw [String.toList_ofList, List.getLast?_eq_some_getLast (List.cons_ne_nil c cs)]
    rintro mark ⟨⟩
    exact h.1
  rw [mentions_append_of_last hlast, or_iff_right (quiet_literal h.2)]

theorem mentions_around (h : c ∉ fuelWord ∧
    (c :: cs).getLast (List.cons_ne_nil c cs) ∉ fuelWord ∧ ¬fuelWord <:+: c :: cs) :
    MentionsFuel (left ++ String.ofList (c :: cs) ++ right) ↔ MentionsFuel left ∨ MentionsFuel right := by
  have hhead : ∀ mark ∈ (String.ofList (c :: cs) ++ right).toList.head?, mark ∉ fuelWord := by
    rw [String.toList_append, String.toList_ofList]
    rintro mark ⟨⟩
    exact h.1
  rw [String.append_assoc, mentions_append_of_head hhead, mentions_literal_append h.2]

end Append

-- A piece that has no part of the word, wherever it stands.
def Plain (text : String) : Prop := Apart 'f' 'u' text.toList

theorem plain_literal {cs : List Char} (h : Apart 'f' 'u' cs) : Plain (String.ofList cs) := by
  unfold Plain
  rw [String.toList_ofList]
  exact h

theorem Plain.append {left right : String} (hleft : Plain left) (hright : Plain right) :
    Plain (left ++ right) := by
  unfold Plain
  rw [String.toList_append]
  exact Apart.append hleft hright

theorem Plain.not_mentions {text : String} (h : Plain text) : ¬MentionsFuel text :=
  mt (mentions_iff text).mp (Apart.not_infix h ['e', 'l'])

theorem toList_toString (n : Nat) : (toString n).toList = Nat.toDigits 10 n := String.toList_ofList

theorem digit_not_mem {c letter : Char} {n : Nat} (h : c ∈ Nat.toDigits 10 n)
    (hletter : letter.isDigit = false) : c ≠ letter := by
  rintro rfl
  have hdigit := Nat.isDigit_of_mem_toDigits (by decide) (by decide) h
  exact absurd (hletter.symm.trans hdigit) (by decide)

theorem plain_toString (n : Nat) : Plain (toString n) := by
  have hletter : 'u'.isDigit = false := by decide
  unfold Plain
  rw [toList_toString]
  exact Apart.of_not_mem (fun h => digit_not_mem h hletter rfl) (by decide)

theorem mentions_number (text : String) (n : Nat) :
    MentionsFuel (text ++ toString n) ↔ MentionsFuel text := by
  have hletters : ∀ letter ∈ fuelWord, letter.isDigit = false := by simp
  have hhead : ∀ mark ∈ (toString n).toList.head?, mark ∉ fuelWord := by
    rw [toList_toString]
    intro mark hmark hmem
    exact digit_not_mem (List.mem_of_mem_head? hmark) (hletters mark hmem) rfl
  rw [mentions_append_of_head hhead, or_iff_left (plain_toString n).not_mentions]

theorem plain_int (n : Int) : Plain (toString n) := by
  cases n with
  | ofNat n => exact plain_toString n
  | negSucc n =>
      have hsign : Plain "-" := plain_literal (by decide)
      exact hsign.append (plain_toString (n + 1))

theorem hex_ne_u (n : Nat) : 'u' ∉ Nat.toDigits 16 n := by
  induction n using Nat.strongRecOn with
  | ind n ih =>
      have hdigit : ∀ k < 16, 'u' ≠ Nat.digitChar k := by decide
      rw [Nat.toDigits_eq_if (by decide)]
      split_ifs with h
      · rw [List.mem_singleton]
        exact hdigit n h
      · rw [List.mem_append, List.mem_singleton]
        rintro (hmem | heq)
        · exact ih (n / 16) (by omega) hmem
        · exact hdigit (n % 16) (by omega) heq

theorem plain_hex (n : Nat) : Plain (String.ofList (Nat.toDigits 16 n)) :=
  plain_literal (Apart.of_not_mem (hex_ne_u n) (by decide))

end Pieces

section Debug

variable {name text : String} {cs : List Char} {fields : List (String × String)}

def PlainFields (fields : List (String × String)) : Prop :=
  ∀ field ∈ fields, Plain field.1 ∧ Plain field.2

theorem PlainFields.nil : PlainFields [] := fun _ h => by cases h

theorem PlainFields.cons (hname : Apart 'f' 'u' cs) (htext : Plain text) (hrest : PlainFields fields) :
    PlainFields ((String.ofList cs, text) :: fields) :=
  List.forall_mem_cons.mpr ⟨⟨plain_literal hname, htext⟩, hrest⟩

theorem plain_debugFields (h : PlainFields fields) : Plain (debugFields fields) := by
  have hcolon : Plain ": " := plain_literal (by decide)
  have hcomma : Plain ", " := plain_literal (by decide)
  induction fields with
  | nil => exact plain_literal (by decide)
  | cons field rest ih =>
      obtain ⟨⟨hname, htext⟩, hrest⟩ := List.forall_mem_cons.mp h
      have hfield := (hname.append hcolon).append htext
      cases rest with
      | nil => exact hfield
      | cons next rest => exact (hfield.append hcomma).append (ih hrest)

theorem plain_debugStruct (hname : Apart 'f' 'u' cs) (h : PlainFields fields) :
    Plain (debugStruct (String.ofList cs) fields) := by
  have hopen : Plain " \x7b " := plain_literal (by decide)
  have hclose : Plain " \x7d" := plain_literal (by decide)
  exact (((plain_literal hname).append hopen).append (plain_debugFields h)).append hclose

theorem plain_debugTuple_of_name (hname : Plain name) (htext : Plain text) :
    Plain (debugTuple name text) := by
  have hopen : Plain "(" := plain_literal (by decide)
  have hclose : Plain ")" := plain_literal (by decide)
  exact ((hname.append hopen).append htext).append hclose

theorem plain_debugTuple (hname : Apart 'f' 'u' cs) (htext : Plain text) :
    Plain (debugTuple (String.ofList cs) text) :=
  plain_debugTuple_of_name (plain_literal hname) htext

theorem plain_debugSlice {items : List String} (h : ∀ item ∈ items, Plain item) :
    Plain (debugSlice items) := by
  have hopen : Plain "[" := plain_literal (by decide)
  have hcomma : Plain ", " := plain_literal (by decide)
  have hclose : Plain "]" := plain_literal (by decide)
  refine (hopen.append ?_).append hclose
  induction items with
  | nil => exact plain_literal (by decide)
  | cons item rest ih =>
      obtain ⟨hitem, hrest⟩ := List.forall_mem_cons.mp h
      cases rest with
      | nil => exact hitem
      | cons next rest => exact (hitem.append hcomma).append (ih hrest)

theorem plain_debugNumber (n : Option UInt64) :
    Plain (debugOption (n.map fun n => toString n.toNat)) := by
  cases n with
  | none => exact plain_literal (by decide)
  | some n => exact plain_debugTuple (by decide) (plain_toString _)

theorem plain_debugCore {core : String} (hname : Apart 'f' 'u' cs) (hcore : Plain core) :
    Plain (debugCore (String.ofList cs) core) :=
  plain_debugStruct hname (.cons (by decide) hcore .nil)

theorem Wasmi.ValType.plain_debug (ty : ValType) : Plain ty.debug := by
  cases ty <;> exact plain_literal (by decide)

theorem Wasmi.IndexType.plain_debug (ty : IndexType) : Plain ty.debug := by
  cases ty <;> exact plain_literal (by decide)

theorem Wasmi.Mutability.plain_debug (mutability : Mutability) : Plain mutability.debug := by
  cases mutability <;> exact plain_literal (by decide)

theorem Wasmi.GlobalType.plain_debug (ty : GlobalType) : Plain ty.debug :=
  plain_debugStruct (by decide)
    (.cons (by decide) ty.content.plain_debug (.cons (by decide) ty.mutability.plain_debug .nil))

theorem Wasmi.TableType.plain_debug (ty : TableType) : Plain ty.debug :=
  plain_debugCore (by decide) (plain_debugStruct (by decide)
    (.cons (by decide) ty.element.plain_debug (.cons (by decide) (plain_toString _)
      (.cons (by decide) (plain_debugNumber _) (.cons (by decide) ty.indexTy.plain_debug .nil)))))

theorem Wasmi.MemoryType.plain_debug (ty : MemoryType) : Plain ty.debug :=
  plain_debugCore (by decide) (plain_debugStruct (by decide) (.cons (by decide)
    (plain_debugStruct (by decide) (.cons (by decide) (plain_toString _)
      (.cons (by decide) (plain_debugNumber _) (.cons (by decide) (plain_toString _)
        (.cons (by decide) ty.indexType.plain_debug .nil))))) .nil))

theorem plain_debugTypes (types : List ValType) : Plain (debugSlice (types.map ValType.debug)) :=
  plain_debugSlice (List.forall_mem_map.mpr fun ty _ => ty.plain_debug)

theorem Wasmi.FuncType.plain_debug (ty : FuncType) : Plain ty.debug :=
  plain_debugCore (by decide) (plain_debugStruct (by decide)
    (.cons (by decide) (plain_debugTypes _) (.cons (by decide) (plain_debugTypes _) .nil)))

theorem Wasmi.ExternType.plain_debug (ty : ExternType) : Plain ty.debug := by
  cases ty with
  | global ty => exact plain_debugTuple (by decide) ty.plain_debug
  | table ty => exact plain_debugTuple (by decide) ty.plain_debug
  | memory ty => exact plain_debugTuple (by decide) ty.plain_debug
  | func ty => exact plain_debugTuple (by decide) ty.plain_debug

theorem Wasmi.Stored.plain_debug (hname : Apart 'f' 'u' cs) (entity : Stored) :
    Plain (entity.debug (String.ofList cs)) := by
  have hidx : Plain "Idx" := plain_literal (by decide)
  have hname' := (plain_literal hname).append hidx
  exact plain_debugTuple hname (plain_debugStruct (by decide)
    (.cons (by decide) (plain_debugTuple (by decide) (plain_toString _))
      (.cons (by decide) (plain_debugTuple_of_name hname' (plain_toString _)) .nil)))

theorem Wasmi.Extern.plain_debug (value : Extern) : Plain value.debug := by
  cases value with
  | global entity => exact plain_debugTuple (by decide) (entity.plain_debug (by decide))
  | table entity => exact plain_debugTuple (by decide) (entity.plain_debug (by decide))
  | memory entity => exact plain_debugTuple (by decide) (entity.plain_debug (by decide))
  | func entity => exact plain_debugTuple (by decide) (entity.plain_debug (by decide))

end Debug

-- The module chose a name of an import with the word in it.
def Wasmi.ImportName.MentionsFuel (name : ImportName) : Prop :=
  Runtime.MentionsFuel name.module ∨ Runtime.MentionsFuel name.field

def Wasmi.LinkerError.importName : LinkerError → ImportName
  | .duplicateDefinition name | .missingDefinition name _ | .invalidTypeDefinition name _ _ => name

-- The errors that have the word in their text and are no lack of fuel.
def Wasmi.Error.Misleads : Error → Prop
  | .linker error => error.importName.MentionsFuel
  | .instantiation (.failedToInstantiateMemory (.outOfFuel _)) => True
  | .instantiation (.failedToInstantiateTable (.outOfFuel _)) => True
  | .fuel .fuelMeteringDisabled => True
  | .translation .blockFuelOutOfBounds => True
  | .translation (.unsupportedBlockType text) | .translation (.unsupportedValueType text) =>
      MentionsFuel text
  | .message text | .host text | .resumableHostTrap text | .wasm text _ | .ir text =>
      MentionsFuel text
  | _ => False

section Mentions

theorem Wasmi.ImportName.mentions_display_iff (name : ImportName) :
    Runtime.MentionsFuel name.display ↔ name.MentionsFuel :=
  mentions_around (by decide)

theorem Wasmi.LinkerError.mentions_display_iff (error : LinkerError) :
    MentionsFuel error.display ↔ error.importName.MentionsFuel := by
  cases error with
  | duplicateDefinition name =>
      unfold display
      rw [mentions_append_literal (by decide), mentions_literal_append (by decide),
        ImportName.mentions_display_iff]
      rfl
  | missingDefinition name ty =>
      unfold display
      rw [mentions_around (by decide), mentions_literal_append (by decide),
        ImportName.mentions_display_iff, or_iff_left ty.plain_debug.not_mentions]
      rfl
  | invalidTypeDefinition name expected found =>
      unfold display
      rw [mentions_around (by decide), mentions_around (by decide), mentions_literal_append (by decide),
        ImportName.mentions_display_iff, or_iff_left found.plain_debug.not_mentions,
        or_iff_left expected.plain_debug.not_mentions]
      rfl

theorem Wasmi.TrapCode.mentions_iff (error : TrapCode) :
    MentionsFuel error.trapMessage ↔ error = .outOfFuel := by
  cases error with
  | outOfFuel => exact iff_of_true (mentions_literal (by decide)) rfl
  | _ => exact iff_of_false (quiet_literal (by decide)) fun h => by cases h

theorem Wasmi.MemoryError.mentions_iff (error : MemoryError) :
    MentionsFuel error.display ↔ ∃ requiredFuel, error = .outOfFuel requiredFuel := by
  cases error with
  | outOfFuel requiredFuel =>
      refine iff_of_true ((mentions_number ..).mpr ?_) ⟨requiredFuel, rfl⟩
      exact mentions_literal (by decide)
  | _ => exact iff_of_false (quiet_literal (by decide)) fun ⟨_, h⟩ => by cases h

theorem Wasmi.TableError.mentions_iff (error : TableError) :
    MentionsFuel error.display ↔ ∃ requiredFuel, error = .outOfFuel requiredFuel := by
  cases error with
  | outOfFuel requiredFuel =>
      refine iff_of_true ((mentions_number ..).mpr ?_) ⟨requiredFuel, rfl⟩
      exact mentions_literal (by decide)
  | _ => exact iff_of_false (quiet_literal (by decide)) fun ⟨_, h⟩ => by cases h

theorem Wasmi.FuelError.mentions (error : FuelError) : MentionsFuel error.display := by
  cases error with
  | fuelMeteringDisabled => exact mentions_literal (by decide)
  | outOfFuel requiredFuel => exact (mentions_number ..).mpr (mentions_literal (by decide))

theorem Wasmi.GlobalError.not_mentions (error : GlobalError) : ¬MentionsFuel error.display := by
  cases error <;> exact quiet_literal (by decide)

theorem Wasmi.FuncError.not_mentions (error : FuncError) : ¬MentionsFuel error.display := by
  cases error <;> exact quiet_literal (by decide)

theorem Wasmi.ReadError.not_mentions (error : ReadError) : ¬MentionsFuel error.display := by
  cases error <;> exact quiet_literal (by decide)

theorem mentions_mismatch {kind expected actual : String} (hkind : ¬MentionsFuel kind)
    (hexpected : Plain expected) (hactual : Plain actual) :
    ¬MentionsFuel (mismatch kind expected actual) := by
  unfold mismatch
  rw [mentions_around (by decide), mentions_around (by decide), mentions_literal_append (by decide)]
  rintro ((h | h) | h)
  · exact hkind h
  · exact hexpected.not_mentions h
  · exact hactual.not_mentions h

theorem Wasmi.InstantiationError.mentions_iff (error : InstantiationError) :
    MentionsFuel error.display ↔ (Error.instantiation error).Misleads := by
  cases error with
  | invalidNumberOfImports required given =>
      unfold display
      rw [mentions_number, mentions_append_literal (by decide), mentions_number]
      exact iff_of_false (quiet_literal (by decide)) id
  | importsExternalsMismatch expected actual =>
      unfold display
      rw [mentions_around (by decide), mentions_literal_append (by decide),
        or_iff_left actual.plain_debug.not_mentions]
      exact iff_of_false expected.plain_debug.not_mentions id
  | globalTypeMismatch expected actual =>
      exact iff_of_false (mentions_mismatch (quiet_literal (by decide)) expected.plain_debug
        actual.plain_debug) id
  | funcTypeMismatch expected actual =>
      exact iff_of_false (mentions_mismatch (quiet_literal (by decide)) expected.plain_debug
        actual.plain_debug) id
  | tableTypeMismatch expected actual =>
      exact iff_of_false (mentions_mismatch (quiet_literal (by decide)) expected.plain_debug
        actual.plain_debug) id
  | memoryTypeMismatch expected actual =>
      exact iff_of_false (mentions_mismatch (quiet_literal (by decide)) expected.plain_debug
        actual.plain_debug) id
  | elementSegmentDoesNotFit table tableIndex len =>
      have htable : Plain (table.debug "Table") := table.plain_debug (by decide)
      unfold display
      rw [mentions_number, mentions_append_literal (by decide), mentions_number,
        mentions_append_literal (by decide), mentions_literal_append (by decide)]
      exact iff_of_false htable.not_mentions id
  | unexpectedStartFn index =>
      unfold display
      rw [mentions_number]
      exact iff_of_false (quiet_literal (by decide)) id
  | tooManyInstances => exact iff_of_false (quiet_literal (by decide)) id
  | tooManyTables => exact iff_of_false (quiet_literal (by decide)) id
  | tooManyMemories => exact iff_of_false (quiet_literal (by decide)) id
  | failedToInstantiateMemory error =>
      unfold display
      rw [mentions_literal_append (by decide), error.mentions_iff]
      cases error with
      | outOfFuel requiredFuel => exact iff_of_true ⟨requiredFuel, rfl⟩ trivial
      | _ => exact iff_of_false (fun ⟨_, h⟩ => by cases h) id
  | failedToInstantiateTable error =>
      unfold display
      rw [mentions_literal_append (by decide), error.mentions_iff]
      cases error with
      | outOfFuel requiredFuel => exact iff_of_true ⟨requiredFuel, rfl⟩ trivial
      | _ => exact iff_of_false (fun ⟨_, h⟩ => by cases h) id

theorem Wasmi.TranslationError.mentions_iff (error : TranslationError) :
    MentionsFuel error.display ↔ (Error.translation error).Misleads := by
  cases error with
  | unsupportedBlockType text => exact mentions_literal_append (by decide)
  | unsupportedValueType text => exact mentions_literal_append (by decide)
  | blockFuelOutOfBounds => exact iff_of_true (mentions_literal (by decide)) trivial
  | _ => exact iff_of_false (quiet_literal (by decide +kernel)) id

theorem mentions_exceeds {c : Char} {subject items : List Char} (limit : Nat)
    (hitems : c ∉ fuelWord ∧ ¬fuelWord <:+: c :: items) (hsubject : ¬fuelWord <:+: subject) :
    ¬MentionsFuel (exceeds (String.ofList subject) limit (String.ofList (c :: items))) := by
  unfold exceeds
  rw [mentions_append_literal hitems, mentions_number, mentions_append_literal (by decide)]
  exact quiet_literal hsubject

theorem Wasmi.EnforcedLimitsError.not_mentions (error : EnforcedLimitsError) :
    ¬MentionsFuel error.display := by
  cases error with
  | minAvgBytesPerFunction limit avg =>
      unfold display
      rw [mentions_number, mentions_append_literal (by decide), mentions_number]
      exact quiet_literal (by decide +kernel)
  | _ => exact mentions_exceeds _ (by decide) (by decide)

theorem or_misleads_iff (error : Error) (h : error.isOutOfFuel = false) :
    error.isOutOfFuel = true ∨ error.Misleads ↔ error.Misleads :=
  or_iff_right fun hfuel => by cases h.symm.trans hfuel

theorem not_or_misleads (error : Error) (h : error.isOutOfFuel = false) (hquiet : ¬error.Misleads) :
    ¬(error.isOutOfFuel = true ∨ error.Misleads) := by
  rwa [or_misleads_iff error h]

-- Every text has the word that is printed for a lack of fuel, or that misleads.
theorem mentions_display_iff (error : Error) :
    MentionsFuel error.display ↔ error.isOutOfFuel = true ∨ error.Misleads := by
  cases error with
  | trapCode error =>
      refine error.mentions_iff.trans ?_
      cases error with
      | outOfFuel => exact iff_of_true rfl (.inl rfl)
      | _ => exact iff_of_false (fun h => by cases h) (not_or_misleads _ rfl id)
  | memory error =>
      refine error.mentions_iff.trans ?_
      cases error with
      | outOfFuel requiredFuel => exact iff_of_true ⟨requiredFuel, rfl⟩ (.inl rfl)
      | _ => exact iff_of_false (fun ⟨_, h⟩ => by cases h) (not_or_misleads _ rfl id)
  | table error =>
      refine error.mentions_iff.trans ?_
      cases error with
      | outOfFuel requiredFuel => exact iff_of_true ⟨requiredFuel, rfl⟩ (.inl rfl)
      | _ => exact iff_of_false (fun ⟨_, h⟩ => by cases h) (not_or_misleads _ rfl id)
  | fuel error =>
      refine iff_of_true error.mentions ?_
      cases error with
      | fuelMeteringDisabled => exact .inr trivial
      | outOfFuel requiredFuel => exact .inl rfl
  | resumableOutOfFuel requiredFuel =>
      exact iff_of_true ((mentions_number ..).mpr (mentions_literal (by decide +kernel))) (.inl rfl)
  | linker error =>
      exact error.mentions_display_iff.trans (or_misleads_iff (.linker error) rfl).symm
  | instantiation error =>
      exact error.mentions_iff.trans (or_misleads_iff (.instantiation error) rfl).symm
  | translation error =>
      exact error.mentions_iff.trans (or_misleads_iff (.translation error) rfl).symm
  | message text => exact (or_misleads_iff (.message text) rfl).symm
  | host text => exact (or_misleads_iff (.host text) rfl).symm
  | resumableHostTrap text => exact (or_misleads_iff (.resumableHostTrap text) rfl).symm
  | ir text => exact (or_misleads_iff (.ir text) rfl).symm
  | wasm text offset =>
      unfold Error.display
      rw [mentions_append_literal (by decide), mentions_around (by decide),
        or_iff_left (plain_hex _).not_mentions]
      exact (or_misleads_iff (.wasm text offset) rfl).symm
  | i32ExitStatus status =>
      unfold Error.display
      rw [mentions_append_literal (by decide), mentions_literal_append (by decide)]
      exact iff_of_false (plain_int _).not_mentions (not_or_misleads _ rfl id)
  | global error =>
      exact iff_of_false error.not_mentions (not_or_misleads _ rfl id)
  | func error => exact iff_of_false error.not_mentions (not_or_misleads _ rfl id)
  | read error => exact iff_of_false error.not_mentions (not_or_misleads _ rfl id)
  | limits error =>
      exact iff_of_false error.not_mentions (not_or_misleads _ rfl id)

theorem Wasmi.Error.not_misleads (error : Error) (h : error.isOutOfFuel = true) :
    ¬error.Misleads := by
  cases error with
  | trapCode error => exact id
  | memory error => exact id
  | table error => exact id
  | resumableOutOfFuel requiredFuel => exact id
  | fuel error =>
      cases error with
      | fuelMeteringDisabled => cases h
      | outOfFuel requiredFuel => exact id
  | _ => cases h

end Mentions

-- What fails as a module is started or called, which wasmi tells by this error.
def Interpretation.FailsWith (error : Error) : Interpretation → Prop
  | .startTrapped _ message => message = error.display
  | .started _ _ (some (_, some message)) => message = error.display
  | _ => False

theorem execute_failed {H : Type} {build : Build} {hardware : MiloHardware H} {s s' : HostState H}
    {exportName : String} {interpretation : Interpretation} {error : Error}
    {outcome : Except MiloError (List String)} (hfails : interpretation.FailsWith error)
    (h : execute build hardware s exportName interpretation = .ok (outcome, s')) :
    outcome = .error (trapError error.display) := by
  cases interpretation with
  | invalid text => cases hfails
  | startTrapped start text =>
      obtain ⟨s₁, -, h⟩ := bind_eq_ok.mp h
      cases h
      rw [hfails]
  | started start exportsMemory func =>
      obtain ⟨s₁, -, h⟩ := bind_eq_ok.mp h
      rcases func with - | ⟨turns, - | text⟩
      · cases hfails
      · cases hfails
      · obtain ⟨s₂, -, h⟩ := bind_eq_ok.mp h
        cases h
        rw [hfails]

-- A failure is reported as it is, unless it is no lack of fuel and its text has the word.
theorem execute_fuelExhausted_iff {H : Type} (build : Build) (hardware : MiloHardware H)
    (s s' : HostState H) (exportName : String) (interpretation : Interpretation) (error : Error)
    (outcome : Except MiloError (List String)) (hfails : interpretation.FailsWith error)
    (h : execute build hardware s exportName interpretation = .ok (outcome, s')) :
    (outcome = .error .fuelExhausted ↔ error.isOutOfFuel = true) ↔ ¬error.Misleads := by
  have hreport : outcome = .error .fuelExhausted ↔ error.isOutOfFuel = true ∨ error.Misleads := by
    rw [execute_failed hfails h, Except.error.injEq, trapError_eq_fuelExhausted_iff,
      mentions_display_iff]
  rw [hreport]
  constructor
  · intro hexact hmisleads
    exact error.not_misleads (hexact.mp (.inr hmisleads)) hmisleads
  · intro hquiet
    exact or_iff_left hquiet

-- A module that imports a function which the receiver has under another name.
def foreignImport (module : String) : Error :=
  .linker (.missingDefinition ⟨module, "log_msg"⟩ (.func ⟨[.i32, .i32], []⟩))

def idle : HostState UInt64 := { hw := 0, memory := none, logs := [], transfers := [] }

theorem execute_foreign_trapped :
    (trapError (foreignImport "wasi").display = .fuelExhausted ↔
      (foreignImport "wasi").isOutOfFuel = true) := by
  have hreport := execute_fuelExhausted_iff release64 laptopMock idle idle "run"
    (.startTrapped [] (foreignImport "wasi").display) (foreignImport "wasi")
    (.error (trapError (foreignImport "wasi").display)) rfl rfl
  rw [Except.error.injEq] at hreport
  refine hreport.mpr ?_
  rintro (h | h)
  · exact absurd h (by decide)
  · exact absurd h (by decide)

-- No fuel is lacking, but the name that the module asks for is the word.
theorem foreign_fuel_exhausted :
    (Interpretation.startTrapped [] (foreignImport "fuel").display).FailsWith (foreignImport "fuel") ∧
      execute release64 laptopMock idle "run" (.startTrapped [] (foreignImport "fuel").display) =
        .ok (.error .fuelExhausted, idle) ∧
      (foreignImport "fuel").isOutOfFuel = false := by
  have hreport : trapError (foreignImport "fuel").display = .fuelExhausted :=
    (trapError_eq_fuelExhausted_iff _).mpr
      ((LinkerError.mentions_display_iff _).mpr (.inl (by decide)))
  refine ⟨rfl, ?_, rfl⟩
  change Except.ok (Except.error (trapError (foreignImport "fuel").display), idle) = _
  rw [hreport]

end Milo.Runtime
