import Milo.Engine.Validation.WellFormed

namespace Milo.Engine.Validation

open Milo.Lib Milo.Rust

-- The definitions that register_syscalls makes, by module and field.
def DEFINED : List (String × String) :=
  [("env", "gpio_set"), ("env", "gpio_get"), ("env", "delay_ms"), ("env", "get_uptime_us"),
    ("env", "i2c_transfer"), ("env", "log_msg"), ("env", "pwm_set"), ("env", "adc_read"),
    ("env", "spi_transfer"), ("env", "uart_write"), ("env", "uart_read"), ("env", "get_param")]

def Import.isFunction (imp : Import) : Prop := ∃ typeIndex, imp.descriptor = .func typeIndex

-- The linker finds the function an import asks for.
def Import.Linked (imp : Import) : Prop :=
  imp.isFunction → (imp.module.text, imp.field.text) ∈ DEFINED

-- A function import of an alphabet name from some other module than env.
def Import.Foreign (imp : Import) : Prop :=
  imp.isFunction ∧ imp.field.text ∈ ALLOWED_IMPORTS ∧ imp.module.text ≠ "env"

-- A module that passes the gate finds all its functions, and no alphabet name gets
-- through it under another module's name.
structure Covers (width : Nat) (m : WasmBinary) : Prop where
  linked : ∀ v, validateWasmImports width m.bytes = .ok v → v.valid = true →
    ∀ imp ∈ m.imports, imp.Linked
  foreign : (∃ imp ∈ m.imports, imp.Foreign) →
    ∃ v, validateWasmImports width m.bytes = .ok v ∧ v.valid = false

theorem mem_DEFINED (module field : String) :
    (module, field) ∈ DEFINED ↔ module = "env" ∧ field ∈ ALLOWED_IMPORTS := by
  have htable : DEFINED = ALLOWED_IMPORTS.map fun name => ("env", name) := rfl
  rw [htable, List.mem_map]
  constructor
  · rintro ⟨name, hmem, heq⟩
    obtain ⟨rfl, rfl⟩ := Prod.mk.inj heq
    exact ⟨rfl, hmem⟩
  · rintro ⟨rfl, hmem⟩
    exact ⟨field, hmem, rfl⟩

theorem Import.rejected_eq_nil (imp : Import) :
    imp.rejected = [] ↔ (imp.isFunction → imp.field.text ∈ ALLOWED_IMPORTS) := by
  unfold Import.rejected Import.isFunction
  cases imp.descriptor with
  | func typeIndex => simp
  | table reftype minimum maximum => simp
  | memory minimum maximum => simp
  | global valtype mutability => simp

theorem rejectedNames_eq_nil (imports : List Import) :
    rejectedNames imports = [] ↔
      ∀ imp ∈ imports, imp.isFunction → imp.field.text ∈ ALLOWED_IMPORTS := by
  simp only [rejectedNames, List.flatMap_eq_nil_iff, Import.rejected_eq_nil]

-- An import the linker does not find is one of an unknown or of a foreign name.
theorem Import.not_linked_iff (imp : Import) :
    ¬imp.Linked ↔ imp.Foreign ∨ imp.isFunction ∧ imp.field.text ∉ ALLOWED_IMPORTS := by
  unfold Import.Linked Import.Foreign
  rw [mem_DEFINED]
  tauto

section Gate

variable {width : Nat} {m : WasmBinary}

-- The names that the gate would report for the imports of a binary.
def WasmBinary.Reads (m : WasmBinary) (names : List String) : Prop :=
  ImportsRead m.imports.length (importBytes m.imports ++ sectionBytes m.after) names

theorem WasmBinary.reads_unique (h32 : 32 ≤ width) (hlen : m.bytes.length + 2 < 2 ^ width)
    {names names' : List String} (h : m.Reads names) (h' : m.Reads names') : names = names' := by
  have hok := (m.validate_eq_ok h32 hlen (accepted names)).mpr ⟨names, h, rfl⟩
  have hok' := (m.validate_eq_ok h32 hlen (accepted names')).mpr ⟨names', h', rfl⟩
  exact congrArg (·.rejectedImports) (Except.ok.inj (hok.symm.trans hok'))

theorem covers_iff_reads (h32 : 32 ≤ width) (hlen : m.bytes.length + 2 < 2 ^ width) :
    Covers width m ↔
      ((∃ imp ∈ m.imports, ¬imp.Linked) → ¬m.Reads []) ∧
      ((∃ imp ∈ m.imports, imp.Foreign) → ∃ names, names ≠ [] ∧ m.Reads names) := by
  have hvalid (names : List String) : (accepted names).valid = true ↔ names = [] :=
    List.isEmpty_iff
  constructor
  · intro h
    refine ⟨fun ⟨imp, hmem, hnot⟩ hread => hnot ?_, fun hforeign => ?_⟩
    · exact h.linked _ ((m.validate_eq_ok h32 hlen _).mpr ⟨[], hread, rfl⟩) rfl imp hmem
    · obtain ⟨v, hok, hv⟩ := h.foreign hforeign
      obtain ⟨names, hread, rfl⟩ := (m.validate_eq_ok h32 hlen v).mp hok
      refine ⟨names, fun hnil => ?_, hread⟩
      rw [(hvalid names).mpr hnil] at hv
      cases hv
  · rintro ⟨hlinked, hforeign⟩
    refine ⟨fun v hok hv imp hmem => ?_, fun hex => ?_⟩
    · obtain ⟨names, hread, rfl⟩ := (m.validate_eq_ok h32 hlen v).mp hok
      obtain rfl := (hvalid names).mp hv
      by_contra hnot
      exact hlinked ⟨imp, hmem, hnot⟩ hread
    · obtain ⟨names, hne, hread⟩ := hforeign hex
      refine ⟨accepted names, (m.validate_eq_ok h32 hlen _).mpr ⟨names, hread, rfl⟩, ?_⟩
      exact Bool.eq_false_iff.mpr fun hv => hne ((hvalid names).mp hv)

-- In step, the gate reads exactly the function imports outside the alphabet.
theorem reads_iff_of_resynchronises (h32 : 32 ≤ width) (hlen : m.bytes.length + 2 < 2 ^ width)
    (hstep : Resynchronises m.imports (sectionBytes m.after)) (names : List String) :
    m.Reads names ↔ names = rejectedNames m.imports := by
  have hread : m.Reads (rejectedNames m.imports) :=
    (importsRead_importBytes m.imports (sectionBytes m.after)).mpr hstep
  constructor
  · exact fun h => m.reads_unique h32 hlen h hread
  · rintro rfl
    exact hread

theorem covers_iff_of_resynchronises (h32 : 32 ≤ width) (hlen : m.bytes.length + 2 < 2 ^ width)
    (hstep : Resynchronises m.imports (sectionBytes m.after)) :
    Covers width m ↔
      (∃ imp ∈ m.imports, imp.isFunction ∧ imp.field.text ∉ ALLOWED_IMPORTS) ∨
        ∀ imp ∈ m.imports, ¬imp.Foreign := by
  have hunknown : rejectedNames m.imports ≠ [] ↔
      ∃ imp ∈ m.imports, imp.isFunction ∧ imp.field.text ∉ ALLOWED_IMPORTS := by
    rw [Ne, rejectedNames_eq_nil]
    push Not
    rfl
  simp only [covers_iff_reads h32 hlen, reads_iff_of_resynchronises h32 hlen hstep, ← hunknown]
  constructor
  · rintro ⟨-, hforeign⟩
    by_contra hnot
    push Not at hnot
    obtain ⟨hnil, hex⟩ := hnot
    obtain ⟨names, hne, rfl⟩ := hforeign hex
    exact hne hnil
  · rintro (hne | hnone)
    · exact ⟨fun _ hnil => hne hnil.symm, fun _ => ⟨_, hne, rfl⟩⟩
    · refine ⟨fun ⟨imp, hmem, hnot⟩ hnil => ?_, fun ⟨imp, hmem, hforeign⟩ => absurd hforeign (hnone imp hmem)⟩
      rcases imp.not_linked_iff.mp hnot with hforeign | hout
      · exact hnone imp hmem hforeign
      · exact hunknown.mpr ⟨imp, hmem, hout⟩ hnil.symm

-- The bytes that the parser takes for the imports behind a table with a maximum.
def WasmBinary.misread (m : WasmBinary) (maximum : Number) (later : List Import) : Bytes :=
  maximum.bytes ++ (importBytes later ++ sectionBytes m.after)

theorem covers_iff_of_firstMaximum (h32 : 32 ≤ width) (hlen : m.bytes.length + 2 < 2 ^ width)
    {front later : List Import} {maximum : Number}
    (hfirst : FirstMaximum m.imports front later maximum) :
    Covers width m ↔
      ((∃ imp ∈ m.imports, ¬imp.Linked) → rejectedNames front ≠ [] ∨
        ¬ImportsRead later.length (m.misread maximum later) []) ∧
      ((∃ imp ∈ m.imports, imp.Foreign) → ∃ names,
        ImportsRead later.length (m.misread maximum later) names ∧
          (rejectedNames front ≠ [] ∨ names ≠ [])) := by
  have hreads (names : List String) : m.Reads names ↔
      ∃ behind, ImportsRead later.length (m.misread maximum later) behind ∧
        names = rejectedNames front ++ behind := hfirst.reads_iff _ names
  have hnil : m.Reads [] ↔
      rejectedNames front = [] ∧ ImportsRead later.length (m.misread maximum later) [] := by
    rw [hreads]
    constructor
    · rintro ⟨behind, hread, heq⟩
      obtain ⟨hfront, rfl⟩ := List.append_eq_nil_iff.mp heq.symm
      exact ⟨hfront, hread⟩
    · rintro ⟨hfront, hread⟩
      exact ⟨[], hread, by rw [hfront]; rfl⟩
  have hne : (∃ names, names ≠ [] ∧ m.Reads names) ↔
      ∃ names, ImportsRead later.length (m.misread maximum later) names ∧
        (rejectedNames front ≠ [] ∨ names ≠ []) := by
    simp only [hreads]
    constructor
    · rintro ⟨_, hne, behind, hread, rfl⟩
      exact ⟨behind, hread, not_and_or.mp fun h => hne (List.append_eq_nil_iff.mpr h)⟩
    · rintro ⟨behind, hread, hne⟩
      exact ⟨_, fun h => not_and_or.mpr hne (List.append_eq_nil_iff.mp h), behind, hread, rfl⟩
  rw [covers_iff_reads h32 hlen, hnil, hne, not_and_or]

end Gate

-- The gate covers the linker exactly when an alphabet name under a foreign module always
-- comes with a name outside the alphabet. Out of step it depends on the names in front of
-- the first maximum of a table and on what names the bytes from it on happen to give.
theorem whitelist_covers_linker_iff (width : Nat) (m : WasmBinary) (h32 : 32 ≤ width)
    (hlen : m.bytes.length + 2 < 2 ^ width) :
    Covers width m ↔
      (Resynchronises m.imports (sectionBytes m.after) →
        (∃ imp ∈ m.imports, imp.isFunction ∧ imp.field.text ∉ ALLOWED_IMPORTS) ∨
          ∀ imp ∈ m.imports, ¬imp.Foreign) ∧
      (¬Resynchronises m.imports (sectionBytes m.after) →
        ∀ front later maximum, FirstMaximum m.imports front later maximum →
          ((∃ imp ∈ m.imports, ¬imp.Linked) → rejectedNames front ≠ [] ∨
            ¬ImportsRead later.length (m.misread maximum later) []) ∧
          ((∃ imp ∈ m.imports, imp.Foreign) → ∃ names,
            ImportsRead later.length (m.misread maximum later) names ∧
              (rejectedNames front ≠ [] ∨ names ≠ []))) := by
  by_cases hstep : Resynchronises m.imports (sectionBytes m.after)
  · rw [covers_iff_of_resynchronises h32 hlen hstep]
    exact ⟨fun h => ⟨fun _ => h, fun hnot => absurd hstep hnot⟩, fun h => h.1 hstep⟩
  · constructor
    · exact fun h => ⟨fun hyes => absurd hyes hstep, fun _ front later maximum hfirst =>
        (covers_iff_of_firstMaximum h32 hlen hfirst).mp h⟩
    · rintro ⟨-, h⟩
      rcases resynchronises_or_firstMaximum m.imports (sectionBytes m.after) with
        hyes | ⟨front, later, maximum, hfirst⟩
      · exact absurd hyes hstep
      · exact (covers_iff_of_firstMaximum h32 hlen hfirst).mpr (h hstep front later maximum hfirst)

theorem zero_lt_stop : (0 : UInt8).toNat < 128 := by decide

theorem one_lt_stop : (1 : UInt8).toNat < 128 := by decide

-- The type (i32, i32) -> () of log_msg.
def typeSection : Section where
  id := 1
  size := .ofByte 6 (by decide)
  content := [0x01, 0x60, 0x02, 0x7F, 0x7F, 0x00]
  id_ne := by decide
  size_eq := rfl

def logImport (module : String) (length : UInt8) (hlt : length.toNat < 128)
    (hlength : length.toNat = (intoBytes module).length) : Import where
  module := { text := module, length := .ofByte length hlt, length_eq := hlength }
  field := { text := "log_msg", length := .ofByte 7 (by decide), length_eq := by decide }
  descriptor := .func (.ofByte 0 zero_lt_stop)

-- A module that imports log_msg from a module named a.
def foreignBinary : WasmBinary where
  before := [typeSection]
  importSection := some
    { size := .ofByte 13 (by decide)
      count := .ofByte 1 one_lt_stop
      imports := [logImport "a" 1 one_lt_stop (by decide)]
      size_eq := by decide
      count_eq := by decide }
  after := []

theorem foreignBinary_accepted :
    validateWasmImports 64 foreignBinary.bytes = .ok { valid := true, rejectedImports := [] } ∧
      ¬Covers 64 foreignBinary := by
  have hok : validateWasmImports 64 foreignBinary.bytes =
      .ok { valid := true, rejectedImports := [] } := by decide
  refine ⟨hok, fun h => ?_⟩
  have hlinked := h.linked _ hok rfl _ List.mem_cons_self ⟨_, rfl⟩
  revert hlinked
  decide

def envBinary : WasmBinary where
  before := [typeSection]
  importSection := some
    { size := .ofByte 15 (by decide)
      count := .ofByte 1 one_lt_stop
      imports := [logImport "env" 3 (by decide) (by decide)]
      size_eq := by decide
      count_eq := by decide }
  after := []

theorem envBinary_covered : Covers 32 envBinary :=
  (whitelist_covers_linker_iff 32 envBinary (by decide) (by decide)).mpr
    ⟨fun _ => .inr fun imp hmem hforeign => hforeign.2.2 (by rw [List.mem_singleton.mp hmem]; rfl),
      fun hnot => absurd trivial hnot⟩

end Milo.Engine.Validation
