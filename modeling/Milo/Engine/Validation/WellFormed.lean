import Milo.Engine.Validation.Sections

namespace Milo.Engine.Validation

open Milo.Lib Milo.Rust

-- The WebAssembly binary format, as far as the import section needs it, as
-- concrete syntax: every number keeps the encoding it was written with, so a
-- value of these types is a well-formed binary.
structure Number where
  value : Nat
  bytes : Bytes
  encodes : Leb128.Encodes 32 value bytes

structure Name where
  text : String
  length : Number
  length_eq : length.value = (intoBytes text).length

inductive Descriptor where
  | func (typeIndex : Number)
  | table (reftype : UInt8) (minimum : Number) (maximum : Option Number)
  | memory (minimum : Number) (maximum : Option Number)
  | global (valtype mutability : UInt8)

structure Import where
  module : Name
  field : Name
  descriptor : Descriptor

def Name.bytes (name : Name) : Bytes := name.length.bytes ++ intoBytes name.text

def limitsBytes (minimum : Number) : Option Number → Bytes
  | none => 0x00 :: minimum.bytes
  | some maximum => 0x01 :: (minimum.bytes ++ maximum.bytes)

def Descriptor.kind : Descriptor → UInt8
  | .func _ => 0x00
  | .table _ _ _ => 0x01
  | .memory _ _ => 0x02
  | .global _ _ => 0x03

def Descriptor.content : Descriptor → Bytes
  | .func typeIndex => typeIndex.bytes
  | .table reftype minimum maximum => reftype :: limitsBytes minimum maximum
  | .memory minimum maximum => limitsBytes minimum maximum
  | .global valtype mutability => [valtype, mutability]

def Import.bytes (imp : Import) : Bytes :=
  imp.module.bytes ++ (imp.field.bytes ++ imp.descriptor.kind :: imp.descriptor.content)

def importBytes (imports : List Import) : Bytes := imports.flatMap Import.bytes

-- A custom section or any other section than the import section.
structure Section where
  id : UInt8
  size : Number
  content : Bytes
  id_ne : id ≠ 2
  size_eq : size.value = content.length

def Section.bytes (s : Section) : Bytes := s.id :: (s.size.bytes ++ s.content)

def sectionBytes (sections : List Section) : Bytes := sections.flatMap Section.bytes

structure ImportSection where
  size : Number
  count : Number
  imports : List Import
  size_eq : size.value = (count.bytes ++ importBytes imports).length
  count_eq : count.value = imports.length

def ImportSection.bytes (s : ImportSection) : Bytes :=
  2 :: (s.size.bytes ++ (s.count.bytes ++ importBytes s.imports))

structure WasmBinary where
  before : List Section
  importSection : Option ImportSection
  after : List Section

def VERSION : Bytes := [0x01, 0x00, 0x00, 0x00]

def WasmBinary.bytes (m : WasmBinary) : Bytes :=
  MAGIC ++ VERSION ++ (sectionBytes m.before ++
    ((m.importSection.map ImportSection.bytes).getD [] ++ sectionBytes m.after))

def WasmBinary.imports (m : WasmBinary) : List Import :=
  (m.importSection.map ImportSection.imports).getD []

-- The field name of a function import outside the alphabet.
def Import.rejected (imp : Import) : List String :=
  match imp.descriptor with
  | .func _ => if ALLOWED_IMPORTS.contains imp.field.text then [] else [imp.field.text]
  | _ => []

def rejectedNames (imports : List Import) : List String := imports.flatMap Import.rejected

-- The maximum of a table import, which the parser takes for the next import.
def Import.tableMaximum (imp : Import) : Option Number :=
  match imp.descriptor with
  | .table _ _ maximum => maximum
  | _ => none

-- Nothing follows the first table import with a maximum, or the bytes from that
-- maximum on happen to read as further imports with the same rejected names.
def Resynchronises : List Import → Bytes → Prop
  | [], _ => True
  | imp :: later, after =>
      match imp.tableMaximum with
      | none => Resynchronises later after
      | some maximum =>
          later = [] ∨ ImportsRead later.length (maximum.bytes ++ (importBytes later ++ after))
            (rejectedNames later)

theorem Number.lebAt (n : Number) (rest : Bytes) :
    Validation.lebAt (n.bytes ++ rest) = (n.value, rest) :=
  lebAt_encoded n.encodes rest

theorem Name.read (name : Name) (rest : Bytes) :
    NameRead (name.bytes ++ rest) (intoBytes name.text) rest := by
  unfold NameRead Name.bytes
  rw [List.append_assoc, name.length.lebAt]
  exact ⟨rfl, name.length_eq.symm⟩

theorem fieldText_intoBytes (text : String) : fieldText (intoBytes text) = text := by
  simp [fieldText, fromUtf8_intoBytes]

theorem Import.rejectedField_eq (imp : Import) :
    rejectedField imp.descriptor.kind (intoBytes imp.field.text) = imp.rejected := by
  unfold rejectedField Import.rejected
  rw [fieldText_intoBytes]
  cases imp.descriptor <;> simp [Descriptor.kind]

theorem encodes_byte {byte : UInt8} (h : byte.toNat < 128) :
    Leb128.Encodes 32 byte.toNat [byte] := by
  have := byte.toNat_lt
  simp only [Leb128.Encodes, Leb128.decode, h, if_true]
  rw [if_pos (by omega)]

theorem lebAt_cons_of_lt {byte : UInt8} (h : byte.toNat < 128) (rest : Bytes) :
    lebAt (byte :: rest) = (byte.toNat, rest) :=
  lebAt_encoded (encodes_byte h) rest

theorem readLeb128U32_flag {flag : UInt8} (h : flag.toNat < 128) (rest : Bytes) :
    (readLeb128U32 (flag :: rest)).1 = UInt32.ofNat flag.toNat := by
  apply UInt32.toNat_inj.mp
  have hl := congrArg Prod.fst (lebAt_cons_of_lt h rest)
  rw [UInt32.toNat_ofNat', Nat.mod_eq_of_lt (by have := flag.toNat_lt; omega)]
  exact hl

-- The parser ends behind the descriptor, or in front of the maximum of a table.
theorem Descriptor.afterDescriptor_eq (d : Descriptor) (rest : Bytes) :
    afterDescriptor d.kind (d.content ++ rest) =
      match d with
      | .table _ _ (some maximum) => some (maximum.bytes ++ rest)
      | _ => some rest := by
  cases d with
  | func typeIndex => simp [Descriptor.kind, Descriptor.content, afterDescriptor, typeIndex.lebAt]
  | table reftype minimum maximum =>
      cases maximum with
      | none =>
          simp [Descriptor.kind, Descriptor.content, afterDescriptor, limitsBytes, minimum.lebAt,
            lebAt_cons_of_lt (show (0x00 : UInt8).toNat < 128 by decide)]
      | some maximum =>
          simp [Descriptor.kind, Descriptor.content, afterDescriptor, limitsBytes, minimum.lebAt,
            lebAt_cons_of_lt (show (0x01 : UInt8).toNat < 128 by decide)]
  | memory minimum maximum =>
      cases maximum with
      | none =>
          simp [Descriptor.kind, Descriptor.content, afterDescriptor, limitsBytes, minimum.lebAt,
            lebAt_cons_of_lt (show (0x00 : UInt8).toNat < 128 by decide),
            readLeb128U32_flag (show (0x00 : UInt8).toNat < 128 by decide)]
      | some maximum =>
          simp [Descriptor.kind, Descriptor.content, afterDescriptor, limitsBytes, minimum.lebAt,
            maximum.lebAt, lebAt_cons_of_lt (show (0x01 : UInt8).toNat < 128 by decide),
            readLeb128U32_flag (show (0x01 : UInt8).toNat < 128 by decide)]
  | global valtype mutability =>
      simp [Descriptor.kind, Descriptor.content, afterDescriptor]

-- Reading past one entry whose parts are known.
theorem importsRead_succ_iff {count : Nat} {data module afterModule field tail rest : Bytes}
    {kind : UInt8} (hmodule : NameRead data module afterModule)
    (hfield : NameRead afterModule field (kind :: tail))
    (hrest : afterDescriptor kind tail = some rest) (names : List String) :
    ImportsRead (count + 1) data names ↔
      ∃ later, ImportsRead count rest later ∧ names = rejectedField kind field ++ later := by
  constructor
  · intro h
    cases h with
    | entry hmodule' hfield' hrest' hread =>
        obtain ⟨_, rfl⟩ := hmodule.unique hmodule'
        obtain ⟨rfl, heq⟩ := hfield.unique hfield'
        obtain ⟨rfl, rfl⟩ := List.cons.inj heq
        obtain rfl := Option.some.inj (hrest.symm.trans hrest')
        exact ⟨_, hread, rfl⟩
    | cutGlobal hmodule' hfield' hcut =>
        obtain ⟨_, rfl⟩ := hmodule.unique hmodule'
        obtain ⟨rfl, heq⟩ := hfield.unique hfield'
        obtain ⟨rfl, rfl⟩ := List.cons.inj heq
        rw [afterDescriptor_cutGlobal hcut] at hrest
        cases hrest
  · rintro ⟨later, hread, rfl⟩
    exact .entry hmodule hfield hrest hread

theorem Import.reads_iff (imp : Import) {count : Nat} {after rest : Bytes}
    (hrest : afterDescriptor imp.descriptor.kind (imp.descriptor.content ++ after) = some rest)
    (names : List String) :
    ImportsRead (count + 1) (imp.bytes ++ after) names ↔
      ∃ later, ImportsRead count rest later ∧ names = imp.rejected ++ later := by
  rw [← imp.rejectedField_eq]
  have hbytes : imp.bytes ++ after = imp.module.bytes ++ (imp.field.bytes ++
      (imp.descriptor.kind :: (imp.descriptor.content ++ after))) := by
    simp [Import.bytes]
  rw [hbytes]
  exact importsRead_succ_iff (imp.module.read _) (imp.field.read _) hrest names

theorem Import.importsRead_iff (imp : Import) {count : Nat} {after rest : Bytes}
    (hrest : afterDescriptor imp.descriptor.kind (imp.descriptor.content ++ after) = some rest)
    (names : List String) :
    ImportsRead (count + 1) (imp.bytes ++ after) (imp.rejected ++ names) ↔
      ImportsRead count rest names := by
  rw [imp.reads_iff hrest]
  constructor
  · rintro ⟨later, hread, heq⟩
    rwa [List.append_cancel_left heq]
  · exact fun hread => ⟨names, hread, rfl⟩

-- A table with a maximum leaves the parser in front of the maximum, any other import
-- behind its descriptor.
theorem Import.afterDescriptor_of_none {imp : Import} (hmax : imp.tableMaximum = none)
    (rest : Bytes) :
    afterDescriptor imp.descriptor.kind (imp.descriptor.content ++ rest) = some rest := by
  rw [imp.descriptor.afterDescriptor_eq]
  unfold Import.tableMaximum at hmax
  split
  · simp_all
  · rfl

theorem Import.afterDescriptor_of_some {imp : Import} {maximum : Number}
    (hmax : imp.tableMaximum = some maximum) (rest : Bytes) :
    afterDescriptor imp.descriptor.kind (imp.descriptor.content ++ rest) =
      some (maximum.bytes ++ rest) := by
  rw [imp.descriptor.afterDescriptor_eq]
  unfold Import.tableMaximum at hmax
  split
  · simp_all
  · rename_i hno
    cases hd : imp.descriptor <;> simp_all

-- The induction is on the imports still to be read; a table with a maximum ends it.
theorem importsRead_importBytes (imports : List Import) (after : Bytes) :
    ImportsRead imports.length (importBytes imports ++ after) (rejectedNames imports) ↔
      Resynchronises imports after := by
  induction imports with
  | nil => exact ⟨fun _ => trivial, fun _ => .nil _⟩
  | cons imp later ih =>
      simp only [importBytes, rejectedNames, List.flatMap_cons, List.length_cons,
        List.append_assoc] at ih ⊢
      cases hmax : imp.tableMaximum with
      | none =>
          simp only [Resynchronises, hmax]
          exact (imp.importsRead_iff (imp.afterDescriptor_of_none hmax _) _).trans ih
      | some maximum =>
          simp only [Resynchronises, hmax]
          refine (imp.importsRead_iff (imp.afterDescriptor_of_some hmax _) _).trans ⟨Or.inr, ?_⟩
          rintro (rfl | h)
          · exact .nil _
          · exact h

theorem Import.rejected_of_tableMaximum {imp : Import} {maximum : Number}
    (hmax : imp.tableMaximum = some maximum) : imp.rejected = [] := by
  unfold Import.tableMaximum at hmax
  unfold Import.rejected
  split at hmax
  · simp_all
  · cases hmax

-- The imports in front of the first table with a maximum and those behind it.
structure FirstMaximum (imports front later : List Import) (maximum : Number) : Prop where
  plain : ∀ imp ∈ front, imp.tableMaximum = none
  split : ∃ table, imports = front ++ table :: later ∧ table.tableMaximum = some maximum

theorem resynchronises_or_firstMaximum (imports : List Import) (after : Bytes) :
    Resynchronises imports after ∨
      ∃ front later maximum, FirstMaximum imports front later maximum := by
  induction imports with
  | nil => exact .inl trivial
  | cons imp later ih =>
      cases hmax : imp.tableMaximum with
      | some maximum => exact .inr ⟨[], later, maximum, by simp, imp, rfl, hmax⟩
      | none =>
          rcases ih with hstep | ⟨front, behind, maximum, hplain, table, rfl, htable⟩
          · exact .inl (by simpa only [Resynchronises, hmax] using hstep)
          · exact .inr ⟨imp :: front, behind, maximum,
              List.forall_mem_cons.mpr ⟨hmax, hplain⟩, table, rfl, htable⟩

-- The parser reads the imports in front of the first maximum as they are, and the ones
-- behind it from that maximum on.
theorem FirstMaximum.reads_iff {imports front later : List Import} {maximum : Number}
    (h : FirstMaximum imports front later maximum) (after : Bytes) (names : List String) :
    ImportsRead imports.length (importBytes imports ++ after) names ↔
      ∃ behind, ImportsRead later.length (maximum.bytes ++ (importBytes later ++ after)) behind ∧
        names = rejectedNames front ++ behind := by
  obtain ⟨hplain, table, rfl, htable⟩ := h
  induction front generalizing names with
  | nil =>
      simp only [List.nil_append, importBytes, List.flatMap_cons, List.length_cons,
        List.append_assoc, rejectedNames, List.flatMap_nil]
      rw [table.reads_iff (table.afterDescriptor_of_some htable _),
        table.rejected_of_tableMaximum htable]
      rfl
  | cons imp front ih =>
      obtain ⟨hmax, hplain⟩ := List.forall_mem_cons.mp hplain
      simp only [importBytes, List.cons_append, List.flatMap_cons, List.length_cons,
        List.append_assoc, rejectedNames] at ih ⊢
      rw [imp.reads_iff (imp.afterDescriptor_of_none hmax _)]
      constructor
      · rintro ⟨others, hothers, rfl⟩
        obtain ⟨behind, hread, rfl⟩ := (ih others hplain).mp hothers
        exact ⟨behind, hread, rfl⟩
      · rintro ⟨behind, hread, rfl⟩
        exact ⟨_, (ih _ hplain).mpr ⟨behind, hread, rfl⟩, rfl⟩

-- With no maximum in front of another import the parser stays in step.
theorem resynchronises_of_dropLast (imports : List Import) (after : Bytes)
    (h : ∀ imp ∈ imports.dropLast, imp.tableMaximum = none) : Resynchronises imports after := by
  induction imports with
  | nil => trivial
  | cons imp later ih =>
      cases later with
      | nil =>
          cases hmax : imp.tableMaximum with
          | none => simp [Resynchronises, hmax]
          | some maximum => simp [Resynchronises, hmax]
      | cons next later =>
          have hmax := h imp (by simp)
          simp only [Resynchronises, hmax]
          exact ih fun i hi => h i (by
            rw [List.dropLast_cons_of_ne_nil (by simp)]
            exact List.mem_cons_of_mem _ hi)

theorem NameRead.length_le {data name rest : Bytes} (h : NameRead data name rest) :
    (lebAt data).1 ≤ data.length := by
  have hl := congrArg List.length h.1
  have hle := lebAt_length_le data
  simp only [List.length_append] at hl
  rw [← h.2]
  omega

-- A maximum larger than what is left of the payload never reads as a module name.
theorem not_resynchronises_of_large (imp : Import) (later : List Import) (after : Bytes)
    (maximum : Number) (hmax : imp.tableMaximum = some maximum) (hlater : later ≠ [])
    (hlarge : (maximum.bytes ++ (importBytes later ++ after)).length < maximum.value) :
    ¬Resynchronises (imp :: later) after := by
  simp only [Resynchronises, hmax]
  rintro (h | h)
  · exact hlater h
  · have hname : ∃ name rest, NameRead (maximum.bytes ++ (importBytes later ++ after)) name rest := by
      generalize hcount : later.length = count at h
      generalize maximum.bytes ++ (importBytes later ++ after) = data at h
      generalize rejectedNames later = names at h
      cases h with
      | nil => exact absurd (List.length_eq_zero_iff.mp hcount) hlater
      | entry hmodule => exact ⟨_, _, hmodule⟩
      | cutGlobal hmodule => exact ⟨_, _, hmodule⟩
    obtain ⟨name, rest, hname⟩ := hname
    have hle := hname.length_le
    rw [maximum.lebAt] at hle
    omega

section Cursor

variable {width : Nat} {bytes : Bytes} (h32 : 32 ≤ width) (hlen : bytes.length + 2 < 2 ^ width)

-- A section that lies inside the payload is skipped on every board.
include hlen in
theorem sectionBody_skip (s : Section) {pos : Nat} {rest : Bytes}
    (hdrop : bytes.drop pos = s.bytes ++ rest) :
    ∃ stop, sectionBody width bytes pos = .next stop ∧ bytes.drop stop = rest := by
  rw [Section.bytes, List.cons_append, List.append_assoc] at hdrop
  obtain ⟨start, hstart, hcontent, _, hbody⟩ := sectionBody_of_cons hlen hdrop
  rw [s.size.lebAt] at hcontent hbody
  have hl := congrArg List.length hcontent
  simp only [List.length_drop, List.length_append] at hl
  have hsize := s.size_eq
  rw [if_neg s.id_ne, add_eq_of_lt (by omega)] at hbody
  refine ⟨_, hbody, ?_⟩
  rw [← List.drop_drop, hcontent, hsize, List.drop_left]

include hlen in
theorem sectionLoop_skip (sections : List Section) (fuel pos : Nat) {rest : Bytes}
    (hdrop : bytes.drop pos = sectionBytes sections ++ rest) :
    ∃ stop, loopFuel (sectionBody width bytes) (sections.length + fuel) pos =
      loopFuel (sectionBody width bytes) fuel stop ∧ bytes.drop stop = rest := by
  induction sections generalizing pos with
  | nil => exact ⟨pos, by simp, hdrop⟩
  | cons s sections ih =>
      simp only [sectionBytes, List.flatMap_cons, List.append_assoc] at hdrop ih
      obtain ⟨next, hbody, hnext⟩ := sectionBody_skip hlen s hdrop
      obtain ⟨stop, hloop, hstop⟩ := ih next hnext
      refine ⟨stop, ?_, hstop⟩
      rw [List.length_cons, Nat.add_right_comm, loopFuel_succ_of_next _ hbody, hloop]

end Cursor

theorem WasmBinary.take_magic (m : WasmBinary) : m.bytes.take 4 = MAGIC := rfl

theorem WasmBinary.drop_version (m : WasmBinary) :
    m.bytes.drop 8 = sectionBytes m.before ++
      ((m.importSection.map ImportSection.bytes).getD [] ++ sectionBytes m.after) := rfl

theorem WasmBinary.length_ge (m : WasmBinary) : 8 ≤ m.bytes.length := by
  simp [WasmBinary.bytes, MAGIC, VERSION]

-- What the gate makes of a well-formed binary is what it reads its imports as.
theorem WasmBinary.validate_eq_ok {width : Nat} (m : WasmBinary) (h32 : 32 ≤ width)
    (hlen : m.bytes.length + 2 < 2 ^ width) (result : ValidationResult) :
    validateWasmImports width m.bytes = .ok result ↔
      ∃ names, ImportsRead m.imports.length (importBytes m.imports ++ sectionBytes m.after) names ∧
        result = accepted names := by
  cases hi : m.importSection with
  | none =>
      have hdrop : m.bytes.drop 8 = sectionBytes (m.before ++ m.after) ++ [] := by
        rw [m.drop_version, hi]
        simp [sectionBytes]
      obtain ⟨stop, hloop, hstop⟩ := sectionLoop_skip hlen _ 1 8 hdrop
      rw [loopFuel_succ_of_done _ (sectionBody_of_ge (List.drop_eq_nil_iff.mp hstop))] at hloop
      have himports : m.imports = [] := by simp [WasmBinary.imports, hi]
      rw [validateWasmImports_of_loop m.length_ge m.take_magic hloop, himports]
      constructor
      · intro h
        exact ⟨[], .nil _, (Except.ok.inj h).symm⟩
      · rintro ⟨names, hread, rfl⟩
        cases hread
        rfl
  | some s =>
      have hdrop : m.bytes.drop 8 = sectionBytes m.before ++
          (2 :: (s.size.bytes ++ (s.count.bytes ++ (importBytes s.imports ++
            sectionBytes m.after)))) := by
        rw [m.drop_version, hi]
        simp [ImportSection.bytes]
      obtain ⟨pos, hloop, hpos⟩ := sectionLoop_skip hlen _ 1 8 hdrop
      obtain ⟨start, hstart, hcontent, _, hbody⟩ := sectionBody_of_cons hlen hpos
      rw [if_pos rfl] at hbody
      rw [loopFuel_succ_of_done _ hbody] at hloop
      have hiff := importSection_eq_ok h32 hlen hstart result
      rw [hcontent, s.size.lebAt, s.count.lebAt, s.count_eq] at hiff
      have himports : m.imports = s.imports := by simp [WasmBinary.imports, hi]
      rw [validateWasmImports_of_loop m.length_ge m.take_magic hloop, himports]
      exact hiff

-- On a well-formed binary the gate names exactly the function imports outside the
-- alphabet, if and only if no maximum of a table import throws it out of step.
theorem validateWasmImports_wellFormed_iff (width : Nat) (m : WasmBinary) (h32 : 32 ≤ width)
    (hlen : m.bytes.length + 2 < 2 ^ width) :
    validateWasmImports width m.bytes =
        .ok { valid := (rejectedNames m.imports).isEmpty,
              rejectedImports := rejectedNames m.imports } ↔
      Resynchronises m.imports (sectionBytes m.after) := by
  rw [m.validate_eq_ok h32 hlen, ← importsRead_importBytes]
  constructor
  · rintro ⟨names, hread, hnames⟩
    rwa [show rejectedNames m.imports = names from congrArg (·.rejectedImports) hnames]
  · intro hread
    exact ⟨_, hread, rfl⟩

-- A one-byte number.
def Number.ofByte (byte : UInt8) (h : byte.toNat < 128) : Number :=
  { value := byte.toNat, bytes := [byte], encodes := encodes_byte h }

def tableImport : Import where
  module := { text := "a", length := .ofByte 1 (by decide), length_eq := by decide }
  field := { text := "t", length := .ofByte 1 (by decide), length_eq := by decide }
  descriptor := .table 0x70 (.ofByte 0 (by decide)) (some (.ofByte 0 (by decide)))

def evilImport : Import where
  module := { text := "a", length := .ofByte 1 (by decide), length_eq := by decide }
  field := { text := "evil", length := .ofByte 4 (by decide), length_eq := by decide }
  descriptor := .func (.ofByte 0 (by decide))

def binaryOf (imports : List Import) (count size : Number)
    (hcount : count.value = imports.length)
    (hsize : size.value = (count.bytes ++ importBytes imports).length) : WasmBinary where
  before := []
  importSection := some
    { size := size, count := count, imports := imports, size_eq := hsize, count_eq := hcount }
  after := []

-- Behind a table with a maximum any function import gets through.
def evilBinary : WasmBinary :=
  binaryOf [tableImport, evilImport] (.ofByte 2 (by decide)) (.ofByte 19 (by decide)) (by decide)
    (by decide)

theorem validateWasmImports_accepts_evil :
    validateWasmImports 64 evilBinary.bytes = .ok { valid := true, rejectedImports := [] } ∧
      rejectedNames evilBinary.imports = ["evil"] := by
  decide

theorem validateWasmImports_rejects_evil :
    validateWasmImports 32
        (binaryOf [evilImport, tableImport] (.ofByte 2 (by decide)) (.ofByte 19 (by decide))
          (by decide) (by decide)).bytes =
      .ok { valid := false, rejectedImports := ["evil"] } :=
  (validateWasmImports_wellFormed_iff 32 _ (by decide) (by decide)).mpr (.inl rfl)

end Milo.Engine.Validation
