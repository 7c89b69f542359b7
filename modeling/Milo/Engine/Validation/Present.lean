import Milo.Engine.Validation.Sections

namespace Milo.Engine.Validation

open Milo.Lib Milo.Rust

-- The bytes from the maximum on, where a descriptor is that of a table whose limits
-- flag announces one.
def tableMaximumAt (kind : UInt8) (tail : Bytes) : Option Bytes :=
  if kind = 0x01 then
    match tail with
    | [] => none
    | _ :: limits =>
        if (readLeb128U32 limits).1 &&& 1 ≠ 0 then some (lebAt (lebAt limits).2).2 else none
  else none

-- The data holds that many import entries. A number at its very end may be missing, a
-- final global may be cut short, and the parser never looks at the maximum of a final
-- table. In front of further entries it takes a maximum for the first byte of the next
-- one, and then it is the bytes from the maximum on that have to read as the rest.
inductive EntriesPresent : Nat → Bytes → Prop where
  | nil (data : Bytes) : EntriesPresent 0 data
  | entry {count : Nat} {data module afterModule field tail rest : Bytes} {kind : UInt8}
      (hmodule : NameRead data module afterModule)
      (hfield : NameRead afterModule field (kind :: tail)) (hmax : tableMaximumAt kind tail = none)
      (hrest : afterDescriptor kind tail = some rest) (hlater : EntriesPresent count rest) :
      EntriesPresent (count + 1) data
  | lastTable {data module afterModule field tail behind : Bytes} {kind : UInt8}
      (hmodule : NameRead data module afterModule)
      (hfield : NameRead afterModule field (kind :: tail))
      (hmax : tableMaximumAt kind tail = some behind) : EntriesPresent 1 data
  | misread {count : Nat} {data module afterModule field tail behind : Bytes} {kind : UInt8}
      {names : List String} (hmodule : NameRead data module afterModule)
      (hfield : NameRead afterModule field (kind :: tail))
      (hmax : tableMaximumAt kind tail = some behind)
      (hread : ImportsRead (count + 1) behind names) : EntriesPresent (count + 2) data
  | cutGlobal {data module afterModule field tail : Bytes} (hmodule : NameRead data module afterModule)
      (hfield : NameRead afterModule field (0x03 :: tail)) (hcut : tail.length < 2) :
      EntriesPresent 1 data

-- The sections up to the end of the data, the last one possibly cut short, or up to an
-- import section that holds the entries it announces.
inductive SectionsPresent : Bytes → Prop where
  | ended : SectionsPresent []
  | skipped {sectionId : UInt8} {data : Bytes} (hid : sectionId ≠ 2)
      (hlater : SectionsPresent ((lebAt data).2.drop (lebAt data).1)) :
      SectionsPresent (sectionId :: data)
  | imports {data : Bytes}
      (hentries : EntriesPresent (lebAt (lebAt data).2).1 (lebAt (lebAt data).2).2) :
      SectionsPresent (2 :: data)

-- The payload is turned down for its first bytes, or what it announces is there.
def PayloadPresent (payload : Bytes) : Prop :=
  payload.length < 8 ∨ payload.take 4 ≠ MAGIC ∨ SectionsPresent (payload.drop 8)

-- The parser goes on with the maximum itself.
theorem afterDescriptor_of_tableMaximumAt {kind : UInt8} {tail behind : Bytes}
    (h : tableMaximumAt kind tail = some behind) : afterDescriptor kind tail = some behind := by
  unfold tableMaximumAt at h
  split_ifs at h with hkind
  subst hkind
  cases tail with
  | nil => cases h
  | cons reftype limits =>
      dsimp only at h
      split_ifs at h
      exact h

theorem EntriesPresent.read {count : Nat} {data : Bytes} (h : EntriesPresent count data) :
    ∃ names, ImportsRead count data names := by
  induction h with
  | nil data => exact ⟨[], .nil data⟩
  | entry hmodule hfield _ hrest _ ih =>
      obtain ⟨names, hread⟩ := ih
      exact ⟨_, .entry hmodule hfield hrest hread⟩
  | lastTable hmodule hfield hmax =>
      exact ⟨_, .entry hmodule hfield (afterDescriptor_of_tableMaximumAt hmax) (.nil _)⟩
  | misread hmodule hfield hmax hread =>
      exact ⟨_, .entry hmodule hfield (afterDescriptor_of_tableMaximumAt hmax) hread⟩
  | cutGlobal hmodule hfield hcut => exact ⟨[], .cutGlobal hmodule hfield hcut⟩

theorem ImportsRead.present {count : Nat} {data : Bytes} {names : List String}
    (h : ImportsRead count data names) : EntriesPresent count data := by
  induction h with
  | nil data => exact .nil data
  | cutGlobal hmodule hfield hcut => exact .cutGlobal hmodule hfield hcut
  | @entry count data module afterModule field tail rest kind names hmodule hfield hrest hread ih =>
      cases hmax : tableMaximumAt kind tail with
      | none => exact .entry hmodule hfield hmax hrest ih
      | some behind =>
          obtain rfl := Option.some.inj ((afterDescriptor_of_tableMaximumAt hmax).symm.trans hrest)
          cases count with
          | zero => exact .lastTable hmodule hfield hmax
          | succ count => exact .misread hmodule hfield hmax hread

theorem sectionsPresent_iff (data : Bytes) :
    SectionsPresent data ↔ ∃ names, SectionsRead data names := by
  constructor
  · intro h
    induction h with
    | ended => exact ⟨[], .ended⟩
    | skipped hid _ ih =>
        obtain ⟨names, hread⟩ := ih
        exact ⟨names, .skipped hid hread⟩
    | imports hentries =>
        obtain ⟨names, hread⟩ := hentries.read
        exact ⟨names, .imports hread⟩
  · rintro ⟨names, h⟩
    induction h with
    | ended => exact .ended
    | skipped hid _ ih => exact .skipped hid ih
    | imports hread => exact .imports hread.present

-- On a 64-bit board a payload is answered exactly when what it announces is there.
theorem validateWasmImports_returns_iff (payload : Bytes) (hlen : payload.length < 2 ^ 32) :
    (∃ result, validateWasmImports 64 payload = .ok result) ↔ PayloadPresent payload := by
  unfold PayloadPresent
  by_cases h8 : payload.length < 8
  · simp [validateWasmImports, h8]
  by_cases hmagic : payload.take 4 = MAGIC
  · have hloop (result : ValidationResult) :
        (∃ fuel, loopFuel (sectionBody 64 payload) fuel 8 = some (.ok result)) ↔
          ∃ names, SectionsRead (payload.drop 8) names ∧ result = accepted names :=
      sectionLoop_eq_ok (by omega) (by omega) (by omega) 8 result
    rw [sectionsPresent_iff]
    constructor
    · rintro ⟨result, h⟩
      obtain ⟨names, hread, _⟩ := (hloop result).mp
        ⟨_, loop_of_validateWasmImports (by omega) hmagic h⟩
      exact .inr (.inr ⟨names, hread⟩)
    · rintro (h | h | ⟨names, hread⟩)
      · exact absurd h h8
      · exact absurd hmagic h
      · obtain ⟨fuel, hf⟩ := (hloop (accepted names)).mpr ⟨names, hread, rfl⟩
        exact ⟨_, validateWasmImports_of_loop (by omega) hmagic hf⟩
  · simp [validateWasmImports, h8, hmagic]

-- An import count with no import behind it, and a well-formed binary: a table with a
-- maximum of five in front of a.log_msg.
theorem validateWasmImports_panics :
    (¬∃ result, validateWasmImports 64
      [0x00, 0x61, 0x73, 0x6D, 0x01, 0x00, 0x00, 0x00, 0x02, 0x01, 0x01] = .ok result) ∧
    ¬∃ result, validateWasmImports 64
      [0x00, 0x61, 0x73, 0x6D, 0x01, 0x00, 0x00, 0x00, 0x02, 0x16, 0x02, 0x01, 0x61, 0x01, 0x74,
        0x01, 0x70, 0x01, 0x00, 0x05, 0x01, 0x61, 0x07, 0x6C, 0x6F, 0x67, 0x5F, 0x6D, 0x73, 0x67,
        0x00, 0x00] = .ok result := by
  refine ⟨?_, ?_⟩
  · rintro ⟨result, h⟩
    cases h
  · rintro ⟨result, h⟩
    cases h

-- A custom section, a type section and an import section with env.log_msg, a memory
-- with a maximum, a function a.out, a global and, last, a table with a maximum.
def manyImports : Bytes :=
  [0x00, 0x61, 0x73, 0x6D, 0x01, 0x00, 0x00, 0x00] ++
    [0x00, 0x03, 0x02, 0x68, 0x69] ++
    [0x01, 0x06, 0x01, 0x60, 0x02, 0x7F, 0x7F, 0x00] ++
    [0x02, 0x33, 0x05,
      0x03, 0x65, 0x6E, 0x76, 0x07, 0x6C, 0x6F, 0x67, 0x5F, 0x6D, 0x73, 0x67, 0x00, 0x00,
      0x03, 0x65, 0x6E, 0x76, 0x03, 0x6D, 0x65, 0x6D, 0x02, 0x01, 0x01, 0x04,
      0x01, 0x61, 0x03, 0x6F, 0x75, 0x74, 0x00, 0x00,
      0x01, 0x61, 0x01, 0x67, 0x03, 0x7F, 0x00,
      0x01, 0x61, 0x01, 0x74, 0x01, 0x70, 0x01, 0x00, 0x05]

theorem payloadPresent_manyImports :
    PayloadPresent manyImports :=
  (validateWasmImports_returns_iff manyImports (by decide)).mp
    ⟨{ valid := false, rejectedImports := ["out"] }, by decide⟩

end Milo.Engine.Validation
