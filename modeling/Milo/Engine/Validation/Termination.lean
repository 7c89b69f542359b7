import Milo.Engine.Validation.Present

namespace Milo.Engine.Validation

open Milo.Lib Milo.Rust

-- A section other than the import section starts at the offset.
def SkippedAt (payload : Bytes) (offset : Nat) : Prop :=
  ∃ sectionId, payload[offset]? = some sectionId ∧ sectionId ≠ 2

-- Where the section at the offset ends by what it declares: behind its identifier, its
-- size field and its content.
def sectionEnd (payload : Bytes) (offset : Nat) : Nat :=
  offset + 1 + (readLeb128U32 (payload.drop (offset + 1))).2 +
    (lebAt (payload.drop (offset + 1))).1

-- An overlong section declares an end outside the address space.
structure Overlong (payload : Bytes) (offset : Nat) : Prop where
  skipped : SkippedAt payload offset
  far : 2 ^ 32 ≤ sectionEnd payload offset

-- Section by section, none of them overlong, the payload leads to an offset.
inductive Chain (payload : Bytes) (target : Nat) : Nat → Prop where
  | here : Chain payload target target
  | skip {offset : Nat} (hskip : SkippedAt payload offset) (hnear : sectionEnd payload offset < 2 ^ 32)
      (hlater : Chain payload target (sectionEnd payload offset)) : Chain payload target offset

-- The first sections of the payload lead to an overlong one, and 2 ^ 32 below the end of
-- each of these overlong sections stand sections that lead to one of them again.
structure Ring (payload : Bytes) (overlong : Set Nat) : Prop where
  long : ∀ offset ∈ overlong, Overlong payload offset
  entered : ∃ offset ∈ overlong, Chain payload offset 8
  closed : ∀ offset ∈ overlong, ∃ again ∈ overlong,
    Chain payload again (sectionEnd payload offset - 2 ^ 32)

section Fault

variable (width : Nat) (bytes : Bytes)

theorem readNumber_ne_diverges (pos : Nat) : readNumber width bytes pos ≠ .error .diverges := by
  refine bind_ne_diverges ?_ fun _ => nofun
  unfold sliceFrom
  split_ifs <;> exact nofun

theorem readName_ne_diverges (pos : Nat) : readName width bytes pos ≠ .error .diverges := by
  refine bind_ne_diverges (readNumber_ne_diverges width bytes pos) fun _ =>
    bind_ne_diverges ?_ fun _ => nofun
  unfold slice
  split_ifs <;> exact nofun

theorem index_ne_diverges (pos : Nat) : index bytes pos ≠ .error .diverges := by
  unfold index
  split <;> exact nofun

theorem skipDescriptor_ne_diverges (kind : UInt8) (pos : Nat) :
    skipDescriptor width bytes kind pos ≠ .error .diverges := by
  have number := readNumber_ne_diverges width bytes
  unfold skipDescriptor
  split_ifs
  · exact bind_ne_diverges (number _) fun _ => nofun
  · exact bind_ne_diverges (number _) fun _ => bind_ne_diverges (number _) fun _ => nofun
  · refine bind_ne_diverges (number _) fun _ => bind_ne_diverges (number _) fun _ => ?_
    split_ifs
    · exact bind_ne_diverges (number _) fun _ => nofun
    · exact nofun
  · exact nofun
  · exact nofun

theorem importLoop_ne_diverges (count pos : Nat) (rejected : List String) :
    importLoop width bytes count pos rejected ≠ .error .diverges := by
  induction count generalizing pos rejected with
  | zero => exact nofun
  | succ count ih =>
      exact bind_ne_diverges (readName_ne_diverges width bytes _) fun _ =>
        bind_ne_diverges (readName_ne_diverges width bytes _) fun _ =>
        bind_ne_diverges (index_ne_diverges bytes _) fun _ =>
        bind_ne_diverges (skipDescriptor_ne_diverges width bytes _ _) fun _ => ih _ _

theorem sectionHeader_ne_diverges (pos : Nat) :
    sectionHeader width bytes pos ≠ .error .diverges :=
  bind_ne_diverges (index_ne_diverges bytes _) fun _ =>
    bind_ne_diverges (readNumber_ne_diverges width bytes _) fun _ => nofun

theorem sectionBody_done_ne_diverges {pos : Nat} {result : Except Fault ValidationResult}
    (h : sectionBody width bytes pos = .done result) : result ≠ .error .diverges := by
  unfold sectionBody at h
  split_ifs at h
  · split at h
    · rename_i fault hheader
      obtain rfl := Flow.done.inj h
      rintro ⟨⟩
      exact sectionHeader_ne_diverges width bytes pos hheader
    · split_ifs at h
      obtain rfl := Flow.done.inj h
      exact bind_ne_diverges (readNumber_ne_diverges width bytes _) fun _ =>
        bind_ne_diverges (importLoop_ne_diverges width bytes _ _ _) fun _ => nofun
  · obtain rfl := Flow.done.inj h
    exact nofun

-- The gate runs for ever only in its section loop.
theorem validateWasmImports_diverges_iff :
    validateWasmImports width bytes = .error .diverges ↔
      8 ≤ bytes.length ∧ bytes.take 4 = MAGIC ∧ ¬Halts (sectionBody width bytes) 8 := by
  unfold validateWasmImports
  split_ifs with h8 hmagic
  · simp [h8]
  · simp [hmagic]
  · rw [sectionLoop_halts_iff]
    split
    · rename_i result hloop
      obtain ⟨pos, hdone⟩ := done_of_loopFuel _ hloop
      simp [hloop, sectionBody_done_ne_diverges width bytes hdone]
    · rename_i hloop
      simp [hloop, not_not.mp hmagic, Nat.le_of_not_lt h8]

end Fault

section Board32

variable {payload : Bytes} (hlen : payload.length + 2 < 2 ^ 32)

-- An end outside the address space is less than twice as far away.
include hlen in
theorem sectionEnd_lt {offset : Nat} (hskip : SkippedAt payload offset) :
    sectionEnd payload offset < 2 ^ 32 + 2 ^ 32 := by
  obtain ⟨sectionId, hid, _⟩ := hskip
  obtain ⟨hin, _⟩ := List.getElem?_eq_some_iff.mp hid
  have hle := readLeb128U32_le (payload.drop (offset + 1))
  have hlt := lebAt_lt (payload.drop (offset + 1))
  simp only [List.length_drop] at hle
  unfold sectionEnd
  omega

include hlen in
theorem sectionBody_eq_next {offset next : Nat} :
    sectionBody 32 payload offset = .next next ↔
      SkippedAt payload offset ∧ next = sectionEnd payload offset % 2 ^ 32 := by
  cases hdrop : payload.drop offset with
  | nil =>
      have hout : payload.length ≤ offset := List.drop_eq_nil_iff.mp hdrop
      rw [sectionBody_of_ge hout, SkippedAt, List.getElem?_eq_none hout]
      simp
  | cons sectionId data =>
      obtain ⟨start, _, _, rfl, hbody⟩ := sectionBody_of_cons hlen hdrop
      obtain ⟨hindex, _, rfl⟩ := index_of_drop hdrop
      rw [hbody, SkippedAt, index_eq_ok.mp hindex]
      split_ifs with hid
      · simp [hid]
      · simp only [Flow.next.injEq, Option.some.injEq, exists_eq_left', ne_eq, hid,
          not_false_eq_true, true_and, add, sectionEnd]
        exact eq_comm

-- Every cursor on the way round the ring goes on to another one.
include hlen in
theorem Ring.not_halts {overlong : Set Nat} (ring : Ring payload overlong) :
    ¬Halts (sectionBody 32 payload) 8 := by
  refine not_halts_of_recurrent _ {offset | ∃ again ∈ overlong, Chain payload again offset} ?_
    ring.entered
  rintro offset ⟨again, hagain, hchain⟩
  refine ⟨_, ?_, (sectionBody_eq_next hlen).mpr ⟨?_, rfl⟩⟩
  · cases hchain with
    | here =>
        have hlt := sectionEnd_lt hlen (ring.long _ hagain).skipped
        have hfar := (ring.long _ hagain).far
        rw [Nat.mod_eq_sub_mod hfar, Nat.mod_eq_of_lt (by omega)]
        exact ring.closed _ hagain
    | skip hskip hnear hlater =>
        rw [Nat.mod_eq_of_lt hnear]
        exact ⟨again, hagain, hlater⟩
  · cases hchain with
    | here => exact (ring.long _ hagain).skipped
    | skip hskip hnear hlater => exact hskip

-- A cursor from which the loop is never left comes to an overlong section, since every
-- other section takes it nearer to the end of the payload.
include hlen in
theorem overlong_of_not_halts (offset : Nat) (h : ¬Halts (sectionBody 32 payload) offset) :
    ∃ far, ¬Halts (sectionBody 32 payload) far ∧ Overlong payload far ∧
      Chain payload far offset := by
  obtain ⟨next, hbody, hnext⟩ := next_of_not_halts _ h
  obtain ⟨hskip, rfl⟩ := (sectionBody_eq_next hlen).mp hbody
  by_cases hnear : sectionEnd payload offset < 2 ^ 32
  · have hin : offset < payload.length := sectionBody_next_lt hbody
    have hmore : offset < sectionEnd payload offset := by
      unfold sectionEnd
      omega
    rw [Nat.mod_eq_of_lt hnear] at hnext
    obtain ⟨far, hfar, hlong, hchain⟩ := overlong_of_not_halts _ hnext
    exact ⟨far, hfar, hlong, .skip hskip hnear hchain⟩
  · exact ⟨offset, h, ⟨hskip, by omega⟩, .here⟩
termination_by payload.length - offset

include hlen in
theorem not_halts_iff_ring :
    ¬Halts (sectionBody 32 payload) 8 ↔ ∃ overlong : Set Nat, Ring payload overlong := by
  constructor
  · intro h
    refine ⟨{far | ¬Halts (sectionBody 32 payload) far ∧ Overlong payload far}, ?_, ?_, ?_⟩
    · exact fun far hfar => hfar.2
    · obtain ⟨far, hfar, hlong, hchain⟩ := overlong_of_not_halts hlen 8 h
      exact ⟨far, ⟨hfar, hlong⟩, hchain⟩
    · rintro far ⟨hfar, hlong⟩
      obtain ⟨next, hbody, hnext⟩ := next_of_not_halts _ hfar
      obtain ⟨hskip, rfl⟩ := (sectionBody_eq_next hlen).mp hbody
      have hlt := sectionEnd_lt hlen hskip
      have hge := hlong.far
      rw [Nat.mod_eq_sub_mod hge, Nat.mod_eq_of_lt (by omega)] at hnext
      obtain ⟨again, hagain, hlong', hchain⟩ := overlong_of_not_halts hlen _ hnext
      exact ⟨again, ⟨hagain, hlong'⟩, hchain⟩
  · rintro ⟨overlong, ring⟩
    exact ring.not_halts hlen

end Board32

-- On a 32-bit board the gate ends, with a result or a panic, exactly when it turns the
-- payload down for its first bytes or no overlong sections lead back to themselves.
theorem validateWasmImports_ends_iff (payload : Bytes) (hlen : payload.length < 2 ^ 31) :
    validateWasmImports 32 payload ≠ .error .diverges ↔
      payload.length < 8 ∨ payload.take 4 ≠ MAGIC ∨
        ¬∃ overlong : Set Nat, Ring payload overlong := by
  rw [Ne, validateWasmImports_diverges_iff, not_halts_iff_ring (by omega), not_and_or, not_and_or,
    Nat.not_le]

-- A custom section of 0xFFFFFFFA bytes takes the cursor back to its own header.
theorem validateWasmImports_diverges :
    validateWasmImports 32
        [0x00, 0x61, 0x73, 0x6D, 0x01, 0x00, 0x00, 0x00, 0x00, 0xFA, 0xFF, 0xFF, 0xFF, 0x0F] =
      .error .diverges := by
  decide

-- A custom section of three bytes and an overlong type section, 2 ^ 32 below whose end
-- the content of the custom section reads as an import section without entries.
def overlongTypes : Bytes :=
  [0x00, 0x61, 0x73, 0x6D, 0x01, 0x00, 0x00, 0x00] ++ [0x00, 0x03, 0x02, 0x01, 0x00] ++
    [0x01, 0xF7, 0xFF, 0xFF, 0xFF, 0x0F]

theorem overlongTypes_no_ring :
    Overlong overlongTypes 13 ∧ ¬∃ overlong : Set Nat, Ring overlongTypes overlong := by
  refine ⟨⟨⟨0x01, by decide, by decide⟩, by decide⟩, ?_⟩
  rcases (validateWasmImports_ends_iff overlongTypes (by decide)).mp (by decide) with h | h | h
  · exact absurd h (by decide)
  · exact absurd rfl h
  · exact h

end Milo.Engine.Validation
