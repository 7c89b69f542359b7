import Milo.Engine.Validation.Number

namespace Milo.Engine.Validation

open Milo.Lib Milo.Rust

-- A length and that many bytes at the head of the data, and what lies behind them.
def NameRead (data name rest : Bytes) : Prop :=
  (lebAt data).2 = name ++ rest ∧ name.length = (lebAt data).1

-- What lies behind a descriptor, none where the data ends inside its fixed bytes.
def afterDescriptor (kind : UInt8) (data : Bytes) : Option Bytes :=
  if kind = 0x00 then some (lebAt data).2
  else if kind = 0x01 then
    match data with
    | [] => none
    | _ :: limits => some (lebAt (lebAt limits).2).2
  else if kind = 0x02 then
    if (readLeb128U32 data).1 &&& 1 ≠ 0 then some (lebAt (lebAt (lebAt data).2).2).2
    else some (lebAt (lebAt data).2).2
  else if kind = 0x03 then
    match data with
    | _ :: _ :: rest => some rest
    | _ => none
  else some data

def fieldText (field : Bytes) : String := (fromUtf8 field).getD ""

def rejectedField (kind : UInt8) (field : Bytes) : List String :=
  if kind = 0x00 ∧ !ALLOWED_IMPORTS.contains (fieldText field) then [fieldText field] else []

-- The data starts with that many import entries, whose rejected function names
-- are these. Only the last entry may be a global cut short.
inductive ImportsRead : Nat → Bytes → List String → Prop where
  | nil (data : Bytes) : ImportsRead 0 data []
  | entry {count : Nat} {data module afterModule field tail rest : Bytes} {kind : UInt8}
      {names : List String} (hmodule : NameRead data module afterModule)
      (hfield : NameRead afterModule field (kind :: tail))
      (hrest : afterDescriptor kind tail = some rest) (hread : ImportsRead count rest names) :
      ImportsRead (count + 1) data (rejectedField kind field ++ names)
  | cutGlobal {data module afterModule field tail : Bytes} (hmodule : NameRead data module afterModule)
      (hfield : NameRead afterModule field (0x03 :: tail)) (hcut : tail.length < 2) :
      ImportsRead 1 data []

-- The data is a chain of sections up to its end or to a complete import section.
inductive SectionsRead : Bytes → List String → Prop where
  | ended : SectionsRead [] []
  | skipped {sectionId : UInt8} {data : Bytes} {names : List String} (hid : sectionId ≠ 2)
      (hread : SectionsRead ((lebAt data).2.drop (lebAt data).1) names) :
      SectionsRead (sectionId :: data) names
  | imports {data : Bytes} {names : List String}
      (hread : ImportsRead (lebAt (lebAt data).2).1 (lebAt (lebAt data).2).2 names) :
      SectionsRead (2 :: data) names

theorem NameRead.unique {data name rest name' rest' : Bytes} (h : NameRead data name rest)
    (h' : NameRead data name' rest') : name = name' ∧ rest = rest' :=
  List.append_inj (h.1.symm.trans h'.1) (h.2.trans h'.2.symm)

theorem afterDescriptor_cutGlobal {tail : Bytes} (hcut : tail.length < 2) :
    afterDescriptor 0x03 tail = none := by
  rcases tail with _ | ⟨a, _ | ⟨b, tail⟩⟩
  · rfl
  · rfl
  · simp only [List.length_cons] at hcut
    omega

theorem index_of_drop {bytes tail : Bytes} {pos : Nat} {byte : UInt8}
    (h : bytes.drop pos = byte :: tail) :
    index bytes pos = .ok byte ∧ pos < bytes.length ∧ bytes.drop (pos + 1) = tail := by
  have hl := congrArg List.length h
  simp only [List.length_drop, List.length_cons] at hl
  have hp : pos < bytes.length := by omega
  rw [List.drop_eq_getElem_cons hp] at h
  obtain ⟨rfl, rfl⟩ := List.cons.inj h
  exact ⟨index_eq_ok.mpr (List.getElem?_eq_getElem hp), hp, rfl⟩

section Cursor

variable {width : Nat} {bytes : Bytes} (h32 : 32 ≤ width) (hlen : bytes.length + 2 < 2 ^ width)

include hlen in
theorem readNumber_spec {pos : Nat} (hpos : pos ≤ bytes.length) :
    ∃ stop, readNumber width bytes pos = .ok ((readLeb128U32 (bytes.drop pos)).1, stop) ∧
      pos ≤ stop ∧ stop ≤ bytes.length ∧ bytes.drop stop = (lebAt (bytes.drop pos)).2 := by
  have hle := readLeb128U32_le (bytes.drop pos)
  simp only [List.length_drop] at hle
  exact ⟨_, readNumber_eq hpos (by omega), by omega, by omega, by simp [lebAt, List.drop_drop]⟩

-- A length that leads out of the address space leads to a slice that ends before
-- it starts.
include h32 hlen in
theorem slice_add {pos : Nat} (hpos : pos ≤ bytes.length) (len : UInt32) :
    slice bytes pos (add width pos len.toNat) =
      if pos + len.toNat ≤ bytes.length then .ok ((bytes.drop pos).take len.toNat)
      else .error .panic := by
  have hlt := len.toNat_lt
  have hpow : 2 ^ 32 ≤ 2 ^ width := Nat.pow_le_pow_right (by omega) h32
  split_ifs with hin
  · rw [add_eq_of_lt (by omega), slice, if_pos ⟨by omega, hin⟩, List.drop_take,
      Nat.add_sub_cancel_left]
  · have hout : ¬(pos ≤ add width pos len.toNat ∧ add width pos len.toNat ≤ bytes.length) := by
      unfold add
      by_cases hwrap : pos + len.toNat < 2 ^ width
      · rw [Nat.mod_eq_of_lt hwrap]
        omega
      · rw [Nat.mod_eq_sub_mod (by omega), Nat.mod_eq_of_lt (by omega)]
        omega
    rw [slice, if_neg hout]

include h32 hlen in
theorem readName_eq_ok {pos stop : Nat} {text : String} (hpos : pos ≤ bytes.length) :
    readName width bytes pos = .ok (text, stop) ↔
      ∃ name, NameRead (bytes.drop pos) name (bytes.drop stop) ∧ stop ≤ bytes.length ∧
        text = fieldText name := by
  obtain ⟨start, hnum, _, hstart, hdrop⟩ := readNumber_spec hlen hpos
  have hvalue : (lebAt (bytes.drop pos)).1 = (readLeb128U32 (bytes.drop pos)).1.toNat := rfl
  have hlt := (readLeb128U32 (bytes.drop pos)).1.toNat_lt
  have hpow : 2 ^ 32 ≤ 2 ^ width := Nat.pow_le_pow_right (by omega) h32
  simp only [readName, hnum, NameRead, ← hdrop, hvalue]
  generalize (readLeb128U32 (bytes.drop pos)).1 = len at hlt ⊢
  change (slice bytes start (add width start len.toNat) >>= fun name =>
    .ok ((fromUtf8 name).getD "", add width start len.toNat)) = .ok (text, stop) ↔ _
  rw [slice_add h32 hlen hstart]
  by_cases hin : start + len.toNat ≤ bytes.length
  · rw [if_pos hin, add_eq_of_lt (by omega)]
    constructor
    · intro h
      obtain ⟨rfl, rfl⟩ : fieldText ((bytes.drop start).take len.toNat) = text ∧
          start + len.toNat = stop := by
        simpa [bind, Except.bind, fieldText] using h
      refine ⟨_, ⟨?_, ?_⟩, hin, rfl⟩
      · rw [← List.drop_drop, List.take_append_drop]
      · simp only [List.length_take, List.length_drop]
        omega
    · rintro ⟨name, ⟨happ, hnl⟩, hstop, rfl⟩
      have hname : (bytes.drop start).take len.toNat = name := by
        rw [happ, ← hnl, List.take_left]
      have hl := congrArg List.length happ
      simp only [List.length_drop, List.length_append] at hl
      rw [hname, show start + len.toNat = stop by omega]
      rfl
  · rw [if_neg hin]
    constructor
    · intro h
      cases h
    · rintro ⟨name, ⟨happ, hnl⟩, hstop, _⟩
      have hl := congrArg List.length happ
      simp only [List.length_drop, List.length_append] at hl
      omega

include h32 hlen in
theorem readName_of_nameRead {pos : Nat} {name rest : Bytes} (hpos : pos ≤ bytes.length)
    (h : NameRead (bytes.drop pos) name rest) :
    ∃ stop, readName width bytes pos = .ok (fieldText name, stop) ∧ stop ≤ bytes.length ∧
      bytes.drop stop = rest := by
  obtain ⟨start, _, _, hstart, hdrop⟩ := readNumber_spec hlen hpos
  have happ : bytes.drop start = name ++ rest := hdrop.trans h.1
  have hl := congrArg List.length happ
  simp only [List.length_drop, List.length_append] at hl
  have hrest : bytes.drop (start + name.length) = rest := by
    rw [← List.drop_drop, happ, List.drop_left]
  refine ⟨start + name.length, ?_, by omega, hrest⟩
  exact (readName_eq_ok h32 hlen hpos).mpr ⟨name, hrest.symm ▸ h, by omega, rfl⟩

-- Where the descriptor is complete the cursor stops right behind it.
include hlen in
theorem skipDescriptor_eq_ok {kind : UInt8} {pos : Nat} {rest : Bytes} (hpos : pos ≤ bytes.length)
    (hrest : afterDescriptor kind (bytes.drop pos) = some rest) :
    ∃ stop, skipDescriptor width bytes kind pos = .ok stop ∧ stop ≤ bytes.length ∧
      bytes.drop stop = rest := by
  unfold afterDescriptor at hrest
  unfold skipDescriptor
  split_ifs at hrest ⊢ with h0 h1 h2 h3
  · obtain ⟨stop, hn, _, hs, hd⟩ := readNumber_spec hlen hpos
    exact ⟨stop, by rw [hn]; rfl, hs, hd.trans (Option.some.inj hrest)⟩
  · cases hdata : bytes.drop pos with
    | nil => simp [hdata] at hrest
    | cons reftype limits =>
        have hin := congrArg List.length hdata
        simp only [List.length_drop, List.length_cons] at hin
        have hlimits : bytes.drop (pos + 1) = limits := by rw [← List.drop_drop, hdata]; rfl
        obtain ⟨s1, hn1, _, hs1, hd1⟩ := readNumber_spec hlen (show pos + 1 ≤ bytes.length by omega)
        obtain ⟨s2, hn2, _, hs2, hd2⟩ := readNumber_spec hlen hs1
        rw [hd1, hlimits] at hd2
        rw [hdata] at hrest
        exact ⟨s2, by rw [add_eq_of_lt (by omega), hn1]; simp only [bind, Except.bind, hn2]; rfl, hs2,
          hd2.trans (Option.some.inj hrest)⟩
  · obtain ⟨s1, hn1, _, hs1, hd1⟩ := readNumber_spec hlen hpos
    obtain ⟨s2, hn2, _, hs2, hd2⟩ := readNumber_spec hlen hs1
    obtain ⟨s3, hn3, _, hs3, hd3⟩ := readNumber_spec hlen hs2
    rw [hd2, hd1] at hd3
    refine ⟨s3, ?_, hs3, hd3.trans (Option.some.inj hrest)⟩
    rw [hn1]
    simp only [bind, Except.bind, hn2, if_pos h3, hn3]
    rfl
  · obtain ⟨s1, hn1, _, hs1, hd1⟩ := readNumber_spec hlen hpos
    obtain ⟨s2, hn2, _, hs2, hd2⟩ := readNumber_spec hlen hs1
    rw [hd1] at hd2
    refine ⟨s2, ?_, hs2, hd2.trans (Option.some.inj hrest)⟩
    rw [hn1]
    simp only [bind, Except.bind, hn2, if_neg h3]
    rfl
  · rcases hdata : bytes.drop pos with _ | ⟨valtype, _ | ⟨mutability, tail⟩⟩
    · simp [hdata] at hrest
    · simp [hdata] at hrest
    · have hin := congrArg List.length hdata
      simp only [List.length_drop, List.length_cons] at hin
      rw [hdata] at hrest
      refine ⟨pos + 2, ?_, by omega, ?_⟩
      · rw [add_eq_of_lt (show pos + 1 < 2 ^ width by omega), add_eq_of_lt (by omega)]
        rfl
      · rw [← List.drop_drop, hdata]
        exact Option.some.inj hrest
  · exact ⟨pos, rfl, hpos, Option.some.inj hrest⟩

-- Where it is not, a global moves the cursor past the end and a table stops the parser.
include hlen in
theorem skipDescriptor_of_none {kind : UInt8} {pos stop : Nat} (hpos : pos ≤ bytes.length)
    (hrest : afterDescriptor kind (bytes.drop pos) = none)
    (hok : skipDescriptor width bytes kind pos = .ok stop) :
    kind = 0x03 ∧ (bytes.drop pos).length < 2 ∧ bytes.length < stop := by
  unfold afterDescriptor at hrest
  unfold skipDescriptor at hok
  split_ifs at hrest hok with h0 h1 h2 h3
  · cases hdata : bytes.drop pos with
    | cons reftype limits => simp [hdata] at hrest
    | nil =>
        have hin := congrArg List.length hdata
        simp only [List.length_drop, List.length_nil] at hin
        rw [add_eq_of_lt (by omega), readNumber_of_gt (by omega)] at hok
        cases hok
  · rcases hdata : bytes.drop pos with _ | ⟨valtype, _ | ⟨mutability, tail⟩⟩
    · have hin := congrArg List.length hdata
      simp only [List.length_drop, List.length_nil] at hin
      rw [add_eq_of_lt (show pos + 1 < 2 ^ width by omega), add_eq_of_lt (by omega)] at hok
      obtain rfl := Except.ok.inj hok
      exact ⟨‹kind = 0x03›, by simp, by omega⟩
    · have hin := congrArg List.length hdata
      simp only [List.length_drop, List.length_cons, List.length_nil] at hin
      rw [add_eq_of_lt (show pos + 1 < 2 ^ width by omega), add_eq_of_lt (by omega)] at hok
      obtain rfl := Except.ok.inj hok
      exact ⟨‹kind = 0x03›, by simp, by omega⟩
    · simp [hdata] at hrest

theorem readName_of_gt {pos : Nat} (hpos : bytes.length < pos) :
    readName width bytes pos = .error .panic := by
  simp only [readName, readNumber_of_gt hpos]
  rfl

theorem accumulate_rejected (kind : UInt8) (field : Bytes) (rejected : List String) :
    (if kind = 0x00 ∧ !ALLOWED_IMPORTS.contains (fieldText field) then rejected ++ [fieldText field]
      else rejected) = rejected ++ rejectedField kind field := by
  unfold rejectedField
  split_ifs <;> simp

-- The import loop returns a list exactly when the entries can all be read, and
-- then it returns the rejected names behind the ones it already had.
include h32 hlen in
theorem importLoop_eq_ok (count pos : Nat) (rejected result : List String)
    (hpos : pos ≤ bytes.length) :
    importLoop width bytes count pos rejected = .ok result ↔
      ∃ names, ImportsRead count (bytes.drop pos) names ∧ result = rejected ++ names := by
  induction count generalizing pos rejected with
  | zero =>
      constructor
      · intro h
        obtain rfl := Except.ok.inj h
        exact ⟨[], .nil _, by simp⟩
      · rintro ⟨names, hread, rfl⟩
        cases hread
        simp [importLoop]
  | succ count ih =>
      simp only [importLoop, bind_eq_ok, Prod.exists]
      constructor
      · rintro ⟨_, p1, hmodule, _, p2, hfield, kind, hkind, stop, hdesc, hloop⟩
        obtain ⟨module, hm, hp1, -⟩ := (readName_eq_ok h32 hlen hpos).mp hmodule
        obtain ⟨field, hf, hp2, rfl⟩ := (readName_eq_ok h32 hlen hp1).mp hfield
        obtain ⟨hp2', rfl⟩ := List.getElem?_eq_some_iff.mp (index_eq_ok.mp hkind)
        rw [List.drop_eq_getElem_cons hp2'] at hf
        rw [add_eq_of_lt (by omega)] at hdesc
        rw [accumulate_rejected] at hloop
        cases hrest : afterDescriptor bytes[p2] (bytes.drop (p2 + 1)) with
        | some rest =>
            obtain ⟨stop', hok, hstop, hd⟩ := skipDescriptor_eq_ok hlen (by omega) hrest
            obtain rfl := Except.ok.inj (hok.symm.trans hdesc)
            obtain ⟨names, hread, rfl⟩ := (ih stop' _ hstop).mp hloop
            exact ⟨_, .entry hm hf hrest (hd ▸ hread), by simp⟩
        | none =>
            obtain ⟨hk, hcut, hstop⟩ := skipDescriptor_of_none hlen (by omega) hrest hdesc
            cases count with
            | zero =>
                obtain rfl := Except.ok.inj hloop
                exact ⟨[], .cutGlobal hm (hk ▸ hf) hcut, by simp [rejectedField, hk]⟩
            | succ count =>
                simp only [importLoop, readName_of_gt hstop] at hloop
                cases hloop
      · rintro ⟨names, hread, rfl⟩
        cases hread with
        | @entry _ _ module afterModule field tail rest kind names hm hf hrest hread =>
            obtain ⟨p1, hmodule, hp1, rfl⟩ := readName_of_nameRead h32 hlen hpos hm
            obtain ⟨p2, hfield, hp2, hd⟩ := readName_of_nameRead h32 hlen hp1 hf
            obtain ⟨hkind, hp2', rfl⟩ := index_of_drop hd
            obtain ⟨stop, hdesc, hstop, rfl⟩ := skipDescriptor_eq_ok hlen (by omega) hrest
            refine ⟨_, p1, hmodule, _, p2, hfield, kind, hkind, stop, ?_, ?_⟩
            · rwa [add_eq_of_lt (by omega)]
            · rw [accumulate_rejected]
              exact (ih stop _ hstop).mpr ⟨names, hread, by simp⟩
        | @cutGlobal _ module afterModule field tail hm hf hcut =>
            obtain ⟨p1, hmodule, hp1, rfl⟩ := readName_of_nameRead h32 hlen hpos hm
            obtain ⟨p2, hfield, hp2, hd⟩ := readName_of_nameRead h32 hlen hp1 hf
            obtain ⟨hkind, hp2', rfl⟩ := index_of_drop hd
            refine ⟨_, p1, hmodule, _, p2, hfield, 0x03, hkind, _, rfl, ?_⟩
            simp [importLoop]

end Cursor

end Milo.Engine.Validation
