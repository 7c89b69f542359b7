import Milo.Engine.Validation.Grammar

namespace Milo.Engine.Validation

open Milo.Lib Milo.Rust

def accepted (names : List String) : ValidationResult :=
  { valid := names.isEmpty, rejectedImports := names }

section Cursor

variable {width : Nat} {bytes : Bytes} (h32 : 32 ≤ width) (hlen : bytes.length + 2 < 2 ^ width)

include h32 hlen in
theorem importSection_eq_ok {pos : Nat} (hpos : pos ≤ bytes.length) (result : ValidationResult) :
    importSection width bytes pos = .ok result ↔
      ∃ names, ImportsRead (lebAt (bytes.drop pos)).1 (lebAt (bytes.drop pos)).2 names ∧
        result = accepted names := by
  obtain ⟨start, hnum, _, hstart, hdrop⟩ := readNumber_spec hlen hpos
  have hcount : (lebAt (bytes.drop pos)).1 = (readLeb128U32 (bytes.drop pos)).1.toNat := rfl
  rw [← hdrop, hcount]
  generalize (readLeb128U32 (bytes.drop pos)).1 = count at hnum
  constructor
  · intro h
    simp only [importSection, bind_eq_ok, hnum, Prod.exists] at h
    obtain ⟨_, _, he, names, hloop, hr⟩ := h
    obtain ⟨rfl, rfl⟩ := Prod.mk.inj (Except.ok.inj he)
    obtain ⟨more, hread, rfl⟩ := (importLoop_eq_ok h32 hlen _ _ _ _ hstart).mp hloop
    exact ⟨names, hread, (Except.ok.inj hr).symm⟩
  · rintro ⟨names, hread, rfl⟩
    have hloop := (importLoop_eq_ok h32 hlen count.toNat start [] names hstart).mpr
      ⟨names, hread, rfl⟩
    simp only [importSection, bind_eq_ok, hnum, Prod.exists]
    exact ⟨count, start, rfl, names, hloop, rfl⟩

include hlen in
theorem sectionBody_of_cons {pos : Nat} {sectionId : UInt8} {data : Bytes}
    (h : bytes.drop pos = sectionId :: data) :
    ∃ start, start ≤ bytes.length ∧ bytes.drop start = (lebAt data).2 ∧
      start = pos + 1 + (readLeb128U32 data).2 ∧
      sectionBody width bytes pos =
        if sectionId = 2 then .done (importSection width bytes start)
        else .next (add width start (lebAt data).1) := by
  obtain ⟨hid, hpos, hdata⟩ := index_of_drop h
  obtain ⟨start, hnum, _, hstart, hdrop⟩ :=
    readNumber_spec hlen (show pos + 1 ≤ bytes.length by omega)
  have hheader : sectionHeader width bytes pos =
      .ok (sectionId, (readLeb128U32 (bytes.drop (pos + 1))).1, start) := by
    simp only [sectionHeader, bind_eq_ok]
    exact ⟨sectionId, hid, _, by rw [add_eq_of_lt (by omega)]; exact hnum, rfl⟩
  rw [hdata] at hheader hdrop
  have hvalue : readNumber width bytes (pos + 1) = _ :=
    readNumber_eq (show pos + 1 ≤ bytes.length by omega) (by omega)
  rw [hnum, hdata] at hvalue
  refine ⟨start, hstart, hdrop, (Prod.mk.inj (Except.ok.inj hvalue)).2, ?_⟩
  simp only [sectionBody, hpos, if_true, hheader]
  rfl

theorem sectionBody_of_ge {pos : Nat} (hpos : bytes.length ≤ pos) :
    sectionBody width bytes pos = .done (.ok (accepted [])) := by
  simp only [sectionBody, show ¬pos < bytes.length by omega, if_false]
  rfl

theorem sectionBody_next_lt {pos pos' : Nat} (h : sectionBody width bytes pos = .next pos') :
    pos < bytes.length := by
  by_contra hpos
  rw [sectionBody_of_ge (by omega)] at h
  cases h

theorem sectionLoop_halts_iff (pos : Nat) :
    Halts (sectionBody width bytes) pos ↔
      ∃ r, loopFuel (sectionBody width bytes) (bytes.length + 1) pos = some r :=
  halts_iff_loopFuel _ id Function.injective_id bytes.length
    (fun _ _ h => sectionBody_next_lt h) pos

-- The fuel of the model is no limit: any run of the loop that ends is its run.
theorem validateWasmImports_of_loop {fuel : Nat} {r : Except Fault ValidationResult}
    (h8 : 8 ≤ bytes.length) (hmagic : bytes.take 4 = MAGIC)
    (h : loopFuel (sectionBody width bytes) fuel 8 = some r) :
    validateWasmImports width bytes = r := by
  obtain ⟨r', hr'⟩ := (sectionLoop_halts_iff 8).mp ⟨fuel, r, h⟩
  have hmax := loopFuel_mono _ (Nat.le_max_left fuel (bytes.length + 1)) h
  rw [loopFuel_mono _ (Nat.le_max_right fuel (bytes.length + 1)) hr'] at hmax
  obtain rfl := Option.some.inj hmax
  simp only [validateWasmImports, show ¬bytes.length < 8 by omega, if_false, hmagic, ne_eq,
    not_true_eq_false, hr']

theorem loop_of_validateWasmImports {result : ValidationResult}
    (h8 : 8 ≤ bytes.length) (hmagic : bytes.take 4 = MAGIC)
    (h : validateWasmImports width bytes = .ok result) :
    loopFuel (sectionBody width bytes) (bytes.length + 1) 8 = some (.ok result) := by
  simp only [validateWasmImports, show ¬bytes.length < 8 by omega, if_false, hmagic, ne_eq,
    not_true_eq_false] at h
  split at h
  · rename_i hr
    rw [hr, h]
  · cases h

-- Where the address space is larger than the payload and any declared size
-- together, the section loop follows the chain of sections.
include h32 hlen in
theorem sectionLoop_eq_ok (hfar : bytes.length + 2 ^ 32 ≤ 2 ^ width) (pos : Nat)
    (result : ValidationResult) :
    (∃ fuel, loopFuel (sectionBody width bytes) fuel pos = some (.ok result)) ↔
      ∃ names, SectionsRead (bytes.drop pos) names ∧ result = accepted names := by
  constructor
  · rintro ⟨fuel, h⟩
    induction fuel generalizing pos with
    | zero => cases h
    | succ fuel ih =>
        cases hdrop : bytes.drop pos with
        | nil =>
            have hpos : bytes.length ≤ pos := List.drop_eq_nil_iff.mp hdrop
            rw [loopFuel_succ_of_done _ (sectionBody_of_ge hpos)] at h
            exact ⟨[], .ended, (Except.ok.inj (Option.some.inj h)).symm⟩
        | cons sectionId data =>
            obtain ⟨start, hstart, hcontent, _, hbody⟩ := sectionBody_of_cons hlen hdrop
            by_cases hid : sectionId = 2
            · rw [if_pos hid] at hbody
              rw [loopFuel_succ_of_done _ hbody] at h
              obtain ⟨names, hread, rfl⟩ :=
                (importSection_eq_ok h32 hlen hstart result).mp (Option.some.inj h)
              rw [hcontent] at hread
              exact ⟨names, hid ▸ .imports hread, rfl⟩
            · have hlt := lebAt_lt data
              rw [if_neg hid, add_eq_of_lt (by omega)] at hbody
              rw [loopFuel_succ_of_next _ hbody] at h
              obtain ⟨names, hread, rfl⟩ := ih _ h
              rw [← List.drop_drop, hcontent] at hread
              exact ⟨names, .skipped hid hread, rfl⟩
  · rintro ⟨names, hread, rfl⟩
    generalize hdrop : bytes.drop pos = rest at hread
    induction hread generalizing pos with
    | ended =>
        exact ⟨1, loopFuel_succ_of_done _ (sectionBody_of_ge (List.drop_eq_nil_iff.mp hdrop)) 0⟩
    | @skipped sectionId data names hid hread ih =>
        obtain ⟨start, hstart, hcontent, _, hbody⟩ := sectionBody_of_cons hlen hdrop
        have hlt := lebAt_lt data
        rw [if_neg hid, add_eq_of_lt (by omega)] at hbody
        obtain ⟨fuel, hf⟩ := ih (start + (lebAt data).1) (by rw [← List.drop_drop, hcontent])
        exact ⟨fuel + 1, by rw [loopFuel_succ_of_next _ hbody, hf]⟩
    | @imports data names hread =>
        obtain ⟨start, hstart, hcontent, _, hbody⟩ := sectionBody_of_cons hlen hdrop
        rw [if_pos rfl] at hbody
        have hsection := (importSection_eq_ok h32 hlen hstart (accepted names)).mpr
          ⟨names, by rwa [hcontent], rfl⟩
        exact ⟨1, by rw [loopFuel_succ_of_done _ hbody, hsection]⟩

end Cursor

end Milo.Engine.Validation
