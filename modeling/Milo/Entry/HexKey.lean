import Milo.Entry.Provisioning
import Milo.Lib.Fill
import Milo.Lib.Json

-- Which key a text gives the two readers of the trust anchor.
namespace Milo.Entry

open Milo.Rust Milo.Engine.Signing Milo.Lib
open Milo.Lib.Json (hexDigit)

-- The key that 64 hexadecimal digits encode.
def hexKey (hex : String) : Option PublicKey := do
  let digits ← hex.toList.mapM hexDigit
  if digits.length ≠ 2 * PUBKEY_LEN then failure
  return Vector.ofFn fun i : Fin PUBKEY_LEN =>
    UInt8.ofNat (16 * digits.getD (i.val * 2) 0 + digits.getD (i.val * 2 + 1) 0)

theorem hexKey_of_digits {hex : String} {digits : List Nat} (h : hex.toList.mapM hexDigit = some digits) :
    hexKey hex =
      if digits.length ≠ 64 then none
      else some (Vector.ofFn fun i : Fin PUBKEY_LEN =>
        UInt8.ofNat (16 * digits.getD (i.val * 2) 0 + digits.getD (i.val * 2 + 1) 0)) := by
  rw [hexKey, h]
  rfl

section Digits

theorem hexDigit_lt {c : Char} {d : Nat} (h : hexDigit c = some d) : d < 16 := by
  unfold hexDigit at h
  split_ifs at h with h₁ h₂ h₃
  all_goals
    obtain rfl := Option.some.inj h
    simp only [Char.le_def, UInt32.le_iff_toNat_le, Char.toNat] at *
    simp at *
    omega

theorem hexNibble_ofNat {n : Nat} (h : n < 128) :
    hexNibble (UInt8.ofNat n) = (hexDigit (Char.ofNat n)).map UInt8.ofNat := by
  revert n
  decide

theorem hexNibble_high {b : UInt8} (h : 128 ≤ b.toNat) : hexNibble b = none := by
  unfold hexNibble
  simp only [UInt8.le_iff_toNat_le]
  split_ifs with h₁ h₂ h₃
  all_goals simp at *; try omega

theorem hexDigit_high {c : Char} (h : 128 ≤ c.toNat) : hexDigit c = none := by
  unfold hexDigit
  simp only [Char.le_def, UInt32.le_iff_toNat_le, Char.toNat] at *
  split_ifs with h₁ h₂ h₃
  all_goals simp at *; try omega

-- A character with more than one byte begins with a byte that is no digit.
theorem utf8EncodeChar_high {c : Char} (h : 128 ≤ c.toNat) :
    ∃ b rest, String.utf8EncodeChar c = b :: rest ∧ 128 ≤ b.toNat := by
  have h : ¬c.val.toNat ≤ 0x7f := by
    unfold Char.toNat at h
    omega
  unfold String.utf8EncodeChar
  rw [if_neg h]
  split_ifs
  all_goals
    refine ⟨_, _, rfl, ?_⟩
    rw [UInt8.toNat_ofNat']
    omega

theorem mapM_utf8EncodeChar (c : Char) :
    (String.utf8EncodeChar c).mapM hexNibble = (hexDigit c).map fun d => [UInt8.ofNat d] := by
  by_cases h : c.toNat < 128
  · have hle : c.val.toNat ≤ 0x7f := by
      unfold Char.toNat at h
      omega
    have hnibble := hexNibble_ofNat h
    rw [Char.ofNat_toNat] at hnibble
    unfold String.utf8EncodeChar
    rw [if_pos hle, List.mapM_cons, List.mapM_nil]
    change (do let d ← hexNibble (UInt8.ofNat c.toNat); return [d]) = _
    rw [hnibble]
    cases hexDigit c <;> rfl
  · obtain ⟨b, rest, hbytes, hb⟩ := utf8EncodeChar_high (Nat.le_of_not_lt h)
    rw [hbytes, List.mapM_cons, hexNibble_high hb, hexDigit_high (Nat.le_of_not_lt h)]
    rfl

theorem intoBytes_eq_flatMap (s : String) : intoBytes s = s.toList.flatMap String.utf8EncodeChar := by
  obtain ⟨cs, rfl⟩ : ∃ cs, s = String.ofList cs := ⟨s.toList, String.ofList_toList.symm⟩
  rw [intoBytes, String.toByteArray_ofList, List.utf8Encode, List.toList_data_toByteArray,
    String.toList_ofList]

theorem mapM_flatMap_utf8EncodeChar (cs : List Char) :
    (cs.flatMap String.utf8EncodeChar).mapM hexNibble = (cs.mapM hexDigit).map (List.map UInt8.ofNat) := by
  induction cs with
  | nil => rfl
  | cons c cs ih =>
      rw [List.flatMap_cons, List.mapM_append, mapM_utf8EncodeChar, ih, List.mapM_cons]
      cases hexDigit c with
      | none => rfl
      | some d => cases cs.mapM hexDigit <;> rfl

theorem mapM_intoBytes (s : String) :
    (intoBytes s).mapM hexNibble = (s.toList.mapM hexDigit).map (List.map UInt8.ofNat) := by
  rw [intoBytes_eq_flatMap, mapM_flatMap_utf8EncodeChar]

theorem forall₂_of_mapM {α β : Type} {f : α → Option β} {l : List α} {l' : List β}
    (h : l.mapM f = some l') : List.Forall₂ (fun a b => f a = some b) l l' := by
  induction l generalizing l' with
  | nil =>
      obtain rfl := Option.some.inj h
      exact .nil
  | cons a l ih =>
      rw [List.mapM_cons] at h
      obtain ⟨b, hb, h⟩ := Option.bind_eq_some_iff.mp h
      obtain ⟨bs, hbs, h⟩ := Option.bind_eq_some_iff.mp h
      obtain rfl := Option.some.inj h
      exact .cons hb (ih hbs)

theorem mapM_isSome_iff {α β : Type} {f : α → Option β} {l : List α} :
    (l.mapM f).isSome ↔ ∀ a ∈ l, (f a).isSome := by
  induction l with
  | nil => simp
  | cons a l ih =>
      rw [List.mapM_cons, List.forall_mem_cons, ← ih]
      cases f a with
      | none => simp
      | some b => cases l.mapM f <;> simp

end Digits

section Const

def nibblePair (bytes : Bytes) (i : Fin PUBKEY_LEN) : Option UInt8 := do
  let hi ← hexNibble (← bytes[i.val * 2]?)
  let lo ← hexNibble (← bytes[i.val * 2 + 1]?)
  return hi <<< 4 ||| lo

theorem parseHexKeyConst_eq (hex : String) :
    parseHexKeyConst hex =
      if (intoBytes hex).length ≠ 64 then none
      else fill (nibblePair (intoBytes hex)) (List.finRange PUBKEY_LEN) (Vector.replicate PUBKEY_LEN 0) := by
  unfold parseHexKeyConst fill nibblePair
  simp only [bind_assoc]
  rfl

theorem shiftLeft_or {hi lo : Nat} (hhi : hi < 16) (hlo : lo < 16) :
    UInt8.ofNat hi <<< 4 ||| UInt8.ofNat lo = UInt8.ofNat (16 * hi + lo) := by
  have hall : ∀ hi < 16, ∀ lo < 16,
      UInt8.ofNat hi <<< 4 ||| UInt8.ofNat lo = UInt8.ofNat (16 * hi + lo) := by decide
  exact hall hi hhi lo hlo

-- The reader of the ESP32 images takes 64 hexadecimal digits and nothing else.
theorem parseHexKeyConst_eq_hexKey (hex : String) : parseHexKeyConst hex = hexKey hex := by
  have hbytes := mapM_intoBytes hex
  cases hdigits : hex.toList.mapM hexDigit with
  | none =>
      have hnot : ¬(parseHexKeyConst hex).isSome := by
        rw [parseHexKeyConst_isSome_iff]
        rintro ⟨-, hall⟩
        rw [hdigits] at hbytes
        rw [← mapM_isSome_iff, hbytes] at hall
        cases hall
      rw [Option.not_isSome_iff_eq_none.mp hnot, hexKey, hdigits]
      rfl
  | some digits =>
      rw [hdigits] at hbytes
      have hpairs := forall₂_of_mapM hbytes
      have hlen : (intoBytes hex).length = digits.length := by
        rw [hpairs.length_eq, List.length_map]
      rw [parseHexKeyConst_eq, hexKey_of_digits hdigits, hlen]
      split_ifs with hcount
      · rfl
      · refine fill_finRange (fun i => ?_) _
        have hi := i.isLt
        unfold PUBKEY_LEN at hi
        have hget : ∀ k < digits.length, ∃ b, (intoBytes hex)[k]? = some b ∧
            hexNibble b = some (UInt8.ofNat (digits.getD k 0)) ∧ digits.getD k 0 < 16 := by
          intro k hk
          have hk' : k < (intoBytes hex).length := hlen.symm ▸ hk
          have hb := hpairs.get hk' (by rwa [List.length_map])
          have hd := (forall₂_of_mapM hdigits).get (by rwa [(forall₂_of_mapM hdigits).length_eq]) hk
          rw [List.get_eq_getElem, List.get_eq_getElem, List.getElem_map] at hb
          rw [List.getD_eq_getElem _ _ hk]
          exact ⟨_, List.getElem?_eq_getElem hk', hb, hexDigit_lt hd⟩
        obtain ⟨a, ha, hhi, hlt⟩ := hget (i.val * 2) (by omega)
        obtain ⟨b, hb, hlo, hlt'⟩ := hget (i.val * 2 + 1) (by omega)
        rw [nibblePair, ha, hb, ← shiftLeft_or hlt hlt']
        simp [hhi, hlo]

end Const

theorem hexKey_isSome_iff (hex : String) : (hexKey hex).isSome ↔ IsHexKey hex := by
  rw [← parseHexKeyConst_eq_hexKey, parseHexKeyConst_isSome_iff]

section Std

def readPair (bytes : Bytes) (i : Fin PUBKEY_LEN) : OptionT (Except Fault) UInt8 := do
  let digits ← OptionT.lift (sliceStr bytes (i.val * 2) (i.val * 2 + 2))
  OptionT.mk (pure (fromStrRadix16 digits))

theorem parseHexKey_eq (hex : String) :
    parseHexKey hex =
      if (intoBytes (trim hex)).length ≠ 64 then failure
      else fill (readPair (intoBytes (trim hex))) (List.finRange PUBKEY_LEN)
        (Vector.replicate PUBKEY_LEN 0) := by
  unfold parseHexKey fill readPair
  simp only [bind_assoc]
  split_ifs <;> rfl

-- The slice of pair i does not cut a character.
def WholeChars (bytes : Bytes) (i : Nat) : Prop :=
  isCharBoundary bytes (i * 2) ∧ isCharBoundary bytes (i * 2 + 2)

-- Pair i is two digits, or a plus sign and one.
def Reads (bytes : Bytes) (i : Nat) : Prop :=
  WholeChars bytes i ∧ ∃ a b, bytes[i * 2]? = some a ∧ bytes[i * 2 + 1]? = some b ∧
    (a = 0x2B ∨ (hexNibble a).isSome) ∧ (hexNibble b).isSome

theorem hexNibble_lt {c d : UInt8} (h : hexNibble c = some d) : c.toNat < 128 ∧ d.toNat < 16 := by
  have hlow : ∀ n < 128, ∀ d, hexNibble (UInt8.ofNat n) = some d → d.toNat < 16 := by
    intro n hn d hd
    rw [hexNibble_ofNat hn] at hd
    obtain ⟨k, hk, rfl⟩ := Option.map_eq_some_iff.mp hd
    have hlt := hexDigit_lt hk
    rw [UInt8.toNat_ofNat']
    omega
  have hc : c.toNat < 128 := by
    by_contra hc
    rw [hexNibble_high (Nat.le_of_not_lt hc)] at h
    cases h
  exact ⟨hc, hlow c.toNat hc d (by rwa [UInt8.ofNat_toNat])⟩

theorem hexDigits_one (b : UInt8) : hexDigits [b] = hexNibble b := by
  unfold hexDigits
  cases hb : hexNibble b with
  | none => simp [hb]
  | some lo =>
      have hlt := (hexNibble_lt hb).2
      have hbound : lo.toNat < 256 := by omega
      simp [hb, hbound]

theorem hexDigits_two (a b : UInt8) :
    hexDigits [a, b] = (do
      let hi ← hexNibble a
      let lo ← hexNibble b
      return hi <<< 4 ||| lo) := by
  unfold hexDigits
  cases ha : hexNibble a with
  | none => simp [ha]
  | some hi =>
      cases hb : hexNibble b with
      | none => simp [ha, hb]
      | some lo =>
          have hhi := (hexNibble_lt ha).2
          have hlo := (hexNibble_lt hb).2
          have hfirst : hi.toNat < 256 := by omega
          have hboth : hi.toNat * 16 + lo.toNat < 256 := by omega
          have hvalue := shiftLeft_or hhi hlo
          rw [UInt8.ofNat_toNat, UInt8.ofNat_toNat, Nat.mul_comm] at hvalue
          simp [ha, hb, hfirst, hboth, hvalue]

theorem fromStrRadix16_pair (a b : UInt8) :
    fromStrRadix16 [a, b] = if a = 0x2B then hexNibble b else hexDigits [a, b] := by
  split_ifs with ha
  · subst ha
    exact hexDigits_one b
  · unfold fromStrRadix16
    split
    all_goals simp_all

theorem readPair_cut {bytes : Bytes} (i : Fin PUBKEY_LEN) (hcut : ¬WholeChars bytes i.val) :
    readPair bytes i = OptionT.mk (.error .panic) := by
  have hslice : sliceStr bytes (i.val * 2) (i.val * 2 + 2) = .error .panic :=
    if_neg fun h => hcut h.2
  rw [readPair, hslice]
  rfl

section Pair

variable {bytes : Bytes} (hlen : bytes.length = 64) (i : Fin PUBKEY_LEN)

include hlen

theorem exists_pair : ∃ a b, bytes[i.val * 2]? = some a ∧ bytes[i.val * 2 + 1]? = some b ∧
    (bytes.take (i.val * 2 + 2)).drop (i.val * 2) = [a, b] := by
  have hi := i.isLt
  unfold PUBKEY_LEN at hi
  have hhi : i.val * 2 < bytes.length := by omega
  have hlo : i.val * 2 + 1 < bytes.length := by omega
  refine ⟨_, _, List.getElem?_eq_getElem hhi, List.getElem?_eq_getElem hlo, ?_⟩
  rw [List.drop_take, List.drop_eq_getElem_cons hhi, List.drop_eq_getElem_cons hlo]
  rw [Nat.add_sub_cancel_left]
  rfl

theorem readPair_whole (hwhole : WholeChars bytes i.val) {a b : UInt8}
    (ha : bytes[i.val * 2]? = some a) (hb : bytes[i.val * 2 + 1]? = some b) :
    readPair bytes i = OptionT.mk (.ok (if a = 0x2B then hexNibble b else hexDigits [a, b])) := by
  obtain ⟨a', b', ha', hb', hpair⟩ := exists_pair hlen i
  obtain rfl := Option.some.inj (ha.symm.trans ha')
  obtain rfl := Option.some.inj (hb.symm.trans hb')
  have hslice : sliceStr bytes (i.val * 2) (i.val * 2 + 2) = .ok [a, b] := by
    rw [sliceStr, if_pos ⟨Nat.le_add_right _ 2, hwhole⟩, hpair]
  rw [readPair, hslice, ← fromStrRadix16_pair]
  rfl

theorem readPair_some (h : Reads bytes i.val) : ∃ value, readPair bytes i = pure value := by
  obtain ⟨hwhole, a, b, ha, hb, hfirst, hsecond⟩ := h
  rw [readPair_whole hlen i hwhole ha hb]
  obtain ⟨lo, hlo⟩ := Option.isSome_iff_exists.mp hsecond
  split_ifs with hplus
  · exact ⟨lo, by rw [hlo]; rfl⟩
  · obtain ⟨hi, hhi⟩ := Option.isSome_iff_exists.mp (hfirst.resolve_left hplus)
    exact ⟨hi <<< 4 ||| lo, by rw [hexDigits_two, hhi, hlo]; rfl⟩

theorem readPair_none (hwhole : WholeChars bytes i.val) (h : ¬Reads bytes i.val) :
    readPair bytes i = OptionT.mk (.ok none) := by
  obtain ⟨a, b, ha, hb, -⟩ := exists_pair hlen i
  rw [readPair_whole hlen i hwhole ha hb]
  have hnot : ¬((a = 0x2B ∨ (hexNibble a).isSome) ∧ (hexNibble b).isSome) :=
    fun hdigits => h ⟨hwhole, a, b, ha, hb, hdigits⟩
  split_ifs with hplus
  · rw [Option.not_isSome_iff_eq_none.mp fun hb => hnot ⟨.inl hplus, hb⟩]
  · rw [hexDigits_two]
    cases hhi : hexNibble a with
    | none => rfl
    | some hi =>
        cases hlo : hexNibble b with
        | none => rfl
        | some lo => exact absurd ⟨.inr (hhi ▸ rfl), hlo ▸ rfl⟩ hnot

-- The loop ends at the first pair that is none.
theorem fill_readPair (hbefore : ∀ j < i, Reads bytes j.val)
    (stop : ∀ β : Type, OptionT (Except Fault) β)
    (hstop : ∀ (β γ : Type) (f : β → OptionT (Except Fault) γ), stop β >>= f = stop γ)
    (hread : readPair bytes i = stop UInt8) (key : PublicKey) :
    fill (readPair bytes) (List.finRange PUBKEY_LEN) key = stop PublicKey := by
  have hvalue : ∀ j : Fin PUBKEY_LEN, ∃ value, j < i → readPair bytes j = pure value := by
    intro j
    by_cases hj : j < i
    · exact (readPair_some hlen j (hbefore j hj)).imp fun value h _ => h
    · exact ⟨0, fun h => absurd h hj⟩
  choose value hvalue using hvalue
  exact fill_stop stop hstop hread hvalue key

-- Two digits are the nibbles that the other reader takes them for.
theorem readPair_digits (hall : ∀ c ∈ bytes, (hexNibble c).isSome) :
    ∃ value, nibblePair bytes i = some value ∧ readPair bytes i = pure value := by
  have hboundary : ∀ k ≤ 64, isCharBoundary bytes k := by
    intro k hk
    unfold isCharBoundary
    rcases Nat.lt_or_eq_of_le hk with hlt | rfl
    · have hlt : k < bytes.length := by omega
      obtain ⟨d, hd⟩ := Option.isSome_iff_exists.mp (hall bytes[k] (List.getElem_mem hlt))
      have hascii : bytes[k] < 0x80 := UInt8.lt_iff_toNat_lt.mpr (hexNibble_lt hd).1
      rw [List.getElem?_eq_getElem hlt]
      simp [hascii]
    · simp [hlen]
  have hi := i.isLt
  unfold PUBKEY_LEN at hi
  have hwhole : WholeChars bytes i.val := ⟨hboundary _ (by omega), hboundary _ (by omega)⟩
  obtain ⟨a, b, ha, hb, -⟩ := exists_pair hlen i
  obtain ⟨hi, hhi⟩ := Option.isSome_iff_exists.mp (hall a (List.mem_of_getElem? ha))
  obtain ⟨lo, hlo⟩ := Option.isSome_iff_exists.mp (hall b (List.mem_of_getElem? hb))
  have hplus : a ≠ 0x2B := by
    rintro rfl
    cases hhi
  refine ⟨hi <<< 4 ||| lo, ?_, ?_⟩
  · rw [nibblePair, ha, hb]
    simp [hhi, hlo]
  · rw [readPair_whole hlen i hwhole ha hb, if_neg hplus, hexDigits_two, hhi, hlo]
    rfl

end Pair

end Std

-- The reader of the emulator gets as far as a pair that it rejects, if there is one.
def ReadsRight (hex : String) : Prop :=
  (intoBytes hex).length ≠ 64 ∨ IsHexKey hex ∨
    ∃ i < PUBKEY_LEN, (∀ j < i, Reads (intoBytes hex) j) ∧ WholeChars (intoBytes hex) i ∧
      ¬Reads (intoBytes hex) i

theorem exists_first_not {n : Nat} {p : Fin n → Prop} (h : ¬∀ i, p i) : ∃ i, ¬p i ∧ ∀ j < i, p j := by
  by_contra hnone
  refine h fun i => ?_
  induction i using WellFoundedLT.induction with
  | ind i ih =>
      by_contra hi
      exact hnone ⟨i, hi, ih⟩

theorem parseHexKey_run_iff (hex : String) :
    (parseHexKey hex).run = .ok (hexKey (trim hex)) ↔ ReadsRight (trim hex) := by
  have hsome := hexKey_isSome_iff (trim hex)
  rw [parseHexKey_eq]
  generalize trim hex = s at *
  by_cases hkey : IsHexKey s
  · have hlen := hkey.1
    refine iff_of_true ?_ (.inr (.inl hkey))
    choose value hnibbles hread using fun i => readPair_digits hlen i hkey.2
    rw [if_neg (not_not.mpr hlen), fill_finRange hread, ← parseHexKeyConst_eq_hexKey,
      parseHexKeyConst_eq, if_neg (not_not.mpr hlen), fill_finRange hnibbles]
    rfl
  rw [Option.not_isSome_iff_eq_none.mp fun h => hkey (hsome.mp h)]
  by_cases hlen : (intoBytes s).length = 64
  · rw [if_neg (not_not.mpr hlen)]
    by_cases hall : ∀ i : Fin PUBKEY_LEN, Reads (intoBytes s) i.val
    · -- every pair is read, so there is a key
      choose value hread using fun i => readPair_some hlen i (hall i)
      rw [fill_finRange hread]
      refine iff_of_false (fun h => by cases h) ?_
      rintro (h | h | ⟨i, hi, -, -, hnot⟩)
      · exact h hlen
      · exact hkey h
      · exact hnot (hall ⟨i, hi⟩)
    obtain ⟨first, hnot, hbefore⟩ := exists_first_not hall
    by_cases hwhole : WholeChars (intoBytes s) first.val
    · rw [fill_readPair hlen first hbefore (fun _ => OptionT.mk (.ok none)) (fun _ _ _ => rfl)
        (readPair_none hlen first hwhole hnot)]
      refine iff_of_true rfl (.inr (.inr ⟨first.val, first.isLt, fun j hj => ?_, hwhole, hnot⟩))
      exact hbefore ⟨j, Nat.lt_trans hj first.isLt⟩ hj
    · rw [fill_readPair hlen first hbefore (fun _ => OptionT.mk (.error .panic)) (fun _ _ _ => rfl)
        (readPair_cut first hwhole)]
      refine iff_of_false (fun h => by cases h) ?_
      rintro (h | h | ⟨i, hi, hreads, hwhole', hnot'⟩)
      · exact h hlen
      · exact hkey h
      · rcases Nat.lt_trichotomy i first.val with hlt | rfl | hlt
        · exact hnot' (hbefore ⟨i, hi⟩ hlt)
        · exact hwhole hwhole'
        · exact hnot (hreads first.val hlt)
  · rw [if_pos hlen]
    exact iff_of_true rfl (.inl hlen)

-- When the two readers find the key that the text stands for, and none where it stands for
-- none.
theorem hexKey_readers_iff (hex : String) :
    ((parseHexKey hex).run = .ok (hexKey (trim hex)) ∧
      (trim hex = hex → (parseHexKey hex).run = .ok (parseHexKeyConst hex)) ↔
        ReadsRight (trim hex)) ∧
    parseHexKeyConst hex = hexKey hex := by
  refine ⟨?_, parseHexKeyConst_eq_hexKey hex⟩
  rw [← parseHexKey_run_iff, parseHexKeyConst_eq_hexKey]
  exact ⟨And.left, fun h => ⟨h, fun htrim => by rwa [htrim] at h⟩⟩

-- A key with plus signs for zeroes, which only one of the readers takes, and a text with a
-- character across two pairs.
theorem hexKey_misread :
    (parseHexKey
        "+1+1+1+1+1+1+1+1+1+1+1+1+1+1+1+1+1+1+1+1+1+1+1+1+1+1+1+1+1+1+1+1").run =
      .ok (some (Vector.replicate PUBKEY_LEN 1)) ∧
    hexKey (trim
        "+1+1+1+1+1+1+1+1+1+1+1+1+1+1+1+1+1+1+1+1+1+1+1+1+1+1+1+1+1+1+1+1") =
      none ∧
    parseHexKeyConst
        "+1+1+1+1+1+1+1+1+1+1+1+1+1+1+1+1+1+1+1+1+1+1+1+1+1+1+1+1+1+1+1+1" =
      none ∧
    (parseHexKey
        "0é0000000000000000000000000000000000000000000000000000000000000").run =
      .error .panic :=
  ⟨rfl, rfl, rfl, rfl⟩

end Milo.Entry
