import Milo.Lib.Json
import Mathlib.Data.List.Forall2

-- The texts that a parser reads as a value, wherever they stand, and how they are put
-- together.
namespace Milo.Lib.Json

@[simp] theorem skip_of_not_isSpace {c : Char} (h : isSpace c = false) (rest : List Char) :
    skip (c :: rest) = c :: rest := by
  unfold skip
  rw [List.dropWhile_cons, h]
  rfl

theorem after_mark {mark : Char} (h : isSpace mark = false) (rest : List Char) :
    after mark (mark :: rest) = some rest := by
  unfold after
  rw [skip_of_not_isSpace h]
  exact if_pos rfl

theorem after_other {mark c : Char} (h : isSpace c = false) (hne : c ≠ mark) (rest : List Char) :
    after mark (c :: rest) = none := by
  unfold after
  rw [skip_of_not_isSpace h]
  exact if_neg hne

theorem behind_other {letter c : Char} (hne : letter ≠ c) (letters rest : List Char) :
    behind (letter :: letters) (c :: rest) = none := by
  unfold behind
  rw [if_neg]
  intro h
  exact hne (List.cons_prefix_cons.mp h).1

section Strings

-- A piece of text that gives a string one character.
def Gives (piece : List Char) (c : Char) : Prop :=
  ∀ rest, next (piece ++ rest) = some (some c, rest)

theorem hex4_append {ds : List Char} {n : Nat} (h : hex4 ds = some (n, [])) (rest : List Char) :
    hex4 (ds ++ rest) = some (n, rest) := by
  match ds, h with
  | c₁ :: c₂ :: c₃ :: c₄ :: tail, h =>
      simp only [List.cons_append, hex4, Option.bind_eq_bind, Option.bind_eq_some_iff] at h ⊢
      obtain ⟨d₁, h₁, d₂, h₂, d₃, h₃, d₄, h₄, h⟩ := h
      obtain ⟨rfl, rfl⟩ := Prod.mk.inj (Option.some.inj h)
      exact ⟨d₁, h₁, d₂, h₂, d₃, h₃, d₄, h₄, rfl⟩

-- The text of a string between its quotes.
def Spells (text s : List Char) : Prop :=
  ∀ fuel rest, text.length < fuel → chars fuel (text ++ '"' :: rest) = some (s, rest)

theorem gives_plain {c : Char} (h : Plain c) : Gives [c] c := by
  intro rest
  unfold next
  rw [List.cons_append, List.nil_append]
  dsimp only
  rw [if_neg h.1, if_neg h.2.1, if_pos h]

def Unescaped (s : List Char) : Prop := ∀ c ∈ s, Plain c

instance (s : List Char) : Decidable (Unescaped s) := List.decidableBAll Plain s

theorem Gives.ne_nil {piece : List Char} {c : Char} (h : Gives piece c) : piece ≠ [] := by
  rintro rfl
  have hnext := h []
  cases hnext

theorem spells_nil : Spells [] [] := by
  intro fuel rest hfuel
  obtain ⟨fuel, rfl⟩ := Nat.exists_eq_succ_of_ne_zero (Nat.ne_of_gt hfuel)
  rfl

theorem Spells.cons {piece text s : List Char} {c : Char} (hpiece : Gives piece c)
    (h : Spells text s) : Spells (piece ++ text) (c :: s) := by
  intro fuel rest hfuel
  have hne := List.length_pos_iff.mpr hpiece.ne_nil
  rw [List.length_append] at hfuel
  obtain ⟨fuel, rfl⟩ := Nat.exists_eq_succ_of_ne_zero (Nat.ne_of_gt (Nat.zero_lt_of_lt hfuel))
  unfold chars
  rw [List.append_assoc, hpiece]
  have hrest := h fuel rest (by omega)
  simp only [bind, Option.bind, hrest]
  rfl

-- The character of an escape with four digits.
theorem gives_hex4 {ds : List Char} {c : Char} (h : hex4 ds = some (c.toNat, []))
    (hlow : c.toNat < 0xD800) : Gives ('\\' :: 'u' :: ds) c := by
  intro rest
  have hread := hex4_append h rest
  have hchar : unicode (ds ++ rest) = some (c, rest) := by
    unfold unicode
    rw [hread]
    change (if c.toNat < 0xD800 ∨ 0xE000 ≤ c.toNat then some (Char.ofNat c.toNat, rest) else _) = _
    rw [if_pos (.inl hlow), Char.ofNat_toNat]
  change (unicode (ds ++ rest)).map _ = _
  rw [hchar]
  rfl

-- A string that is written character by character.
theorem spells_flatMap {write : Char → List Char} (h : ∀ c, Gives (write c) c) (s : List Char) :
    Spells (s.flatMap write) s := by
  induction s with
  | nil => exact spells_nil
  | cons c s ih => exact ih.cons (h c)

theorem Spells.plain_append {s text s' : List Char} (hs : Unescaped s) (h : Spells text s') :
    Spells (s ++ text) (s ++ s') := by
  induction s with
  | nil => exact h
  | cons c s ih =>
      obtain ⟨hc, hs⟩ := List.forall_mem_cons.mp hs
      have hcons := (ih hs).cons (gives_plain hc)
      exact hcons

theorem spells_plain {s : List Char} (h : Unescaped s) : Spells s s := by
  have happend := spells_nil.plain_append h
  rwa [List.append_nil] at happend

theorem string_spelled {text s : List Char} (h : Spells text s) (rest : List Char) :
    string (text ++ '"' :: rest) = some (String.ofList s, rest) := by
  have hchars := h (text ++ '"' :: rest).length rest (by simp)
  unfold string
  rw [hchars]
  rfl

end Strings

-- What may stand behind a value.
def Ends (rest : List Char) : Prop :=
  ∀ c ∈ rest.head?, c.isDigit = false ∧ c ≠ '.' ∧ c ≠ 'e' ∧ c ≠ 'E'

theorem ends_nil : Ends [] := fun _ h => by cases h

theorem ends_mark {mark : Char} (h : mark.isDigit = false ∧ mark ≠ '.' ∧ mark ≠ 'e' ∧ mark ≠ 'E')
    (rest : List Char) : Ends (mark :: rest) := fun c hc => by
  cases hc
  exact h

-- The text stands for the value. Its first character is no space and closes no array.
structure Writes (text : List Char) (v : Value) : Prop where
  begins : ∃ c rest, text = c :: rest ∧ isSpace c = false ∧ c ≠ ']'
  reads : ∀ fuel rest, Ends rest → 2 * text.length < fuel →
    value fuel (text ++ rest) = some (v, rest)

section Scalars

theorem writes_str {text s : List Char} (h : Spells text s) :
    Writes ('"' :: (text ++ ['"'])) (.str (String.ofList s)) where
  begins := ⟨'"', _, rfl, by decide, by decide⟩
  reads fuel rest _ hfuel := by
    obtain ⟨fuel, rfl⟩ := Nat.exists_eq_succ_of_ne_zero (Nat.ne_of_gt (Nat.zero_lt_of_lt hfuel))
    unfold value
    rw [List.cons_append, skip_of_not_isSpace (by decide), List.append_assoc]
    dsimp only
    rw [if_pos rfl, List.singleton_append, string_spelled h]
    rfl

theorem takeWhile_digits {ds rest : List Char} (hds : ∀ c ∈ ds, c.isDigit = true) (hrest : Ends rest) :
    (ds ++ rest).takeWhile Char.isDigit = ds ∧ (ds ++ rest).dropWhile Char.isDigit = rest := by
  have hstop : rest.takeWhile Char.isDigit = [] ∧ rest.dropWhile Char.isDigit = rest := by
    cases rest with
    | nil => exact ⟨rfl, rfl⟩
    | cons c rest =>
        have hc := (hrest c rfl).1
        rw [List.takeWhile_cons, List.dropWhile_cons, hc]
        exact ⟨rfl, rfl⟩
  rw [List.takeWhile_append_of_pos hds, List.dropWhile_append_of_pos hds, hstop.1, hstop.2,
    List.append_nil]
  exact ⟨rfl, rfl⟩

theorem fraction_ends {rest : List Char} (h : Ends rest) : fraction rest = some rest := by
  cases rest with
  | nil => rfl
  | cons c rest => exact if_neg (h c rfl).2.1

theorem exponent_ends {rest : List Char} (h : Ends rest) : exponent rest = some rest := by
  cases rest with
  | nil => rfl
  | cons c rest => exact if_neg (not_or.mpr (h c rfl).2.2)

theorem natural_digits {ds rest : List Char} (hds : ∀ c ∈ ds, c.isDigit = true) (hne : ds ≠ [])
    (hlead : ds.head? = some '0' → ds = ['0']) (hrest : Ends rest) :
    natural (ds ++ rest) = some (.int (Nat.ofDigitChars 10 ds 0), rest) := by
  obtain ⟨htake, hdrop⟩ := takeWhile_digits hds hrest
  have hdigits : digits (ds ++ rest) = some (ds, rest) := by
    unfold digits
    rw [htake, hdrop, if_neg hne]
  have hwhole : ¬(ds.head? = some '0' ∧ ds ≠ ['0']) := fun h => h.2 (hlead h.1)
  unfold natural
  rw [hdigits]
  change (if ds.head? = some '0' ∧ ds ≠ ['0'] then none else
    fraction rest >>= fun behind => exponent behind >>= _) = _
  rw [if_neg hwhole, fraction_ends hrest]
  change (exponent rest >>= _) = _
  rw [exponent_ends hrest]
  exact if_pos rfl

theorem isSpace_of_isDigit {c : Char} (h : c.isDigit = true) : isSpace c = false := by
  refine decide_eq_false ?_
  rintro (rfl | rfl | rfl | rfl) <;> exact absurd h (by decide)

-- Every digit begins a number, and nothing else.
theorem value_digit {c : Char} (h : c.isDigit = true) (fuel : Nat) (rest : List Char) :
    value (fuel + 1) (c :: rest) = natural (c :: rest) := by
  have hne : ∀ letter : Char, letter.isDigit = false → letter ≠ c := by
    rintro letter hletter rfl
    exact absurd (hletter.symm.trans h) (by decide)
  unfold value
  rw [skip_of_not_isSpace (isSpace_of_isDigit h)]
  dsimp only
  rw [if_neg (hne '"' (by decide)).symm, if_neg (hne '[' (by decide)).symm,
    if_neg (hne '\x7b' (by decide)).symm]
  unfold scalar word
  rw [behind_other (hne 'n' (by decide)), behind_other (hne 't' (by decide)),
    behind_other (hne 'f' (by decide))]
  exact if_neg (hne '-' (by decide)).symm

theorem head?_toDigits {n : Nat} (hpos : 0 < n) : (Nat.toDigits 10 n).head? ≠ some '0' := by
  induction n using Nat.strongRecOn with
  | ind n ih =>
      rw [Nat.toDigits_eq_if (by decide)]
      split_ifs with h
      · have hdigit : ∀ k < 10, 0 < k → Nat.digitChar k ≠ '0' := by decide
        exact fun hhead => hdigit n h hpos (Option.some.inj hhead)
      · rw [List.head?_append_of_ne_nil _ Nat.toDigits_ne_nil]
        exact ih (n / 10) (by omega) (by omega)

theorem writes_nat (n : Nat) : Writes (Nat.toDigits 10 n) (.int n) where
  begins := by
    obtain ⟨c, rest, hdigits⟩ := List.exists_cons_of_ne_nil (Nat.toDigits_ne_nil (n := n) (b := 10))
    have hc := Nat.isDigit_of_mem_toDigits (by decide) (by decide) (hdigits ▸ List.mem_cons_self)
    refine ⟨c, rest, hdigits, ?_, ?_⟩
    · exact isSpace_of_isDigit hc
    · rintro rfl
      exact absurd hc (by decide)
  reads fuel rest hrest hfuel := by
    obtain ⟨fuel, rfl⟩ := Nat.exists_eq_succ_of_ne_zero (Nat.ne_of_gt (Nat.zero_lt_of_lt hfuel))
    have hds : ∀ c ∈ Nat.toDigits 10 n, c.isDigit = true := fun c hc =>
      Nat.isDigit_of_mem_toDigits (by decide) (by decide) hc
    have hlead : (Nat.toDigits 10 n).head? = some '0' → Nat.toDigits 10 n = ['0'] := by
      intro hhead
      rcases Nat.eq_zero_or_pos n with rfl | hpos
      · rfl
      · exact absurd hhead (head?_toDigits hpos)
    have hnatural := natural_digits hds Nat.toDigits_ne_nil hlead hrest
    obtain ⟨c, ds, hdigits⟩ := List.exists_cons_of_ne_nil (Nat.toDigits_ne_nil (n := n) (b := 10))
    rw [Nat.ofDigitChars_toDigits (by decide) (by decide)] at hnatural
    rw [hdigits, List.cons_append] at hnatural ⊢
    rw [value_digit (hds c (hdigits ▸ List.mem_cons_self)), hnatural]

theorem writes_toString (n : Nat) : Writes (toString n).toList (.int n) := by
  have hdigits : (toString n).toList = Nat.toDigits 10 n := String.toList_ofList
  rw [hdigits]
  exact writes_nat n

theorem writes_true : Writes ['t', 'r', 'u', 'e'] (.bool true) where
  begins := ⟨'t', _, rfl, by decide, by decide⟩
  reads fuel rest _ hfuel := by
    obtain ⟨fuel, rfl⟩ := Nat.exists_eq_succ_of_ne_zero (Nat.ne_of_gt (Nat.zero_lt_of_lt hfuel))
    unfold value
    rw [List.cons_append, skip_of_not_isSpace (by decide)]
    rfl

theorem writes_false : Writes ['f', 'a', 'l', 's', 'e'] (.bool false) where
  begins := ⟨'f', _, rfl, by decide, by decide⟩
  reads fuel rest _ hfuel := by
    obtain ⟨fuel, rfl⟩ := Nat.exists_eq_succ_of_ne_zero (Nat.ne_of_gt (Nat.zero_lt_of_lt hfuel))
    unfold value
    rw [List.cons_append, skip_of_not_isSpace (by decide)]
    rfl

end Scalars

section Sequences

-- The texts with commas between them.
def commaed (texts : List (List Char)) : List Char := [','].intercalate texts

theorem toList_commaed (texts : List String) :
    (String.intercalate "," texts).toList = commaed (texts.map String.toList) :=
  String.toList_intercalate

theorem commaed_singleton (text : List Char) : commaed [text] = text := List.append_nil _

theorem commaed_cons (text next : List Char) (texts : List (List Char)) :
    commaed (text :: next :: texts) = text ++ ',' :: commaed (next :: texts) := rfl

-- Every text but the first has a comma before it.
theorem commaed_flatMap (text : List Char) (texts : List (List Char)) :
    commaed (text :: texts) = text ++ texts.flatMap (',' :: ·) := by
  induction texts generalizing text with
  | nil => rfl
  | cons next texts ih => rw [commaed_cons, ih, List.flatMap_cons, List.cons_append]

-- The name of a member with its quotes and colon.
def named (name : List Char) : List Char := '"' :: (name ++ ['"', ':'])

theorem after_named (name text : List Char) :
    after '"' (named name ++ text) = some (name ++ '"' :: ':' :: text) := by
  unfold named
  rw [List.cons_append, List.append_assoc]
  exact after_mark (by decide) _

section Steps

variable {fuel : Nat} {text rest rest' rest'' : List Char} {v : Value}

theorem items_last (hread : value fuel text = some (v, rest)) (hmore : after ',' rest = none)
    (hclose : after ']' rest = some rest') : items (fuel + 1) text = some ([v], rest') := by
  unfold items
  simp only [hread, hmore, hclose, bind, Option.bind]
  rfl

theorem items_more {values : List Value} (hread : value fuel text = some (v, rest))
    (hmore : after ',' rest = some rest') (hlater : items fuel rest' = some (values, rest'')) :
    items (fuel + 1) text = some (v :: values, rest'') := by
  unfold items
  simp only [hread, hmore, hlater, bind, Option.bind]
  rfl

theorem members_last {name s : List Char} (hname : Spells name s)
    (hread : value fuel text = some (v, rest)) (hmore : after ',' rest = none)
    (hclose : after '\x7d' rest = some rest') :
    members (fuel + 1) (named name ++ text) = some ([(String.ofList s, v)], rest') := by
  have hstring := string_spelled hname (':' :: text)
  have hcolon : after ':' (':' :: text) = some text := after_mark (by decide) text
  unfold members
  simp only [after_named, hstring, hcolon, hread, hmore, hclose, bind, Option.bind]
  rfl

theorem members_more {name s : List Char} {others : List (String × Value)} (hname : Spells name s)
    (hread : value fuel text = some (v, rest)) (hmore : after ',' rest = some rest')
    (hlater : members fuel rest' = some (others, rest'')) :
    members (fuel + 1) (named name ++ text) = some ((String.ofList s, v) :: others, rest'') := by
  have hstring := string_spelled hname (':' :: text)
  have hcolon : after ':' (':' :: text) = some text := after_mark (by decide) text
  unfold members
  simp only [after_named, hstring, hcolon, hread, hmore, hlater, bind, Option.bind]
  rfl

end Steps

theorem items_commaed {texts : List (List Char)} {values : List Value} (hne : texts ≠ [])
    (h : List.Forall₂ Writes texts values) {fuel : Nat} (rest : List Char)
    (hfuel : 2 * (commaed texts).length + 1 < fuel) :
    items fuel (commaed texts ++ ']' :: rest) = some (values, rest) := by
  induction h generalizing fuel with
  | nil => exact absurd rfl hne
  | @cons text v texts values hfirst hothers ih =>
      obtain ⟨fuel, rfl⟩ := Nat.exists_eq_succ_of_ne_zero (Nat.ne_of_gt (Nat.zero_lt_of_lt hfuel))
      cases hothers with
      | nil =>
          rw [commaed_singleton] at hfuel ⊢
          exact items_last (hfirst.reads fuel _ (ends_mark (by decide) rest) (by omega))
            (after_other (by decide) (by decide) rest) (after_mark (by decide) rest)
      | @cons next v' texts values hnext hothers =>
          rw [commaed_cons, List.length_append, List.length_cons] at hfuel
          have hroom : 2 * (commaed (next :: texts)).length + 1 < fuel := by omega
          rw [commaed_cons, List.append_assoc, List.cons_append]
          exact items_more (hfirst.reads fuel _ (ends_mark (by decide) _) (by omega))
            (after_mark (by decide) _) (ih (List.cons_ne_nil _ _) hroom)

theorem writes_array {texts : List (List Char)} {values : List Value}
    (h : List.Forall₂ Writes texts values) :
    Writes ('[' :: (commaed texts ++ [']'])) (.array values) where
  begins := ⟨'[', _, rfl, by decide, by decide⟩
  reads fuel rest _ hfuel := by
    obtain ⟨fuel, rfl⟩ := Nat.exists_eq_succ_of_ne_zero (Nat.ne_of_gt (Nat.zero_lt_of_lt hfuel))
    rw [List.cons_append, List.append_assoc, List.singleton_append]
    rw [List.length_cons, List.length_append, List.length_singleton] at hfuel
    unfold value
    rw [skip_of_not_isSpace (by decide)]
    dsimp only
    rw [if_neg (by decide), if_pos rfl]
    cases h with
    | nil =>
        have hclose : after ']' (commaed [] ++ ']' :: rest) = some rest := after_mark (by decide) rest
        rw [hclose]
    | @cons text v texts values hfirst hothers =>
        obtain ⟨c, cs, rfl, hspace, hclose⟩ := hfirst.begins
        have hopen : after ']' (commaed ((c :: cs) :: texts) ++ ']' :: rest) = none := by
          cases texts <;> exact after_other hspace hclose _
        rw [hopen]
        dsimp only
        rw [items_commaed (List.cons_ne_nil _ _) (.cons hfirst hothers) rest (by omega)]
        rfl

-- The texts of some things, as a loop writes them.
theorem writes_map {α : Type} {write : α → String} {read : α → Value} (things : List α)
    (h : ∀ a ∈ things, Writes (write a).toList (read a)) :
    Writes ('[' :: ((String.intercalate "," (things.map write)).toList ++ [']']))
      (.array (things.map read)) := by
  rw [toList_commaed, List.map_map]
  refine writes_array ?_
  rw [List.forall₂_map_left_iff, List.forall₂_map_right_iff, List.forall₂_same]
  exact h

-- The text of one member.
structure WritesMember (text : List Char) (member : String × Value) : Prop where
  reads : ∃ name s body, text = named name ++ body ∧ Spells name s ∧
    member.1 = String.ofList s ∧ Writes body member.2

theorem writes_member (name : String) (hname : Unescaped name.toList) {text : List Char}
    {v : Value} (h : Writes text v) : WritesMember (named name.toList ++ text) (name, v) :=
  ⟨name.toList, name.toList, text, rfl, spells_plain hname, String.ofList_toList.symm, h⟩

theorem members_commaed {texts : List (List Char)} {values : List (String × Value)}
    (hne : texts ≠ []) (h : List.Forall₂ WritesMember texts values) {fuel : Nat} (rest : List Char)
    (hfuel : 2 * (commaed texts).length + 1 < fuel) :
    members fuel (commaed texts ++ '\x7d' :: rest) = some (values, rest) := by
  induction h generalizing fuel with
  | nil => exact absurd rfl hne
  | @cons text member texts values hfirst hothers ih =>
      obtain ⟨fuel, rfl⟩ := Nat.exists_eq_succ_of_ne_zero (Nat.ne_of_gt (Nat.zero_lt_of_lt hfuel))
      obtain ⟨key, v⟩ := member
      obtain ⟨name, s, body, rfl, hname, hkey, hbody⟩ := hfirst.reads
      obtain rfl : key = String.ofList s := hkey
      cases hothers with
      | nil =>
          rw [commaed_singleton, List.length_append] at hfuel
          rw [commaed_singleton, List.append_assoc]
          exact members_last hname (hbody.reads fuel _ (ends_mark (by decide) rest) (by omega))
            (after_other (by decide) (by decide) rest) (after_mark (by decide) rest)
      | @cons next member texts values hnext hothers =>
          rw [commaed_cons, List.length_append, List.length_append, List.length_cons] at hfuel
          have hroom : 2 * (commaed (next :: texts)).length + 1 < fuel := by omega
          rw [commaed_cons, List.append_assoc, List.append_assoc, List.cons_append]
          exact members_more hname (hbody.reads fuel _ (ends_mark (by decide) _) (by omega))
            (after_mark (by decide) _) (ih (List.cons_ne_nil _ _) hroom)

theorem writes_object {texts : List (List Char)} {values : List (String × Value)}
    (h : List.Forall₂ WritesMember texts values) :
    Writes ('\x7b' :: (commaed texts ++ ['\x7d'])) (.object values) where
  begins := ⟨'\x7b', _, rfl, by decide, by decide⟩
  reads fuel rest _ hfuel := by
    obtain ⟨fuel, rfl⟩ := Nat.exists_eq_succ_of_ne_zero (Nat.ne_of_gt (Nat.zero_lt_of_lt hfuel))
    rw [List.cons_append, List.append_assoc, List.singleton_append]
    rw [List.length_cons, List.length_append, List.length_singleton] at hfuel
    unfold value
    rw [skip_of_not_isSpace (by decide)]
    dsimp only
    rw [if_neg (by decide), if_neg (by decide), if_pos rfl]
    cases h with
    | nil =>
        have hclose : after '\x7d' (commaed [] ++ '\x7d' :: rest) = some rest :=
          after_mark (by decide) rest
        rw [hclose]
    | @cons text member texts values hfirst hothers =>
        have hread := members_commaed (List.cons_ne_nil _ _) (.cons hfirst hothers) rest
          (show 2 * (commaed (text :: texts)).length + 1 < fuel by omega)
        obtain ⟨name, s, body, rfl, -⟩ := hfirst.reads
        have hopen : after '\x7d' (commaed ((named name ++ body) :: texts) ++ '\x7d' :: rest) = none := by
          cases texts <;> exact after_other (by decide) (by decide) _
        rw [hopen]
        dsimp only
        rw [hread]
        rfl

end Sequences

-- A whole text.
theorem loads_writes {text : String} {v : Value} (h : Writes text.toList v) : loads text = some v := by
  have hread := h.reads (2 * text.toList.length + 1) [] ends_nil (Nat.lt_succ_self _)
  unfold loads
  rw [List.append_nil] at hread
  rw [hread]
  rfl

end Milo.Lib.Json
