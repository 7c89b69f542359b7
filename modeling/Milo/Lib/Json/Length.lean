import Milo.Lib.Json

-- How long the text of a value is at least, and what a text has none of that is no longer.
namespace Milo.Lib.Json

theorem length_skip_le (text : List Char) : (skip text).length ≤ text.length :=
  (List.dropWhile_sublist _).length_le

theorem after_length {mark : Char} {text rest : List Char} (h : after mark text = some rest) :
    rest.length + 1 ≤ text.length := by
  have hskip := length_skip_le text
  unfold after at h
  cases htext : skip text with
  | nil =>
      rw [htext] at h
      cases h
  | cons c tail =>
      rw [htext] at h hskip
      dsimp only at h
      split_ifs at h
      cases h
      exact hskip

theorem behind_length {letters text rest : List Char} (h : behind letters text = some rest) :
    rest.length + letters.length = text.length := by
  unfold behind at h
  split_ifs at h with hprefix
  cases h
  have hle := hprefix.length_le
  rw [List.length_drop]
  omega

section Strings

theorem hex4_length {text rest : List Char} {n : Nat} (h : hex4 text = some (n, rest)) :
    rest.length + 4 = text.length := by
  match text, h with
  | c₁ :: c₂ :: c₃ :: c₄ :: tail, h =>
      simp only [hex4, Option.bind_eq_bind, Option.bind_eq_some_iff] at h
      obtain ⟨d₁, -, d₂, -, d₃, -, d₄, -, h⟩ := h
      obtain ⟨-, rfl⟩ := Prod.mk.inj (Option.some.inj h)
      rfl

theorem unicode_length {text rest : List Char} {c : Char} (h : unicode text = some (c, rest)) :
    rest.length < text.length := by
  unfold unicode at h
  obtain ⟨⟨high, tail⟩, hhigh, h⟩ := Option.bind_eq_some_iff.mp h
  have hlength := hex4_length hhigh
  dsimp only at h
  split_ifs at h with hpair
  · obtain ⟨-, rfl⟩ := Prod.mk.inj (Option.some.inj h)
    omega
  · obtain ⟨tail', hbehind, h⟩ := Option.bind_eq_some_iff.mp h
    obtain ⟨⟨low, tail''⟩, hlow, h⟩ := Option.bind_eq_some_iff.mp h
    have hbehind := behind_length hbehind
    have hlow := hex4_length hlow
    dsimp only at h
    split_ifs at h
    obtain ⟨-, rfl⟩ := Prod.mk.inj (Option.some.inj h)
    omega

theorem escape_length {text rest : List Char} {c : Char} (h : escape text = some (c, rest)) :
    rest.length < text.length := by
  cases text with
  | nil => cases h
  | cons first tail =>
      unfold escape at h
      dsimp only at h
      split_ifs at h
      · exact Nat.lt_succ_of_lt (unicode_length h)
      all_goals
        cases h
        exact Nat.lt_succ_self _

-- A character of a string is its own text, or has a longer one.
theorem next_length {text rest : List Char} {c : Char} (h : next text = some (some c, rest)) :
    rest.length + 1 ≤ text.length ∧ (rest.length + 1 = text.length → Plain c) := by
  cases text with
  | nil => cases h
  | cons first tail =>
      unfold next at h
      dsimp only at h
      split_ifs at h with hquote hbackslash hplain
      · cases h
      · obtain ⟨⟨c', rest'⟩, hescape, heq⟩ := Option.map_eq_some_iff.mp h
        cases heq
        have hlength := escape_length hescape
        rw [List.length_cons]
        dsimp only
        exact ⟨by omega, fun heq => by omega⟩
      · cases h
        exact ⟨Nat.le_refl _, fun _ => hplain⟩

theorem next_end {text rest : List Char} (h : next text = some (none, rest)) :
    rest.length + 1 = text.length := by
  cases text with
  | nil => cases h
  | cons first tail =>
      unfold next at h
      dsimp only at h
      split_ifs at h
      · cases h
        rfl
      · obtain ⟨⟨c', rest'⟩, -, heq⟩ := Option.map_eq_some_iff.mp h
        cases heq
      · cases h

theorem chars_length {fuel : Nat} {text rest s : List Char} (h : chars fuel text = some (s, rest)) :
    s.length + 1 + rest.length ≤ text.length ∧
      (s.length + 1 + rest.length = text.length → ∀ c ∈ s, Plain c) := by
  induction fuel generalizing text s with
  | zero => cases h
  | succ fuel ih =>
      unfold chars at h
      obtain ⟨⟨c, tail⟩, hnext, h⟩ := Option.bind_eq_some_iff.mp h
      cases c with
      | none =>
          cases h
          have hlength := next_end hnext
          refine ⟨by rw [List.length_nil]; omega, fun _ c hc => by cases hc⟩
      | some c =>
          obtain ⟨⟨cs, rest'⟩, hchars, h⟩ := Option.bind_eq_some_iff.mp h
          cases h
          obtain ⟨hle, hplain⟩ := next_length hnext
          obtain ⟨hle', hplain'⟩ := ih hchars
          rw [List.length_cons]
          refine ⟨by omega, fun heq => List.forall_mem_cons.mpr ⟨hplain (by omega), hplain' (by omega)⟩⟩

theorem string_length {text rest : List Char} {s : String} (h : string text = some (s, rest)) :
    s.toList.length + 1 + rest.length ≤ text.length ∧
      (s.toList.length + 1 + rest.length = text.length → ∀ c ∈ s.toList, Plain c) := by
  unfold string at h
  obtain ⟨⟨cs, tail⟩, hchars, h⟩ := Option.bind_eq_some_iff.mp h
  cases h
  rw [String.toList_ofList]
  exact chars_length hchars

end Strings

section Scalars

theorem digits_length {text ds rest : List Char} (h : digits text = some (ds, rest)) :
    rest.length < text.length := by
  unfold digits at h
  split_ifs at h with hne
  cases h
  have hsplit := congrArg List.length (List.takeWhile_append_dropWhile (p := Char.isDigit) (l := text))
  have hpos := List.length_pos_iff.mpr hne
  rw [List.length_append] at hsplit
  omega

theorem behind_digits_length {text rest : List Char} (h : (digits text).map Prod.snd = some rest) :
    rest.length ≤ text.length := by
  obtain ⟨⟨ds, tail⟩, hdigits, heq⟩ := Option.map_eq_some_iff.mp h
  cases heq
  exact Nat.le_of_lt (digits_length hdigits)

theorem fraction_length {text rest : List Char} (h : fraction text = some rest) :
    rest.length ≤ text.length := by
  cases text with
  | nil =>
      cases h
      exact Nat.le_refl _
  | cons c tail =>
      unfold fraction at h
      dsimp only at h
      split_ifs at h
      · exact Nat.le_succ_of_le (behind_digits_length h)
      · cases h
        exact Nat.le_refl _

theorem unsigned_length (text : List Char) : (unsigned text).length ≤ text.length := by
  cases text with
  | nil => exact Nat.le_refl _
  | cons c tail =>
      unfold unsigned
      dsimp only
      split_ifs
      · exact Nat.le_succ _
      · exact Nat.le_refl _

theorem exponent_length {text rest : List Char} (h : exponent text = some rest) :
    rest.length ≤ text.length := by
  cases text with
  | nil =>
      cases h
      exact Nat.le_refl _
  | cons c tail =>
      unfold exponent at h
      dsimp only at h
      split_ifs at h
      · exact Nat.le_succ_of_le ((behind_digits_length h).trans (unsigned_length tail))
      · cases h
        exact Nat.le_refl _

theorem natural_length {text rest : List Char} {v : Value} (h : natural text = some (v, rest)) :
    rest.length < text.length := by
  unfold natural at h
  obtain ⟨⟨whole, tail⟩, hdigits, h⟩ := Option.bind_eq_some_iff.mp h
  have hlength := digits_length hdigits
  dsimp only at h
  split_ifs at h with hlead
  obtain ⟨tail', hfraction, h⟩ := Option.bind_eq_some_iff.mp h
  obtain ⟨stop, hexponent, h⟩ := Option.bind_eq_some_iff.mp h
  have hfraction := fraction_length hfraction
  have hexponent := exponent_length hexponent
  split_ifs at h <;> (cases h; omega)

theorem number_length {text rest : List Char} {v : Value} (h : number text = some (v, rest)) :
    rest.length < text.length := by
  cases text with
  | nil => cases h
  | cons c tail =>
      unfold number at h
      dsimp only at h
      split_ifs at h
      · obtain ⟨⟨v', tail'⟩, hnatural, heq⟩ := Option.map_eq_some_iff.mp h
        cases heq
        exact Nat.lt_succ_of_lt (natural_length hnatural)
      · exact natural_length h

end Scalars

-- The shortest text of a value, as far as it is told apart here.
def Value.size : Value → Nat
  | .bool true => 4
  | .bool false => 5
  | .str s => s.toList.length + 2
  | _ => 1

-- A string has no character that is escaped.
def Value.Bare : Value → Prop
  | .str s => ∀ c ∈ s.toList, Plain c
  | _ => True

-- A member with its quotes, its colon, and the comma or brace behind it.
def memberSize (member : String × Value) : Nat := member.1.toList.length + 4 + member.2.size

def membersSize : List (String × Value) → Nat
  | [] => 0
  | m :: ms => memberSize m + membersSize ms

theorem word_length {letters text rest : List Char} {v w : Value}
    (h : word letters v text = some (w, rest)) : w = v ∧ rest.length + letters.length = text.length := by
  unfold word at h
  obtain ⟨tail, hbehind, heq⟩ := Option.map_eq_some_iff.mp h
  cases heq
  exact ⟨rfl, behind_length hbehind⟩

def Value.isNumber : Value → Bool
  | .int _ | .real _ => true
  | _ => false

theorem Value.isNumber_negate {v : Value} (h : v.isNumber = true) : v.negate.isNumber = true := by
  cases v with
  | int value => rfl
  | real text => rfl
  | _ => cases h

theorem Value.size_number {v : Value} (h : v.isNumber = true) : v.size = 1 ∧ v.Bare := by
  cases v with
  | int value => exact ⟨rfl, trivial⟩
  | real text => exact ⟨rfl, trivial⟩
  | _ => cases h

theorem natural_isNumber {text rest : List Char} {v : Value} (h : natural text = some (v, rest)) :
    v.isNumber = true := by
  unfold natural at h
  obtain ⟨⟨whole, tail⟩, -, h⟩ := Option.bind_eq_some_iff.mp h
  dsimp only at h
  split_ifs at h
  obtain ⟨tail', -, h⟩ := Option.bind_eq_some_iff.mp h
  obtain ⟨stop, -, h⟩ := Option.bind_eq_some_iff.mp h
  split_ifs at h <;> (cases h; rfl)

theorem number_isNumber {text rest : List Char} {v : Value} (h : number text = some (v, rest)) :
    v.isNumber = true := by
  cases text with
  | nil => cases h
  | cons c tail =>
      unfold number at h
      dsimp only at h
      split_ifs at h
      · obtain ⟨⟨v', tail'⟩, hnatural, heq⟩ := Option.map_eq_some_iff.mp h
        cases heq
        exact Value.isNumber_negate (natural_isNumber hnatural)
      · exact natural_isNumber h

-- A word or a number.
theorem scalar_cases {text rest : List Char} {v : Value} (h : scalar text = some (v, rest)) :
    (v = .null ∧ rest.length + 4 = text.length) ∨ (v = .bool true ∧ rest.length + 4 = text.length) ∨
      (v = .bool false ∧ rest.length + 5 = text.length) ∨
        (v.isNumber = true ∧ rest.length < text.length) := by
  unfold scalar at h
  simp only [Option.orElse_eq_orElse, Option.orElse_eq_or, Option.or_eq_some_iff] at h
  rcases h with h | ⟨-, h | ⟨-, h | ⟨-, h⟩⟩⟩
  · exact .inl (word_length h)
  · exact .inr (.inl (word_length h))
  · exact .inr (.inr (.inl (word_length h)))
  · exact .inr (.inr (.inr ⟨number_isNumber h, number_length h⟩))

theorem scalar_length {text rest : List Char} {v : Value} (h : scalar text = some (v, rest)) :
    v.size + rest.length ≤ text.length ∧ v.Bare := by
  rcases scalar_cases h with ⟨rfl, hlength⟩ | ⟨rfl, hlength⟩ | ⟨rfl, hlength⟩ | ⟨hnumber, hlength⟩
  · exact ⟨by simp only [Value.size]; omega, trivial⟩
  · exact ⟨by simp only [Value.size]; omega, trivial⟩
  · exact ⟨by simp only [Value.size]; omega, trivial⟩
  · obtain ⟨hsize, hbare⟩ := Value.size_number hnumber
    exact ⟨by omega, hbare⟩

theorem scalar_ne_object {text rest : List Char} {ms : List (String × Value)} :
    scalar text ≠ some (.object ms, rest) := by
  intro h
  rcases scalar_cases h with ⟨h, -⟩ | ⟨h, -⟩ | ⟨h, -⟩ | ⟨h, -⟩ <;> cases h

-- What a value reader takes.
def Reads (read : List Char → Option (Value × List Char)) : Prop :=
  ∀ text v rest, read text = some (v, rest) →
    v.size + rest.length ≤ text.length ∧ (v.size + rest.length = text.length → v.Bare)

-- The loops behind an opening bracket.
theorem items_length {fuel : Nat} (h : ∀ k < fuel, Reads (value k)) {text rest : List Char}
    {values : List Value} (hitems : items fuel text = some (values, rest)) :
    rest.length < text.length := by
  induction fuel generalizing text values with
  | zero => cases hitems
  | succ fuel ih =>
      unfold items at hitems
      obtain ⟨⟨first, tail⟩, hvalue, hitems⟩ := Option.bind_eq_some_iff.mp hitems
      have hle := (h fuel (Nat.lt_succ_self _) _ _ _ hvalue).1
      dsimp only at hitems
      cases hmore : after ',' tail with
      | some tail' =>
          rw [hmore] at hitems
          obtain ⟨⟨others, tail''⟩, hlater, hitems⟩ := Option.bind_eq_some_iff.mp hitems
          cases hitems
          have hmore := after_length hmore
          have hlater := ih (fun k hk => h k (Nat.lt_succ_of_lt hk)) hlater
          omega
      | none =>
          rw [hmore] at hitems
          obtain ⟨tail', hclose, hitems⟩ := Option.bind_eq_some_iff.mp hitems
          cases hitems
          have hclose := after_length hclose
          omega

theorem members_length {fuel : Nat} (h : ∀ k < fuel, Reads (value k)) {text rest : List Char}
    {ms : List (String × Value)} (hmembers : members fuel text = some (ms, rest)) :
    membersSize ms + rest.length ≤ text.length ∧
      (membersSize ms + rest.length = text.length → ∀ m ∈ ms, m.2.Bare) := by
  induction fuel generalizing text ms with
  | zero => cases hmembers
  | succ fuel ih =>
      unfold members at hmembers
      obtain ⟨tail₁, hopen, hmembers⟩ := Option.bind_eq_some_iff.mp hmembers
      obtain ⟨⟨key, tail₂⟩, hkey, hmembers⟩ := Option.bind_eq_some_iff.mp hmembers
      obtain ⟨tail₃, hcolon, hmembers⟩ := Option.bind_eq_some_iff.mp hmembers
      obtain ⟨⟨first, tail₄⟩, hvalue, hmembers⟩ := Option.bind_eq_some_iff.mp hmembers
      have hopen := after_length hopen
      have hkey := (string_length hkey).1
      have hcolon := after_length hcolon
      obtain ⟨hle, hbare⟩ := h fuel (Nat.lt_succ_self _) _ _ _ hvalue
      dsimp only at hmembers
      cases hmore : after ',' tail₄ with
      | some tail₅ =>
          rw [hmore] at hmembers
          obtain ⟨⟨others, tail₆⟩, hlater, hmembers⟩ := Option.bind_eq_some_iff.mp hmembers
          dsimp only at hmembers
          cases hmembers
          have hmore := after_length hmore
          obtain ⟨hle', hbare'⟩ := ih (fun k hk => h k (Nat.lt_succ_of_lt hk)) hlater
          simp only [membersSize, memberSize]
          refine ⟨by omega, fun heq => List.forall_mem_cons.mpr ⟨hbare (by omega), hbare' (by omega)⟩⟩
      | none =>
          rw [hmore] at hmembers
          obtain ⟨tail₅, hclose, hmembers⟩ := Option.bind_eq_some_iff.mp hmembers
          cases hmembers
          have hclose := after_length hclose
          simp only [membersSize, memberSize]
          refine ⟨by omega, fun heq => List.forall_mem_singleton.mpr (hbare (by omega))⟩

-- The ways to read a value.
theorem value_cases {fuel : Nat} {text rest : List Char} {v : Value}
    (h : value (fuel + 1) text = some (v, rest)) :
    ∃ c tail, skip text = c :: tail ∧
      ((∃ s, v = .str s ∧ string tail = some (s, rest)) ∨
        (v = .array [] ∧ after ']' tail = some rest) ∨
        (∃ values, v = .array values ∧ items fuel tail = some (values, rest)) ∨
        (v = .object [] ∧ after '\x7d' tail = some rest) ∨
        (∃ ms, v = .object ms ∧ members fuel tail = some (ms, rest)) ∨
        scalar (c :: tail) = some (v, rest)) := by
  unfold value at h
  cases hskip : skip text with
  | nil =>
      rw [hskip] at h
      cases h
  | cons c tail =>
      rw [hskip] at h
      refine ⟨c, tail, rfl, ?_⟩
      dsimp only at h
      split_ifs at h with hquote hbracket hbrace
      · obtain ⟨⟨s, tail'⟩, hstring, heq⟩ := Option.map_eq_some_iff.mp h
        cases heq
        exact .inl ⟨s, rfl, hstring⟩
      · cases hclose : after ']' tail with
        | some tail' =>
            rw [hclose] at h
            cases h
            exact .inr (.inl ⟨rfl, rfl⟩)
        | none =>
            rw [hclose] at h
            obtain ⟨⟨values, tail'⟩, hitems, heq⟩ := Option.map_eq_some_iff.mp h
            cases heq
            exact .inr (.inr (.inl ⟨values, rfl, hitems⟩))
      · cases hclose : after '\x7d' tail with
        | some tail' =>
            rw [hclose] at h
            cases h
            exact .inr (.inr (.inr (.inl ⟨rfl, rfl⟩)))
        | none =>
            rw [hclose] at h
            obtain ⟨⟨ms, tail'⟩, hmembers, heq⟩ := Option.map_eq_some_iff.mp h
            cases heq
            exact .inr (.inr (.inr (.inr (.inl ⟨ms, rfl, hmembers⟩))))
      · exact .inr (.inr (.inr (.inr (.inr h))))

theorem value_length (fuel : Nat) : Reads (value fuel) := by
  induction fuel using Nat.strongRecOn with
  | ind fuel ih =>
      intro text v rest h
      cases fuel with
      | zero => cases h
      | succ fuel =>
          have ih : ∀ k < fuel, Reads (value k) := fun k hk => ih k (Nat.lt_succ_of_lt hk)
          obtain ⟨c, tail, hskip, hcases⟩ := value_cases h
          have hlength := length_skip_le text
          rw [hskip, List.length_cons] at hlength
          rcases hcases with ⟨s, rfl, hstring⟩ | ⟨rfl, hclose⟩ | ⟨values, rfl, hitems⟩ | ⟨rfl, hclose⟩ |
            ⟨ms, rfl, hmembers⟩ | hscalar
          · obtain ⟨hle, hbare⟩ := string_length hstring
            simp only [Value.size]
            exact ⟨by omega, fun heq => hbare (by omega)⟩
          · have hclose := after_length hclose
            simp only [Value.size]
            exact ⟨by omega, fun _ => trivial⟩
          · have hitems := items_length ih hitems
            simp only [Value.size]
            exact ⟨by omega, fun _ => trivial⟩
          · have hclose := after_length hclose
            simp only [Value.size]
            exact ⟨by omega, fun _ => trivial⟩
          · have hmembers := (members_length ih hmembers).1
            simp only [Value.size]
            exact ⟨by omega, fun _ => trivial⟩
          · obtain ⟨hle, hbare⟩ := scalar_length hscalar
            rw [List.length_cons] at hle
            exact ⟨by omega, fun _ => hbare⟩

theorem mem_of_get {key : String} {ms : List (String × Value)} {v : Value}
    (h : (Value.object ms).get key = some v) : (key, v) ∈ ms := by
  obtain ⟨⟨name, v'⟩, hfind, heq⟩ := Option.map_eq_some_iff.mp h
  obtain rfl : v' = v := heq
  have hname := List.find?_some hfind
  obtain rfl : name = key := of_decide_eq_true hname
  exact List.mem_reverse.mp (List.mem_of_find?_eq_some hfind)

theorem memberSize_le {m : String × Value} {ms : List (String × Value)} (h : m ∈ ms) :
    memberSize m ≤ membersSize ms := by
  induction ms with
  | nil => cases h
  | cons first ms ih =>
      rw [membersSize]
      rcases List.mem_cons.mp h with rfl | hlater
      · exact Nat.le_add_right _ _
      · exact Nat.le_add_left_of_le (ih hlater)

-- Two members of different names both take their room.
theorem memberSize_add_le {m m' : String × Value} {ms : List (String × Value)} (h : m ∈ ms)
    (h' : m' ∈ ms) (hne : m.1 ≠ m'.1) : memberSize m + memberSize m' ≤ membersSize ms := by
  induction ms with
  | nil => cases h
  | cons first ms ih =>
      rw [membersSize]
      rcases List.mem_cons.mp h with rfl | hlater
      · rcases List.mem_cons.mp h' with rfl | hlater'
        · exact absurd rfl hne
        · exact Nat.add_le_add_left (memberSize_le hlater') _
      · rcases List.mem_cons.mp h' with rfl | hlater'
        · rw [Nat.add_comm]
          exact Nat.add_le_add_left (memberSize_le hlater) _
        · exact Nat.le_add_left_of_le (ih hlater hlater')

-- A text takes a brace more than the members of the object it is. If it takes no more, no
-- string of a member is escaped.
theorem loads_object_length {text : String} {m : String × Value} {ms : List (String × Value)}
    (h : loads text = some (.object (m :: ms))) :
    1 + membersSize (m :: ms) ≤ text.toList.length ∧
      (1 + membersSize (m :: ms) = text.toList.length → ∀ m' ∈ m :: ms, m'.2.Bare) := by
  unfold loads at h
  obtain ⟨⟨v, rest⟩, hvalue, h⟩ := Option.bind_eq_some_iff.mp h
  dsimp only at h
  split_ifs at h
  obtain rfl := Option.some.inj h
  obtain ⟨c, tail, hskip, hcases⟩ := value_cases hvalue
  have hlength := length_skip_le text.toList
  rw [hskip, List.length_cons] at hlength
  rcases hcases with ⟨s, heq, -⟩ | ⟨heq, -⟩ | ⟨values, heq, -⟩ | ⟨heq, -⟩ | ⟨ms', heq, hmembers⟩ |
    hscalar
  · cases heq
  · cases heq
  · cases heq
  · cases heq
  · cases heq
    obtain ⟨hle, hbare⟩ := members_length (fun k _ => value_length k) hmembers
    exact ⟨by omega, fun heq => hbare (by omega)⟩
  · exact absurd hscalar scalar_ne_object

end Milo.Lib.Json
