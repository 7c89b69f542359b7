import Mathlib.Data.List.TakeWhile

-- JSON texts and their values, as a strict parser has them.
namespace Milo.Lib.Json

-- A number without fraction and exponent is an integer. The members of an object stand in
-- the order of the text.
inductive Value where
  | null
  | bool (value : Bool)
  | int (value : Int)
  | real (text : String)
  | str (value : String)
  | array (items : List Value)
  | object (members : List (String × Value))

-- A later member hides an earlier one of its name.
def Value.get (key : String) : Value → Option Value
  | .object members => (members.reverse.find? fun member => member.1 = key).map Prod.snd
  | _ => none

def isSpace (c : Char) : Bool := c = ' ' ∨ c = '\n' ∨ c = '\r' ∨ c = '\t'

def skip (text : List Char) : List Char := text.dropWhile isSpace

-- The text behind a mark, with or without space before it.
def after (mark : Char) (text : List Char) : Option (List Char) :=
  match skip text with
  | [] => none
  | c :: rest => if c = mark then some rest else none

-- The text behind some letters.
def behind (letters text : List Char) : Option (List Char) :=
  if letters <+: text then some (text.drop letters.length) else none

section Strings

def hexDigit (c : Char) : Option Nat :=
  if '0' ≤ c ∧ c ≤ '9' then some (c.toNat - '0'.toNat)
  else if 'a' ≤ c ∧ c ≤ 'f' then some (c.toNat - 'a'.toNat + 10)
  else if 'A' ≤ c ∧ c ≤ 'F' then some (c.toNat - 'A'.toNat + 10)
  else none

def hex4 : List Char → Option (Nat × List Char)
  | c₁ :: c₂ :: c₃ :: c₄ :: rest => do
      let d₁ ← hexDigit c₁
      let d₂ ← hexDigit c₂
      let d₃ ← hexDigit c₃
      let d₄ ← hexDigit c₄
      return (((d₁ * 16 + d₂) * 16 + d₃) * 16 + d₄, rest)
  | _ => none

-- The character behind \u. Half of a surrogate pair is none.
def unicode (text : List Char) : Option (Char × List Char) := do
  let (high, rest) ← hex4 text
  if high < 0xD800 ∨ 0xE000 ≤ high then return (Char.ofNat high, rest)
  else
    let rest ← behind ['\\', 'u'] rest
    let (low, rest) ← hex4 rest
    if high < 0xDC00 ∧ 0xDC00 ≤ low ∧ low < 0xE000 then
      return (Char.ofNat (0x10000 + (high - 0xD800) * 0x400 + (low - 0xDC00)), rest)
    else none

def escape : List Char → Option (Char × List Char)
  | [] => none
  | c :: rest =>
      if c = 'u' then unicode rest
      else if c = '"' ∨ c = '\\' ∨ c = '/' then some (c, rest)
      else if c = 'b' then some ('\x08', rest)
      else if c = 'f' then some ('\x0c', rest)
      else if c = 'n' then some ('\n', rest)
      else if c = 'r' then some ('\r', rest)
      else if c = 't' then some ('\t', rest)
      else none

-- A character that stands for itself in a string.
def Plain (c : Char) : Prop := c ≠ '"' ∧ c ≠ '\\' ∧ 0x20 ≤ c.toNat

instance (c : Char) : Decidable (Plain c) := inferInstanceAs (Decidable (_ ∧ _))

-- What a string has next: a character, or its end.
def next : List Char → Option (Option Char × List Char)
  | [] => none
  | c :: rest =>
      if c = '"' then some (none, rest)
      else if c = '\\' then (escape rest).map fun (c, rest) => (some c, rest)
      else if Plain c then some (some c, rest)
      else none

def chars : Nat → List Char → Option (List Char × List Char)
  | 0, _ => none
  | fuel + 1, text => do
      let (c, rest) ← next text
      match c with
      | none => return ([], rest)
      | some c =>
          let (cs, rest) ← chars fuel rest
          return (c :: cs, rest)

-- The string whose opening quote has been read.
def string (text : List Char) : Option (String × List Char) := do
  let (cs, rest) ← chars text.length text
  return (String.ofList cs, rest)

end Strings

section Scalars

def word (letters : List Char) (value : Value) (text : List Char) : Option (Value × List Char) :=
  (behind letters text).map fun rest => (value, rest)

def digits (text : List Char) : Option (List Char × List Char) :=
  if text.takeWhile Char.isDigit = [] then none
  else some (text.takeWhile Char.isDigit, text.dropWhile Char.isDigit)

-- The text behind a fraction and behind an exponent, if there is one.
def fraction : List Char → Option (List Char)
  | [] => some []
  | c :: rest => if c = '.' then (digits rest).map Prod.snd else some (c :: rest)

def unsigned (text : List Char) : List Char :=
  match text with
  | [] => []
  | c :: rest => if c = '+' ∨ c = '-' then rest else c :: rest

def exponent : List Char → Option (List Char)
  | [] => some []
  | c :: rest =>
      if c = 'e' ∨ c = 'E' then (digits (unsigned rest)).map Prod.snd else some (c :: rest)

-- A number begins with no zero but the only digit of its integer part.
def natural (text : List Char) : Option (Value × List Char) := do
  let (whole, rest) ← digits text
  if whole.head? = some '0' ∧ whole ≠ ['0'] then none
  else
    let stop ← exponent (← fraction rest)
    if stop.length = rest.length then return (.int (Nat.ofDigitChars 10 whole 0), rest)
    else return (.real (String.ofList (text.take (text.length - stop.length))), stop)

def Value.negate : Value → Value
  | .int value => .int (-value)
  | .real text => .real ("-" ++ text)
  | value => value

def number (text : List Char) : Option (Value × List Char) :=
  match text with
  | [] => none
  | c :: rest =>
      if c = '-' then (natural rest).map fun (value, rest) => (value.negate, rest)
      else natural (c :: rest)

def scalar (text : List Char) : Option (Value × List Char) :=
  word ['n', 'u', 'l', 'l'] .null text <|> word ['t', 'r', 'u', 'e'] (.bool true) text <|>
    word ['f', 'a', 'l', 's', 'e'] (.bool false) text <|> number text

end Scalars

mutual

-- The value that a text begins with, and the text behind it.
def value : Nat → List Char → Option (Value × List Char)
  | 0, _ => none
  | fuel + 1, text =>
      match skip text with
      | [] => none
      | c :: rest =>
          if c = '"' then (string rest).map fun (s, rest) => (.str s, rest)
          else if c = '[' then
            match after ']' rest with
            | some rest => some (.array [], rest)
            | none => (items fuel rest).map fun (values, rest) => (.array values, rest)
          else if c = '{' then
            match after '}' rest with
            | some rest => some (.object [], rest)
            | none => (members fuel rest).map fun (members, rest) => (.object members, rest)
          else scalar (c :: rest)

def items : Nat → List Char → Option (List Value × List Char)
  | 0, _ => none
  | fuel + 1, text => do
      let (first, rest) ← value fuel text
      match after ',' rest with
      | some rest =>
          let (values, rest) ← items fuel rest
          return (first :: values, rest)
      | none =>
          let rest ← after ']' rest
          return ([first], rest)

def members : Nat → List Char → Option (List (String × Value) × List Char)
  | 0, _ => none
  | fuel + 1, text => do
      let (key, rest) ← string (← after '"' text)
      let (first, rest) ← value fuel (← after ':' rest)
      match after ',' rest with
      | some rest =>
          let (others, rest) ← members fuel rest
          return ((key, first) :: others, rest)
      | none =>
          let rest ← after '}' rest
          return ([(key, first)], rest)

end

-- The value of a text that is one value and nothing else. Every value and every mark takes
-- a character, so the fuel is enough.
def loads (text : String) : Option Value := do
  let (v, rest) ← value (2 * text.toList.length + 1) text.toList
  if skip rest = [] then return v else none

end Milo.Lib.Json
