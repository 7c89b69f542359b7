import Milo.MainLoop
import Mathlib.Data.List.DropRight

namespace Milo.Entry

open Milo.Rust Milo.Engine.Signing Milo.MainLoop

-- The characters of the Unicode property White_Space.
def isWhitespace (c : Char) : Bool :=
  (0x09 ≤ c.val && c.val ≤ 0x0D) || (0x2000 ≤ c.val && c.val ≤ 0x200A) ||
    c.val ∈ [0x20, 0x85, 0xA0, 0x1680, 0x2028, 0x2029, 0x202F, 0x205F, 0x3000]

-- The call str::trim.
def trim (s : String) : String :=
  String.ofList ((s.toList.dropWhile isWhitespace).rdropWhile isWhitespace)

-- The call str::is_char_boundary, on the bytes of the string.
def isCharBoundary (bytes : Bytes) (i : Nat) : Bool :=
  i = 0 || i = bytes.length ||
    match bytes[i]? with
    | some b => b < 0x80 || 0xC0 ≤ b
    | none => false

-- The expression s[start..stop] on the bytes of a string.
def sliceStr (bytes : Bytes) (start stop : Nat) : Except Fault Bytes :=
  if start ≤ stop ∧ isCharBoundary bytes start ∧ isCharBoundary bytes stop then
    .ok ((bytes.take stop).drop start)
  else .error .panic

def hexNibble (c : UInt8) : Option UInt8 :=
  if 0x30 ≤ c ∧ c ≤ 0x39 then some (c - 0x30)
  else if 0x61 ≤ c ∧ c ≤ 0x66 then some (c - 0x61 + 10)
  else if 0x41 ≤ c ∧ c ≤ 0x46 then some (c - 0x41 + 10)
  else none

def hexDigits (bytes : Bytes) : Option UInt8 :=
  (bytes.foldlM (fun n c => do
    let digit ← hexNibble c
    if n * 16 + digit.toNat < 256 then some (n * 16 + digit.toNat) else none) 0).map UInt8.ofNat

-- The call u8::from_str_radix(s, 16). It takes a plus sign in front of the digits.
def fromStrRadix16 : Bytes → Option UInt8
  | [] => none
  | [0x2B] => none
  | [0x2D] => none
  | 0x2B :: digits => hexDigits digits
  | digits => hexDigits digits

def parseHexKey (hex : String) : OptionT (Except Fault) PublicKey := do
  let bytes := intoBytes (trim hex)
  if bytes.length ≠ 64 then failure
  (List.finRange PUBKEY_LEN).foldlM (fun key (i : Fin PUBKEY_LEN) => do
    let digits ← OptionT.lift (sliceStr bytes (i.val * 2) (i.val * 2 + 2))
    let b ← OptionT.mk (pure (fromStrRadix16 digits))
    return key.set i.val b) (Vector.replicate PUBKEY_LEN 0)

def parseHexKeyConst (hex : String) : Option PublicKey := do
  let bytes := intoBytes hex
  if bytes.length ≠ 64 then failure
  (List.finRange PUBKEY_LEN).foldlM (fun key (i : Fin PUBKEY_LEN) => do
    let hi ← hexNibble (← bytes[i.val * 2]?)
    let lo ← hexNibble (← bytes[i.val * 2 + 1]?)
    return key.set i.val (hi <<< 4 ||| lo)) (Vector.replicate PUBKEY_LEN 0)

-- The ways in which std::env::var has no value.
inductive VarError where
  | notPresent
  | notUnicode
deriving DecidableEq

-- What the operator has set MILO_TRUSTED_KEY and MILO_REQUIRE_SIGNED to.
structure Environment where
  trustedKey : Except VarError String
  requireSigned : Except VarError String

-- The policy of the emulator; a fault is a receiver that refuses to start.
def stdPolicy (env : Environment) : Except Fault SecurityPolicy :=
  match env.trustedKey with
  | .ok hex => do
      match ← (parseHexKey hex).run with
      | some key =>
          match env.requireSigned with
          | .ok "1" => return .signedOnly key
          | _ => return { trustedKey := some key, requireSigned := false }
      | none => .error .panic
  | .error _ => return .open

-- The policy built into an ESP32-C3 image.
def espPolicy (trustedKey : Option String) : SecurityPolicy :=
  match trustedKey with
  | some hex =>
      match parseHexKeyConst hex with
      | some key => .signedOnly key
      | none => .open
  | none => .open

end Milo.Entry
