import Milo.Host.Str
import Milo.Lib.Json

-- The signatures of the host, and the texts of its keys.
namespace Milo.Host.Signing

open Milo.Engine.Signing
open Milo.Lib.Json (hexDigit)

-- The bytes of a private key.
abbrev Seed := Vector UInt8 32

-- What signing uses of the package cryptography: the raw public key of a private key, and
-- its signatures.
structure Cryptography where
  publicKey : Seed → PublicKey
  sign : Seed → Bytes → Vector UInt8 64

inductive SigningError where
  -- the package is not installed
  | runtimeError (message : String)
  -- no hexadecimal text of 32 bytes
  | valueError
deriving DecidableEq, Repr

section Builtins

-- The digits of the method bytes.hex.
def hexDigits (bytes : Bytes) : List Char :=
  bytes.flatMap fun b => [Nat.digitChar (b.toNat / 16), Nat.digitChar (b.toNat % 16)]

def hex (bytes : Bytes) : String := String.ofList (hexDigits bytes)

-- The spaces that bytes.fromhex passes over between two bytes.
def isAsciiSpace (c : Char) : Bool := c = ' ' || ('\t' ≤ c && c ≤ '\r')

-- The method bytes.fromhex.
def fromhex : List Char → Option Bytes
  | [] => some []
  | c :: rest =>
      if isAsciiSpace c then fromhex rest
      else
        match rest with
        | [] => none
        | d :: rest => do
            let top ← hexDigit c
            let bot ← hexDigit d
            return UInt8.ofNat (16 * top + bot) :: (← fromhex rest)

end Builtins

-- The call Ed25519PrivateKey.from_private_bytes on the hexadecimal text of a key.
def fromPrivateBytes (privateHex : String) : Except SigningError Seed :=
  match fromhex (strip privateHex.toList) with
  | some bytes => if h : bytes.toArray.size = 32 then .ok ⟨bytes.toArray, h⟩ else .error .valueError
  | none => .error .valueError

section Sign

variable (cryptography : Option Cryptography)

def requireCrypto : Except SigningError Cryptography :=
  match cryptography with
  | some crypto => .ok crypto
  | none =>
      .error (.runtimeError
        "signing requires the 'cryptography' package: pip install cryptography")

def publicKeyHex (privateHex : String) : Except SigningError String := do
  let crypto ← requireCrypto cryptography
  let sk ← fromPrivateBytes privateHex
  return hex (crypto.publicKey sk).toList

def signWasm (wasm : Bytes) (privateHex : String) : Except SigningError Bytes := do
  let crypto ← requireCrypto cryptography
  let sk ← fromPrivateBytes privateHex
  let signature := crypto.sign sk wasm
  return signature.toList ++ wasm

end Sign

end Milo.Host.Signing
