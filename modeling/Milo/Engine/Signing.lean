import Milo.Rust

namespace Milo.Engine.Signing

def SIG_LEN : Nat := 64
def PUBKEY_LEN : Nat := 32

abbrev PublicKey := Vector UInt8 PUBKEY_LEN

-- What verify_signed uses of the signature crate: which keys and signatures it can
-- read, and which signature a key accepts for a message.
structure Ed25519 where
  verifyingKey : PublicKey → Bool
  signature : Bytes → Bool
  verify : PublicKey → Bytes → Bytes → Bool

def splitSigned (payload : Bytes) : Option (Bytes × Bytes) :=
  if payload.length ≤ SIG_LEN then none else some (payload.take SIG_LEN, payload.drop SIG_LEN)

-- A build without the feature signing has no signature crate.
def verifySigned (ed25519 : Option Ed25519) (payload : Bytes) (pubkey : PublicKey) :
    Except String Bytes :=
  match ed25519 with
  | none => .error "signing not supported in this build"
  | some ed25519 =>
      match splitSigned payload with
      | none => .error "signed payload too short"
      | some (sig, wasm) =>
          if !ed25519.verifyingKey pubkey then .error "malformed trusted key"
          else if !ed25519.signature sig then .error "malformed signature"
          else if !ed25519.verify pubkey wasm sig then .error "signature verification failed"
          else .ok wasm

-- What a payload accepted under a key is.
structure SignedBy (ed25519 : Ed25519) (pubkey : PublicKey) (payload wasm : Bytes) : Prop where
  long : SIG_LEN < payload.length
  wasm_eq : wasm = payload.drop SIG_LEN
  key : ed25519.verifyingKey pubkey
  signature : ed25519.signature (payload.take SIG_LEN)
  verified : ed25519.verify pubkey wasm (payload.take SIG_LEN)

theorem verifySigned_eq_ok {ed25519 : Option Ed25519} {payload wasm : Bytes} {pubkey : PublicKey} :
    verifySigned ed25519 payload pubkey = .ok wasm ↔
      ∃ crate, ed25519 = some crate ∧ SignedBy crate pubkey payload wasm := by
  constructor
  · intro h
    unfold verifySigned splitSigned at h
    split at h
    · cases h
    · rename_i crate
      by_cases hlen : payload.length ≤ SIG_LEN
      · rw [if_pos hlen] at h
        cases h
      · rw [if_neg hlen] at h
        dsimp only at h
        split_ifs at h with hkey hsig hver
        obtain rfl := Except.ok.inj h
        simp only [Bool.not_eq_true', Bool.not_eq_false] at hkey hsig hver
        exact ⟨crate, rfl, by omega, rfl, hkey, hsig, hver⟩
  · rintro ⟨crate, rfl, h⟩
    have hlen := h.long
    have hver := h.verified
    rw [h.wasm_eq] at hver
    simp only [verifySigned, splitSigned, if_neg (Nat.not_le_of_lt hlen), h.key, h.signature, hver,
      Bool.not_true, Bool.false_eq_true, if_false, h.wasm_eq]

end Milo.Engine.Signing
