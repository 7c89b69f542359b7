import Milo.Host.Signing
import Milo.Entry.HexKey
import Milo.MainLoop.Authorization

-- What a receiver makes of a signed module when it has the public key of the signer.
namespace Milo.Host.Signing

open Milo.Rust Milo.Engine.Link Milo.Engine.Signing Milo.Engine.Validation Milo.Entry Milo.MainLoop
open Milo.Lib.Json (hexDigit)

section Hex

theorem hexDigit_digitChar {n : Nat} (h : n < 16) : hexDigit (Nat.digitChar n) = some n := by
  revert n
  decide

theorem isspace_digitChar {n : Nat} (h : n < 16) : isspace (Nat.digitChar n) = false := by
  revert n
  decide

theorem mem_hexDigits {bytes : Bytes} {c : Char} (h : c ∈ hexDigits bytes) :
    ∃ n < 16, c = Nat.digitChar n := by
  obtain ⟨b, -, hc⟩ := List.mem_flatMap.mp h
  have hb := b.toNat_lt
  rcases List.mem_cons.mp hc with rfl | hc
  · exact ⟨b.toNat / 16, by omega, rfl⟩
  · obtain rfl := List.mem_singleton.mp hc
    exact ⟨b.toNat % 16, by omega, rfl⟩

theorem strip_hexDigits (bytes : Bytes) : strip (hexDigits bytes) = hexDigits bytes := by
  refine dropWhile_both fun c hc => ?_
  obtain ⟨n, hn, rfl⟩ := mem_hexDigits hc
  exact isspace_digitChar hn

theorem trim_hex (bytes : Bytes) : trim (hex bytes) = hex bytes := by
  unfold trim hex
  rw [String.toList_ofList, dropWhile_both fun c hc => ?_]
  obtain ⟨n, hn, rfl⟩ := mem_hexDigits hc
  have hspace := isspace_digitChar hn
  unfold isspace at hspace
  exact (Bool.or_eq_false_iff.mp hspace).1

theorem ofNat_digits (b : UInt8) : UInt8.ofNat (16 * (b.toNat / 16) + b.toNat % 16) = b := by
  rw [Nat.div_add_mod, UInt8.ofNat_toNat]

theorem fromhex_hexDigits (bytes : Bytes) : fromhex (hexDigits bytes) = some bytes := by
  induction bytes with
  | nil => rfl
  | cons b bytes ih =>
      have hb := b.toNat_lt
      have htop : b.toNat / 16 < 16 := by omega
      have hbot : b.toNat % 16 < 16 := by omega
      have hspace : isAsciiSpace (Nat.digitChar (b.toNat / 16)) = false := by
        have hdigits : ∀ n < 16, isAsciiSpace (Nat.digitChar n) = false := by decide
        exact hdigits _ htop
      have hdigits : hexDigits (b :: bytes) =
          Nat.digitChar (b.toNat / 16) :: Nat.digitChar (b.toNat % 16) :: hexDigits bytes := rfl
      rw [hdigits, fromhex, if_neg (by simp [hspace])]
      simp only [hexDigit_digitChar htop, hexDigit_digitChar hbot, ih, ofNat_digits, bind,
        Option.bind, pure]

theorem mapM_hexDigits (bytes : Bytes) :
    (hexDigits bytes).mapM hexDigit = some (bytes.flatMap fun b => [b.toNat / 16, b.toNat % 16]) := by
  induction bytes with
  | nil => rfl
  | cons b bytes ih =>
      have hb := b.toNat_lt
      have hdigits : hexDigits (b :: bytes) =
          Nat.digitChar (b.toNat / 16) :: Nat.digitChar (b.toNat % 16) :: hexDigits bytes := rfl
      rw [hdigits, List.mapM_cons, List.mapM_cons, ih, hexDigit_digitChar (by omega),
        hexDigit_digitChar (by omega)]
      rfl

theorem getD_flatMap_pair {f g : UInt8 → Nat} (bytes : Bytes) {i : Nat} (hi : i < bytes.length) :
    (bytes.flatMap fun b => [f b, g b]).getD (i * 2) 0 = f bytes[i] ∧
      (bytes.flatMap fun b => [f b, g b]).getD (i * 2 + 1) 0 = g bytes[i] := by
  induction bytes generalizing i with
  | nil => cases hi
  | cons b bytes ih =>
      cases i with
      | zero => exact ⟨rfl, rfl⟩
      | succ i =>
          have hdouble : (i + 1) * 2 = i * 2 + 1 + 1 := by omega
          rw [hdouble]
          exact ih (Nat.lt_of_succ_lt_succ hi)

theorem hexKey_hex (key : PublicKey) : hexKey (hex key.toList) = some key := by
  have hdigits : (hex key.toList).toList.mapM hexDigit =
      some (key.toList.flatMap fun b => [b.toNat / 16, b.toNat % 16]) := by
    rw [hex, String.toList_ofList, mapM_hexDigits]
  have hlen : (key.toList.flatMap fun b => [b.toNat / 16, b.toNat % 16]).length = 64 := by
    simp [List.length_flatMap]
    rfl
  rw [hexKey_of_digits hdigits, if_neg (not_not.mpr hlen)]
  refine congrArg some (Vector.ext fun i hi => ?_)
  have hi' : i < key.toList.length := by rwa [Vector.length_toList]
  obtain ⟨htop, hbot⟩ :=
    getD_flatMap_pair (f := fun b => b.toNat / 16) (g := fun b => b.toNat % 16) key.toList hi'
  rw [Vector.getElem_ofFn, htop, hbot, ofNat_digits, Vector.getElem_toList]

end Hex

-- The policy of a receiver with this text for a trusted key: in the environment of the
-- emulator, or built into an image.
inductive Provisioned (text : String) : SecurityPolicy → Prop
  | std (requireSigned : Except VarError String) {policy : SecurityPolicy}
      (h : stdPolicy { trustedKey := .ok text, requireSigned := requireSigned } = .ok policy) :
      Provisioned text policy
  | esp : Provisioned text (espPolicy (some text))

theorem parseHexKey_hex (key : PublicKey) : (parseHexKey (hex key.toList)).run = .ok (some key) := by
  have hdigits : IsHexKey (hex key.toList) := by
    rw [← hexKey_isSome_iff, hexKey_hex]
    rfl
  have hright : ReadsRight (trim (hex key.toList)) := by
    rw [trim_hex]
    exact .inr (.inl hdigits)
  have hrun := (parseHexKey_run_iff _).mpr hright
  rwa [trim_hex, hexKey_hex] at hrun

theorem parseHexKeyConst_hex (key : PublicKey) : parseHexKeyConst (hex key.toList) = some key :=
  (parseHexKeyConst_eq_hexKey _).trans (hexKey_hex key)

-- Both readers give the receiver the key back.
theorem Provisioned.trustedKey {key : PublicKey} {policy : SecurityPolicy}
    (h : Provisioned (hex key.toList) policy) : policy.trustedKey = some key := by
  cases h with
  | std requireSigned hpolicy =>
      unfold stdPolicy at hpolicy
      obtain ⟨parsed, hparsed, hpolicy⟩ := bind_eq_ok.mp hpolicy
      obtain rfl := Except.ok.inj ((parseHexKey_hex key).symm.trans hparsed)
      dsimp only at hpolicy
      split at hpolicy
      · exact Except.ok.inj hpolicy ▸ rfl
      · exact Except.ok.inj hpolicy ▸ rfl
  | esp =>
      unfold espPolicy
      dsimp only
      rw [parseHexKeyConst_hex]
      rfl

-- The crate takes the keys and the signatures that the package makes.
structure Correct (crypto : Cryptography) (crate : Ed25519) : Prop where
  verifyingKey : ∀ sk, crate.verifyingKey (crypto.publicKey sk)
  signature : ∀ sk message, crate.signature (crypto.sign sk message).toList
  verify : ∀ sk message, crate.verify (crypto.publicKey sk) message (crypto.sign sk message).toList

section Receiver

variable (settings : Settings)

-- What authorize_module makes of the bytes behind the gates of signature and policy.
def validated (wasm : Bytes) : Except Fault (Except String Bytes) := do
  let v ← validateWasmImports settings.width wasm
  if v.valid then return .ok wasm else return .error (rejectedImportsJson v.rejectedImports)

-- A frame with the payload, of either signed opcode, has just that module validated.
def Accepts (payload wasm : Bytes) : Prop :=
  ∀ frame : Frame, frame.payload = payload →
    frame.opcode = OP_SIGNED_PUSH ∨ frame.opcode = OP_SIGNED_SWAP →
    ∃ signed, (Request.ofOpcode frame.opcode).loads = some signed ∧
      settings.moduleBytes frame.payload signed = .ok wasm ∧
      settings.authorizeModule frame.payload signed = validated settings wasm

-- What verify_signed accepts is a signature of 64 bytes and a module that it is valid for.
def OnlySigned : Prop :=
  ∀ payload key wasm, verifySigned settings.ed25519 payload key = .ok wasm →
    ∃ crate sig, settings.ed25519 = some crate ∧ payload = sig ++ wasm ∧ sig.length = SIG_LEN ∧
      wasm ≠ [] ∧ crate.signature sig ∧ crate.verify key wasm sig

theorem onlySigned : OnlySigned settings := by
  intro payload key wasm h
  obtain ⟨crate, hcrate, hsigned⟩ := verifySigned_eq_ok.mp h
  obtain ⟨hlong, rfl, -, hsignature, hverified⟩ := hsigned
  refine ⟨crate, payload.take SIG_LEN, hcrate, (List.take_append_drop SIG_LEN payload).symm, ?_, ?_,
    hsignature, hverified⟩
  · rw [List.length_take, Nat.min_eq_left hlong.le]
  · intro hnil
    have hle := List.drop_eq_nil_iff.mp hnil
    omega

theorem loads_signed {opcode : UInt8} (h : opcode = OP_SIGNED_PUSH ∨ opcode = OP_SIGNED_SWAP) :
    (Request.ofOpcode opcode).loads = some true := by
  rcases h with rfl | rfl
  · rfl
  · rfl

theorem authorizeModule_of_moduleBytes {payload wasm : Bytes} {signed : Bool}
    (h : settings.moduleBytes payload signed = .ok wasm) :
    settings.authorizeModule payload signed = validated settings wasm := by
  rw [Settings.authorizeModule, h]
  rfl

theorem accepts_iff {payload wasm : Bytes} {key : PublicKey}
    (hkey : settings.policy.trustedKey = some key) :
    Accepts settings payload wasm ↔ verifySigned settings.ed25519 payload key = .ok wasm := by
  have hbytes : settings.moduleBytes payload true = .ok wasm ↔
      verifySigned settings.ed25519 payload key = .ok wasm := by
    unfold Settings.moduleBytes
    rw [if_pos rfl, hkey]
    dsimp only
    cases verifySigned settings.ed25519 payload key with
    | error e => exact iff_of_false (fun h => by cases h) fun h => by cases h
    | ok verified => exact Iff.rfl
  rw [← hbytes]
  constructor
  · intro h
    obtain ⟨signed, hloads, hmodule, -⟩ := h { opcode := OP_SIGNED_PUSH, payload := payload } rfl (.inl rfl)
    obtain rfl := Option.some.inj (hloads.symm.trans (loads_signed (.inl rfl)))
    exact hmodule
  · rintro h frame rfl hop
    exact ⟨true, loads_signed hop, h, authorizeModule_of_moduleBytes settings h⟩

end Receiver

theorem publicKeyHex_eq_ok {crypto : Cryptography} {privateHex text : String} :
    publicKeyHex (some crypto) privateHex = .ok text ↔
      ∃ sk, fromPrivateBytes privateHex = .ok sk ∧ text = hex (crypto.publicKey sk).toList := by
  change (fromPrivateBytes privateHex >>= fun sk => .ok (hex (crypto.publicKey sk).toList)) = .ok text ↔ _
  rw [bind_eq_ok]
  simp only [Except.ok.injEq, eq_comm]

theorem signWasm_eq_ok {crypto : Cryptography} {wasm : Bytes} {privateHex : String} {payload : Bytes} :
    signWasm (some crypto) wasm privateHex = .ok payload ↔
      ∃ sk, fromPrivateBytes privateHex = .ok sk ∧ payload = (crypto.sign sk wasm).toList ++ wasm := by
  change (fromPrivateBytes privateHex >>= fun sk => .ok ((crypto.sign sk wasm).toList ++ wasm)) =
    .ok payload ↔ _
  rw [bind_eq_ok]
  simp only [Except.ok.injEq, eq_comm]

-- A receiver with the public key of the signer takes its modules, if it has been built
-- with a signature crate at all.
theorem signed_accepted_iff (crypto : Cryptography) (settings : Settings)
    (hcorrect : ∀ crate, settings.ed25519 = some crate → Correct crypto crate)
    {privateHex text : String} {wasm payload : Bytes} (hwasm : wasm ≠ [])
    (htext : publicKeyHex (some crypto) privateHex = .ok text)
    (hprovisioned : Provisioned text settings.policy)
    (hsign : signWasm (some crypto) wasm privateHex = .ok payload) :
    Accepts settings payload wasm ∧ OnlySigned settings ↔ settings.ed25519.isSome := by
  obtain ⟨sk, hsk, rfl⟩ := publicKeyHex_eq_ok.mp htext
  obtain ⟨sk', hsk', rfl⟩ := signWasm_eq_ok.mp hsign
  obtain rfl := Except.ok.inj (hsk.symm.trans hsk')
  rw [accepts_iff settings hprovisioned.trustedKey, verifySigned_eq_ok]
  constructor
  · rintro ⟨⟨crate, hcrate, -⟩, -⟩
    rw [hcrate]
    rfl
  · intro hbuilt
    obtain ⟨crate, hcrate⟩ := Option.isSome_iff_exists.mp hbuilt
    obtain ⟨hkey, hsignature, hverify⟩ := hcorrect crate hcrate
    have hlen : (crypto.sign sk wasm).toList.length = SIG_LEN := Vector.length_toList
    have htake : ((crypto.sign sk wasm).toList ++ wasm).take SIG_LEN = (crypto.sign sk wasm).toList :=
      List.take_left' hlen
    refine ⟨⟨crate, hcrate, ?_, (List.drop_left' hlen).symm, hkey sk, ?_, ?_⟩, onlySigned settings⟩
    · rw [List.length_append, hlen]
      have hpos := List.length_pos_of_ne_nil hwasm
      omega
    · rw [htake]
      exact hsignature sk wasm
    · rw [htake]
      exact hverify sk wasm

-- The method bytes.hex writes a private key so that it can be read.
theorem fromPrivateBytes_hex (sk : Seed) : fromPrivateBytes (hex sk.toList) = .ok sk := by
  unfold fromPrivateBytes hex
  rw [String.toList_ofList, strip_hexDigits, fromhex_hexDigits]
  have hsize : sk.toList.toArray.size = 32 := by simp
  dsimp only
  rw [dif_pos hsize]
  exact congrArg Except.ok (Vector.toArray_inj.mp Array.toArray_toList)

section Bench

-- The key pair of the seed 0, 1, .., 31, and its signature of the empty module.
def benchSeed : Seed := Vector.ofFn fun i => UInt8.ofNat i.val

def benchKey : PublicKey :=
  ⟨#[0x03, 0xA1, 0x07, 0xBF, 0xF3, 0xCE, 0x10, 0xBE, 0x1D, 0x70, 0xDD, 0x18, 0xE7, 0x4B, 0xC0, 0x99,
    0x67, 0xE4, 0xD6, 0x30, 0x9B, 0xA5, 0x0D, 0x5F, 0x1D, 0xDC, 0x86, 0x64, 0x12, 0x55, 0x31, 0xB8], rfl⟩

def benchSign (message : Bytes) : Vector UInt8 64 :=
  if message = emptyModule then
    ⟨#[0x7C, 0x15, 0x26, 0x0D, 0xD8, 0x88, 0xAE, 0x5F, 0xCD, 0x37, 0x90, 0x17, 0xAD, 0x1B, 0xB4, 0x4B,
      0x73, 0xB2, 0x8B, 0xAF, 0xDD, 0x09, 0xC4, 0xB5, 0xF6, 0xCF, 0x56, 0x8F, 0xC4, 0xF6, 0x48, 0x22,
      0xA8, 0xBD, 0xA4, 0xD5, 0xA9, 0x39, 0xEC, 0x1E, 0x38, 0x78, 0xB5, 0x09, 0x9E, 0x36, 0x50, 0xD8,
      0x13, 0x25, 0x85, 0x70, 0xC9, 0x8C, 0xAF, 0x6A, 0xA0, 0xD5, 0x5F, 0x4A, 0xBB, 0x44, 0x36, 0x05], rfl⟩
  else Vector.replicate 64 0

def benchCrypto : Cryptography where
  publicKey _ := benchKey
  sign _ message := benchSign message

def benchCrate : Ed25519 where
  verifyingKey _ := true
  signature sig := sig.length = SIG_LEN
  verify key message sig := key = benchKey ∧ sig = (benchSign message).toList

theorem benchCrate_correct : Correct benchCrypto benchCrate where
  verifyingKey _ := rfl
  signature _ _ := decide_eq_true Vector.length_toList
  verify _ _ := decide_eq_true ⟨rfl, rfl⟩

def benchSettings (ed25519 : Option Ed25519) (policy : SecurityPolicy) : Settings :=
  { openSettings with ed25519 := ed25519, policy := policy }

theorem bench_accepted :
    Accepts (benchSettings (some benchCrate) (espPolicy (some (hex benchKey.toList))))
        ((benchSign emptyModule).toList ++ emptyModule) emptyModule ∧
      OnlySigned (benchSettings (some benchCrate) (espPolicy (some (hex benchKey.toList)))) := by
  refine (signed_accepted_iff benchCrypto
    (benchSettings (some benchCrate) (espPolicy (some (hex benchKey.toList)))) ?_ (by decide)
    (publicKeyHex_eq_ok.mpr ⟨benchSeed, fromPrivateBytes_hex benchSeed, rfl⟩) .esp
    (signWasm_eq_ok.mpr ⟨benchSeed, fromPrivateBytes_hex benchSeed, rfl⟩)).mpr rfl
  rintro crate heq
  obtain rfl := Option.some.inj heq
  exact benchCrate_correct

-- An image with the same key that has been built without a signature crate refuses it.
theorem bench_refused :
    publicKeyHex (some benchCrypto) (hex benchSeed.toList) = .ok (hex benchKey.toList) ∧
    signWasm (some benchCrypto) emptyModule (hex benchSeed.toList) =
      .ok ((benchSign emptyModule).toList ++ emptyModule) ∧
    (benchSettings none (espPolicy (some (hex benchKey.toList)))).authorizeModule
        ((benchSign emptyModule).toList ++ emptyModule) true =
      .ok (.error (errorJson "signature rejected: signing not supported in this build")) ∧
    ¬Accepts (benchSettings none (espPolicy (some (hex benchKey.toList))))
        ((benchSign emptyModule).toList ++ emptyModule) emptyModule := by
  have hkey : (espPolicy (some (hex benchKey.toList))).trustedKey = some benchKey :=
    Provisioned.esp.trustedKey
  refine ⟨publicKeyHex_eq_ok.mpr ⟨benchSeed, fromPrivateBytes_hex benchSeed, rfl⟩,
    signWasm_eq_ok.mpr ⟨benchSeed, fromPrivateBytes_hex benchSeed, rfl⟩, ?_, ?_⟩
  · simp only [Settings.authorizeModule, Settings.moduleBytes, benchSettings, hkey, if_true, verifySigned]
    rfl
  · rw [accepts_iff _ hkey]
    rintro ⟨⟩

end Bench

end Milo.Host.Signing
