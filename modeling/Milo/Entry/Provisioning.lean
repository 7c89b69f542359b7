import Milo.Entry
import Milo.MainLoop.Authorization

namespace Milo.Entry

open Milo.Rust Milo.Engine.Link Milo.Engine.Executor Milo.Engine.Signing Milo.MainLoop Milo.Transport

-- Under the policy, every module that any main loop submits came in a signed frame, just
-- before, whose signature the trusted key accepts.
def NoUnsigned (policy : SecurityPolicy) : Prop :=
  ∀ {T E H : Type} (board : Board T E H) (t : T) (exec : E) (n : Nat) (before after : List Event)
    (wasm : Bytes), board.policy = policy →
      (board.run (.start t exec) n).log = before ++ .submitted wasm :: after →
        ∃ earlier frame crate key,
          (before = earlier ++ [.received (.ok frame)] ∨
            before = earlier ++ [.received (.ok frame), .stopped]) ∧
          (frame.opcode = OP_SIGNED_PUSH ∨ frame.opcode = OP_SIGNED_SWAP) ∧
          board.ed25519 = some crate ∧ policy.trustedKey = some key ∧
          SignedBy crate key frame.payload wasm

-- A receiver that refuses to start fails closed as well.
def FailsClosed (provisioned : Except Fault SecurityPolicy) : Prop :=
  ∀ policy, provisioned = .ok policy → NoUnsigned policy

theorem failsClosed_ok (policy : SecurityPolicy) : FailsClosed (.ok policy) ↔ NoUnsigned policy := by
  constructor
  · exact fun h => h policy rfl
  · rintro h policy' heq
    exact Except.ok.inj heq ▸ h

theorem noUnsigned_iff (policy : SecurityPolicy) :
    NoUnsigned policy ↔ policy.requireSigned = true := by
  constructor
  · intro h
    by_contra hpolicy
    obtain ⟨trustedKey, requireSigned⟩ := policy
    obtain rfl : requireSigned = false := by simpa using hpolicy
    -- a bare push of the empty module
    let frame : Frame := { opcode := OP_BYTECODE_PUSH, payload := emptyModule }
    let settings : Settings := { openSettings with policy := ⟨trustedKey, false⟩ }
    obtain ⟨earlier, received, crate, key, hbefore, hop, -⟩ :=
      h (settings.threaded Connection.transport (silentRuntime 2)) ⟨[.ok frame], []⟩
        (ThreadedExecutor.new () none none none ()) 1 [.received (.ok frame)] [] emptyModule rfl rfl
    rcases hbefore with hbefore | hbefore
    · have happend : [] ++ [Event.received (.ok frame)] = earlier ++ [.received (.ok received)] := hbefore
      obtain ⟨-, hlast⟩ := List.append_inj' happend rfl
      obtain rfl : frame = received := by simpa using hlast
      revert hop
      decide
    · have hlen := congrArg List.length hbefore
      simp at hlen
  · intro h T E H board t exec n before after wasm hpolicy hlog
    obtain ⟨earlier, frame, hbefore, haccepted⟩ := (board.gated_run t exec n).accepted board hlog
    cases haccepted.authorized with
    | unsigned _ hopen =>
        rw [hpolicy, h] at hopen
        cases hopen
    | signed _ crate key hop hcrate hkey hsigned =>
        exact ⟨earlier, frame, crate, key, hbefore, hop, hcrate, hpolicy ▸ hkey, hsigned⟩

-- With MILO_REQUIRE_SIGNED=1 the emulator fails closed as soon as there is a key to
-- read, whatever it reads like.
theorem stdPolicy_failsClosed_iff (env : Environment) (hrequire : env.requireSigned = .ok "1") :
    FailsClosed (stdPolicy env) ↔ ∃ hex, env.trustedKey = .ok hex := by
  unfold stdPolicy
  cases hkey : env.trustedKey with
  | error e =>
      refine iff_of_false (fun h => ?_) (by rintro ⟨hex, h⟩; cases h)
      have hopen := (noUnsigned_iff _).mp (h .open rfl)
      cases hopen
  | ok hex =>
      refine iff_of_true (fun policy h => ?_) ⟨hex, rfl⟩
      obtain ⟨parsed, hparsed, h⟩ := bind_eq_ok.mp h
      cases parsed with
      | none => cases h
      | some key =>
          rw [hrequire] at h
          obtain rfl := Except.ok.inj h
          exact (noUnsigned_iff _).mpr rfl

section Hex

theorem foldlM_isSome_iff {α β : Type} {step : β → α → Option β} {good : α → Prop}
    (hstep : ∀ b a, (step b a).isSome ↔ good a) (l : List α) (b : β) :
    (l.foldlM step b).isSome ↔ ∀ a ∈ l, good a := by
  induction l generalizing b with
  | nil => simp
  | cons a l ih =>
      rw [List.foldlM_cons, List.forall_mem_cons, ← hstep b a]
      cases hs : step b a with
      | none => simp
      | some b' => simpa using ih b'

-- The string is 64 hexadecimal digits.
def IsHexKey (hex : String) : Prop :=
  (intoBytes hex).length = 64 ∧ ∀ c ∈ intoBytes hex, (hexNibble c).isSome

-- The two digits of byte i.
def DigitsAt (bytes : Bytes) (i : Nat) : Prop :=
  ∀ k, k = i * 2 ∨ k = i * 2 + 1 → ∃ c, bytes[k]? = some c ∧ (hexNibble c).isSome

theorem digitsAt_all_iff (bytes : Bytes) (h : bytes.length = 64) :
    (∀ i ∈ List.finRange PUBKEY_LEN, DigitsAt bytes i.val) ↔ ∀ c ∈ bytes, (hexNibble c).isSome := by
  constructor
  · intro hall c hc
    obtain ⟨k, hk, rfl⟩ := List.getElem_of_mem hc
    have hi : k / 2 < PUBKEY_LEN := by unfold PUBKEY_LEN; omega
    obtain ⟨c, hget, hdigit⟩ := hall ⟨k / 2, hi⟩ (List.mem_finRange _) k (by dsimp only; omega)
    rw [List.getElem?_eq_getElem hk] at hget
    exact Option.some.inj hget ▸ hdigit
  · intro hall i _ k hk
    have hi := i.isLt
    unfold PUBKEY_LEN at hi
    have hlt : k < bytes.length := by omega
    exact ⟨bytes[k], List.getElem?_eq_getElem hlt, hall _ (List.getElem_mem hlt)⟩

theorem parseHexKeyConst_isSome_iff (hex : String) :
    (parseHexKeyConst hex).isSome ↔ IsHexKey hex := by
  unfold parseHexKeyConst IsHexKey
  generalize intoBytes hex = bytes
  by_cases hlen : bytes.length = 64
  · simp only [hlen, ne_eq, not_true_eq_false, if_false, true_and]
    rw [← digitsAt_all_iff bytes hlen]
    refine foldlM_isSome_iff (fun key i => ?_) _ _
    have hi := i.isLt
    unfold PUBKEY_LEN at hi
    have hhi : i.val * 2 < bytes.length := by omega
    have hlo : i.val * 2 + 1 < bytes.length := by omega
    have hdigits : DigitsAt bytes i.val ↔
        (hexNibble bytes[i.val * 2]).isSome ∧ (hexNibble bytes[i.val * 2 + 1]).isSome := by
      simp [DigitsAt, List.getElem?_eq_getElem hhi, List.getElem?_eq_getElem hlo]
    rw [hdigits, List.getElem?_eq_getElem hhi, List.getElem?_eq_getElem hlo]
    cases hfirst : hexNibble bytes[i.val * 2] <;>
      cases hsecond : hexNibble bytes[i.val * 2 + 1] <;> simp [hfirst, hsecond]
  · simp [hlen]

end Hex

-- An image with a trusted key built in fails closed only when that key can be read.
theorem espPolicy_failsClosed_iff (hex : String) :
    FailsClosed (.ok (espPolicy (some hex))) ↔ IsHexKey hex := by
  rw [failsClosed_ok, noUnsigned_iff, ← parseHexKeyConst_isSome_iff]
  cases hparse : parseHexKeyConst hex with
  | none => simp [espPolicy, hparse, SecurityPolicy.open]
  | some key => simp [espPolicy, hparse, SecurityPolicy.signedOnly]

-- When the settings that ask for signed modules are honoured.
theorem provisioned_failsClosed_iff (env : Environment) (hex : String) :
    (env.requireSigned = .ok "1" →
      (FailsClosed (stdPolicy env) ↔ ∃ hex, env.trustedKey = .ok hex)) ∧
    (FailsClosed (.ok (espPolicy (some hex))) ↔ IsHexKey hex) :=
  ⟨stdPolicy_failsClosed_iff env, espPolicy_failsClosed_iff hex⟩

-- Signed modules required without a key, and a key with a newline behind it.
theorem provisioned_open :
    ¬FailsClosed (stdPolicy { trustedKey := .error .notPresent, requireSigned := .ok "1" }) ∧
      ¬FailsClosed (.ok (espPolicy (some
        "0102030405060708090a0b0c0d0e0f101112131415161718191a1b1c1d1e1f20\n"))) := by
  constructor
  · intro h
    obtain ⟨hex, hkey⟩ := (stdPolicy_failsClosed_iff _ rfl).mp h
    cases hkey
  · intro h
    have hlen := ((espPolicy_failsClosed_iff _).mp h).1
    exact absurd hlen (by decide)

end Milo.Entry
