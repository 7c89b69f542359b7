import Milo.MainLoop.Ledger

namespace Milo.MainLoop

open Milo.Engine.Link Milo.Engine.Executor Milo.Engine.Signing Milo.Engine.Validation Milo.Transport

theorem Request.opcode_of_loads {opcode : UInt8} {signed : Bool}
    (h : (Request.ofOpcode opcode).loads = some signed) :
    if signed then opcode = OP_SIGNED_PUSH ∨ opcode = OP_SIGNED_SWAP
    else opcode = OP_BYTECODE_PUSH ∨ opcode = OP_HOT_SWAP := by
  unfold Request.ofOpcode at h
  split_ifs at h with h1 h2 h3 h4 h5 h6 h7 h8
  all_goals simp only [Request.loads, Option.some.injEq, reduceCtorEq] at h
  all_goals subst h
  · exact .inl h2
  · exact .inl h3
  · exact .inr h7
  · exact .inr h8

namespace Settings

variable (settings : Settings)

-- Which bytes a frame may have executed under the policy.
inductive Authorized (frame : Frame) : Bytes → Prop
  | unsigned (hop : frame.opcode = OP_BYTECODE_PUSH ∨ frame.opcode = OP_HOT_SWAP)
      (hpolicy : settings.policy.requireSigned = false) : Authorized frame frame.payload
  | signed (wasm : Bytes) (crate : Ed25519) (key : PublicKey)
      (hop : frame.opcode = OP_SIGNED_PUSH ∨ frame.opcode = OP_SIGNED_SWAP)
      (hcrate : settings.ed25519 = some crate) (hkey : settings.policy.trustedKey = some key)
      (hsigned : SignedBy crate key frame.payload wasm) : Authorized frame wasm

-- Both gates of authorize_module are open for these bytes.
structure Accepted (frame : Frame) (wasm : Bytes) : Prop where
  authorized : settings.Authorized frame wasm
  valid : ∃ v, validateWasmImports settings.width wasm = .ok v ∧ v.valid = true

theorem moduleBytes_authorized {frame : Frame} {signed : Bool} {wasm : Bytes}
    (hloads : (Request.ofOpcode frame.opcode).loads = some signed)
    (h : settings.moduleBytes frame.payload signed = .ok wasm) : settings.Authorized frame wasm := by
  have hop := Request.opcode_of_loads hloads
  unfold moduleBytes at h
  cases signed with
  | true =>
      rw [if_pos rfl] at h hop
      split at h
      · cases h
      · rename_i key hkey
        split at h
        · cases h
        · rename_i verified hv
          obtain rfl := Except.ok.inj h
          obtain ⟨crate, hcrate, hsigned⟩ := verifySigned_eq_ok.mp hv
          exact .signed _ crate key hop hcrate hkey hsigned
  | false =>
      rw [if_neg Bool.false_ne_true] at h hop
      split_ifs at h with hpolicy
      obtain rfl := Except.ok.inj h
      exact .unsigned hop (by simpa using hpolicy)

theorem authorizeModule_accepted {frame : Frame} {signed : Bool} {wasm : Bytes}
    (hloads : (Request.ofOpcode frame.opcode).loads = some signed)
    (h : settings.authorizeModule frame.payload signed = .ok (.ok wasm)) :
    settings.Accepted frame wasm := by
  unfold authorizeModule at h
  split at h
  · cases h
  · rename_i bytes hbytes
    obtain ⟨v, hv, h⟩ := Rust.bind_eq_ok.mp h
    split_ifs at h with hvalid
    · obtain rfl := Except.ok.inj (Except.ok.inj h)
      exact ⟨settings.moduleBytes_authorized hloads hbytes, v, hv, hvalid⟩
    · cases h

end Settings

namespace Board

variable {T E H : Type} (board : Board T E H)

-- Each submission in the log follows the frame that was accepted for it, with at
-- most a stop in between.
inductive Gated : List Event → Prop
  | nil : Gated []
  | snoc (log : List Event) (e : Event) (h : Gated log) (he : ∀ b, e ≠ .submitted b) :
      Gated (log ++ [e])
  | pushed (log : List Event) (frame : Frame) (wasm : Bytes)
      (h : Gated (log ++ [.received (.ok frame)])) (ha : board.Accepted frame wasm) :
      Gated (log ++ [.received (.ok frame)] ++ [.submitted wasm])
  | swapped (log : List Event) (frame : Frame) (wasm : Bytes)
      (h : Gated (log ++ [.received (.ok frame)] ++ [.stopped])) (ha : board.Accepted frame wasm) :
      Gated (log ++ [.received (.ok frame)] ++ [.stopped] ++ [.submitted wasm])

section Step

variable {board}

theorem Gated.answer {s : Receiver T E} (h : board.Gated s.log) (request response : Frame) :
    board.Gated (board.answer s request response).log :=
  .snoc _ _ h (by simp)

theorem Gated.report {s : Receiver T E} (h : board.Gated s.log) :
    board.Gated (board.report s).log := by
  unfold Board.report
  split
  · exact h
  · exact .snoc _ _ h (by simp)

theorem Gated.handled {s s' : Receiver T E} {frame : Frame} {log : List Event}
    (hlog : s.log = log ++ [.received (.ok frame)]) (h : board.Gated s.log)
    (hs : board.Handled s frame s') : board.Gated s'.log := by
  cases hs with
  | discovery _ => exact h.answer _ _
  | refused _ _ _ _ => exact h.answer _ _
  | pushed signed wasm hreq hauth =>
      have hloads : (Request.ofOpcode frame.opcode).loads = some signed := by rw [hreq]; rfl
      have ha := board.authorizeModule_accepted hloads hauth
      apply Gated.report
      simp only [submit, hlog]
      exact .pushed log frame wasm (hlog ▸ h) ha
  | swapped signed wasm hreq hauth =>
      have hloads : (Request.ofOpcode frame.opcode).loads = some signed := by rw [hreq]; rfl
      have ha := board.authorizeModule_accepted hloads hauth
      apply Gated.report
      simp only [submit, stop, hlog]
      exact .swapped log frame wasm (.snoc _ _ (hlog ▸ h) (by simp)) ha
  | stopped _ => exact Gated.answer (s := board.stop s) (.snoc _ _ h (by simp)) _ _
  | queried _ => exact Gated.answer (s := { s with exec := _ }) h _ _
  | param _ =>
      unfold setParam
      split <;> exact h
  | unknown _ => exact h.answer _ _

theorem Gated.stepped {s s' : Receiver T E} (hs : board.Stepped s s') (h : board.Gated s.log) :
    board.Gated s'.log := by
  cases hs with
  | ended fault => exact h
  | idle e transport _ _ =>
      exact Gated.report (s := receive s transport (.error e)) (.snoc _ _ h (by simp))
  | handled frame transport _ _ _ hs =>
      exact Gated.handled (s := receive s transport (.ok frame)) rfl (.snoc _ _ h (by simp)) hs

end Step

theorem gated_run (transport : T) (exec : E) (n : Nat) :
    board.Gated (board.run (.start transport exec) n).log :=
  board.run_induction (motive := fun s => board.Gated s.log) .nil (fun _ _ hs h => h.stepped hs) n

-- An entry of a log is the last one or stands before it.
theorem last_or_before {log before after : List Event} {e last : Event}
    (h : log ++ [last] = before ++ e :: after) :
    (before = log ∧ e = last) ∨ ∃ between, log = before ++ e :: between := by
  rcases List.eq_nil_or_concat after with rfl | ⟨between, x, rfl⟩
  · obtain ⟨hlog, hlast⟩ := List.append_inj' h rfl
    exact .inl ⟨hlog.symm, (List.cons.inj hlast).1.symm⟩
  · rw [List.concat_eq_append, ← List.cons_append, ← List.append_assoc] at h
    exact .inr ⟨between, (List.append_inj' h rfl).1⟩

theorem Gated.accepted {log : List Event} (h : board.Gated log) {before after : List Event} {wasm : Bytes}
    (hlog : log = before ++ .submitted wasm :: after) :
    ∃ earlier frame,
      (before = earlier ++ [.received (.ok frame)] ∨
        before = earlier ++ [.received (.ok frame), .stopped]) ∧
      board.Accepted frame wasm := by
  induction h generalizing after with
  | nil => simp at hlog
  | snoc log e _ he ih =>
      rcases last_or_before hlog with ⟨_, rfl⟩ | ⟨between, hlog⟩
      · exact absurd rfl (he wasm)
      · exact ih hlog
  | pushed log frame wasm' _ ha ih =>
      rcases last_or_before hlog with ⟨hbefore, hwasm⟩ | ⟨between, hlog⟩
      · obtain rfl := Event.submitted.inj hwasm
        exact ⟨log, frame, .inl hbefore, ha⟩
      · exact ih hlog
  | swapped log frame wasm' _ ha ih =>
      rcases last_or_before hlog with ⟨hbefore, hwasm⟩ | ⟨between, hlog⟩
      · obtain rfl := Event.submitted.inj hwasm
        rw [List.append_assoc] at hbefore
        exact ⟨log, frame, .inr hbefore, ha⟩
      · exact ih hlog

-- Whatever the frames, the read errors, the policy and the executor: the bytes of a
-- submission were accepted by the whitelist gate and belong to the frame just read.
theorem submitted_accepted (transport : T) (exec : E) (n : Nat) (before after : List Event)
    (wasm : Bytes)
    (hlog : (board.run (.start transport exec) n).log = before ++ .submitted wasm :: after) :
    (∃ v, validateWasmImports board.width wasm = .ok v ∧ v.valid = true) ∧
    ∃ earlier frame,
      (before = earlier ++ [.received (.ok frame)] ∨
        before = earlier ++ [.received (.ok frame), .stopped]) ∧
      board.Authorized frame wasm ∧
      (board.policy.requireSigned = true →
        ∃ crate key, board.ed25519 = some crate ∧ board.policy.trustedKey = some key ∧
          SignedBy crate key frame.payload wasm) ∧
      (board.policy.trustedKey = none →
        frame.opcode ≠ OP_SIGNED_PUSH ∧ frame.opcode ≠ OP_SIGNED_SWAP) := by
  obtain ⟨earlier, frame, hb, ha⟩ := (board.gated_run transport exec n).accepted board hlog
  refine ⟨ha.valid, earlier, frame, hb, ha.authorized, ?_, ?_⟩
  · intro hrequired
    cases ha.authorized with
    | unsigned _ hpolicy => rw [hpolicy] at hrequired; cases hrequired
    | signed _ crate key _ hcrate hkey hsigned => exact ⟨crate, key, hcrate, hkey, hsigned⟩
  · intro hnone
    cases ha.authorized with
    | unsigned hop _ =>
        rcases hop with hop | hop <;> rw [hop] <;> exact ⟨by decide, by decide⟩
    | signed _ crate key _ _ hkey _ => rw [hkey] at hnone; cases hnone

-- A push of the empty module is submitted in the first iteration.
theorem emptyModule_accepted :
    ∃ v, validateWasmImports 64 emptyModule = .ok v ∧ v.valid = true :=
  ((openSettings.threaded Connection.transport (silentRuntime 2)).submitted_accepted
    ⟨[.ok { opcode := OP_BYTECODE_PUSH, payload := emptyModule }], []⟩
    (ThreadedExecutor.new () none none none ()) 1
    [.received (.ok { opcode := OP_BYTECODE_PUSH, payload := emptyModule })] [] emptyModule rfl).1

end Board

end Milo.MainLoop
