import Milo.Host.Compiler

namespace Milo.Host.Machine

variable {P ι : Type}

-- A call past its acquire that has not returned holds the lock of its process.
def InSection : Pc → Prop
  | .acquire | .returned _ => False
  | _ => True

-- The steps that a call has before it.
def Pc.remaining : Pc → ℕ
  | .acquire => 7
  | .lookup => 6
  | .write => 5
  | .build => 4
  | .read => 3
  | .writeTmp _ => 2
  | .rename _ => 1
  | .returned _ => 0

-- Who holds the lock of a process is a call of it that is in the section.
def Held (calls : Calls P ι) (m : Machine P ι) : Prop :=
  ∀ p i, m.lock p = some i → calls.process i = p ∧ InSection (m.pc i)

variable {calls : Calls P ι} {m : Machine P ι} {i : ι} [DecidableEq ι]

theorem goto_pc (i : ι) (pc' : Pc) : (m.goto i pc').pc i = pc' := Function.update_self ..

theorem Held.goto {pc' : Pc} (h : Held calls m) (hpc' : InSection pc') :
    Held calls (m.goto i pc') := by
  intro p j hlock
  obtain ⟨hprocess, hin⟩ := h p j hlock
  refine ⟨hprocess, ?_⟩
  simp only [Machine.goto]
  rcases eq_or_ne j i with rfl | hj
  · rw [Function.update_self]
    exact hpc'
  · rw [Function.update_of_ne hj]
    exact hin

variable [DecidableEq P]

theorem finish_pc (i : ι) (outcome : Except CompileError Bytes) :
    (m.finish calls i outcome).pc i = .returned outcome := Function.update_self ..

theorem Held.finish (h : Held calls m) (outcome : Except CompileError Bytes) :
    Held calls (m.finish calls i outcome) := by
  intro p j hlock
  simp only [Machine.finish, Machine.goto] at hlock ⊢
  rcases eq_or_ne p (calls.process i) with rfl | hp
  · rw [Function.update_self] at hlock
    cases hlock
  · rw [Function.update_of_ne hp] at hlock
    obtain ⟨hprocess, hin⟩ := h p j hlock
    have hj : j ≠ i := by
      rintro rfl
      exact hp hprocess.symm
    rw [Function.update_of_ne hj]
    exact ⟨hprocess, hin⟩

theorem Held.acquire (h : Held calls m) :
    Held calls { m.goto i .lookup with lock := Function.update m.lock (calls.process i) (some i) } := by
  intro p j hlock
  simp only [Machine.goto] at hlock ⊢
  rcases eq_or_ne p (calls.process i) with rfl | hp
  · rw [Function.update_self] at hlock
    cases hlock
    exact ⟨rfl, by rw [Function.update_self]; trivial⟩
  · rw [Function.update_of_ne hp] at hlock
    have hgoto : Held calls (m.goto i .lookup) := h.goto trivial
    exact hgoto p j hlock

variable {tools : Toolchain}

theorem Held.step (h : Held calls m) : Held calls (Machine.step tools calls m i) := by
  unfold Machine.step
  cases m.pc i with
  | acquire =>
      cases m.lock (calls.process i) with
      | none => exact h.acquire
      | some j => exact h
  | lookup =>
      cases m.cache (key tools calls i) with
      | none => exact h.goto trivial
      | some wasmBytes => exact h.finish (.ok wasmBytes)
  | write => exact h.goto trivial
  | build =>
      cases tools.cargo m.lib with
      | error stderr => exact h.finish (.error (.runtimeError stderr))
      | ok wasmBytes => exact h.goto trivial
  | read =>
      cases m.target with
      | none => exact h.finish (.error .fileNotFoundError)
      | some wasmBytes =>
          simp only
          split_ifs
          · exact h.goto trivial
          · exact h.finish _
  | writeTmp wasmBytes => exact h.goto trivial
  | rename wasmBytes =>
      cases m.tmp (key tools calls i) with
      | none => exact h.finish (.error .fileNotFoundError)
      | some content => exact h.finish (.ok wasmBytes)
  | returned outcome => exact h

theorem held_run (schedule : List ι) : Held calls (run tools calls schedule) := by
  unfold run
  induction schedule using List.reverseRecOn with
  | nil => exact fun p i hlock => by cases hlock
  | append_singleton schedule i ih =>
      rw [List.foldl_append]
      exact ih.step

def Advances (tools : Toolchain) (calls : Calls P ι) (m : Machine P ι) (i : ι) : Prop :=
  Pc.remaining ((Machine.step tools calls m i).pc i) < Pc.remaining (m.pc i)

theorem advances_of_inSection (hin : InSection (m.pc i)) : Advances tools calls m i := by
  unfold Advances Machine.step
  cases hpc : m.pc i with
  | acquire =>
      rw [hpc] at hin
      exact hin.elim
  | lookup =>
      cases m.cache (key tools calls i) with
      | none => simp [goto_pc, Pc.remaining]
      | some wasmBytes => simp [finish_pc, Pc.remaining]
  | write => simp [goto_pc, Pc.remaining]
  | build =>
      cases tools.cargo m.lib with
      | error stderr => simp [finish_pc, Pc.remaining]
      | ok wasmBytes => simp [goto_pc, Pc.remaining]
  | read =>
      cases m.target with
      | none => simp [finish_pc, Pc.remaining]
      | some wasmBytes =>
          simp only
          split_ifs
          · simp [goto_pc, Pc.remaining]
          · simp [finish_pc, Pc.remaining]
  | writeTmp wasmBytes => simp [goto_pc, Pc.remaining]
  | rename wasmBytes =>
      cases m.tmp (key tools calls i) with
      | none => simp [finish_pc, Pc.remaining]
      | some content => simp [finish_pc, Pc.remaining]
  | returned outcome =>
      rw [hpc] at hin
      exact hin.elim

theorem inSection_or (pc : Pc) :
    InSection pc ∨ pc = .acquire ∨ ∃ outcome, pc = .returned outcome := by
  cases pc with
  | acquire => exact .inr (.inl rfl)
  | returned outcome => exact .inr (.inr ⟨outcome, rfl⟩)
  | lookup | write | build | read | writeTmp wasmBytes | rename wasmBytes => exact .inl trivial

-- No call waits for ever: in its process there is one that its next step brings nearer to
-- its end, and that leaves the lock in the end.
theorem returned_or_advances (h : Held calls m) (i : ι) :
    (∃ outcome, m.pc i = .returned outcome) ∨
      ∃ j, calls.process j = calls.process i ∧ Advances tools calls m j := by
  rcases inSection_or (m.pc i) with hin | hpc | hreturned
  · exact .inr ⟨i, rfl, advances_of_inSection hin⟩
  · cases hlock : m.lock (calls.process i) with
    | some j =>
        obtain ⟨hprocess, hin⟩ := h _ j hlock
        exact .inr ⟨j, hprocess, advances_of_inSection hin⟩
    | none =>
        refine .inr ⟨i, rfl, ?_⟩
        simp [Advances, Machine.step, hpc, hlock, goto_pc, Pc.remaining]
  · exact .inl hreturned

end Milo.Host.Machine
