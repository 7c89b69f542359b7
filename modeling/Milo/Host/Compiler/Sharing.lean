import Milo.Host.Compiler.Progress
import Milo.Lib.Guarded

namespace Milo.Host

open Milo.Engine.Validation (MAGIC)
open Milo.Lib

-- Processes that share the compile cache.
namespace Machine

variable {P ι : Type} (tools : Toolchain) (calls : Calls P ι)

-- What a call gives when it compiles its own body.
def expected (i : ι) : Except CompileError Bytes :=
  match tools.cargo (some (source calls i)) with
  | .error stderr => .error (.runtimeError stderr)
  | .ok wasmBytes =>
      if wasmBytes.take 4 = MAGIC then .ok wasmBytes
      else .error (.assertionError "Compiler produced invalid wasm")

structure Right (m : Machine P ι) : Prop where
  returned : ∀ i outcome, m.pc i = .returned outcome → outcome = expected tools calls i
  cached : ∀ k wasmBytes, m.cache k = some wasmBytes →
    (∃ i, key tools calls i = k) ∧
      ∀ i, key tools calls i = k → expected tools calls i = .ok wasmBytes

-- The next step of a call takes nothing away from a call in another process: not the
-- lib.rs it is about to build, the output it is about to read or the .tmp file it is
-- about to rename.
structure Clear (m : Machine P ι) (i : ι) : Prop where
  write : m.pc i = .write → ∀ j, calls.process j ≠ calls.process i → m.pc j = .build →
    source calls j = source calls i
  build : ∀ wasmBytes, m.pc i = .build → tools.cargo m.lib = .ok wasmBytes →
    ∀ j, calls.process j ≠ calls.process i → m.pc j = .read → source calls j = source calls i
  writeTmp : ∀ wasmBytes, m.pc i = .writeTmp wasmBytes →
    ∀ j wasmBytes', calls.process j ≠ calls.process i → m.pc j = .rename wasmBytes' →
      key tools calls j ≠ key tools calls i

-- What a call relies on while it is at its next step.
def Kept (m : Machine P ι) (i : ι) : Pc → Prop
  | .acquire => True
  | .lookup | .write => m.lock (calls.process i) = some i
  | .build => m.lock (calls.process i) = some i ∧ m.lib = some (source calls i)
  | .read =>
      m.lock (calls.process i) = some i ∧
        ∃ wasmBytes, tools.cargo (some (source calls i)) = .ok wasmBytes ∧ m.target = some wasmBytes
  | .writeTmp wasmBytes =>
      m.lock (calls.process i) = some i ∧ expected tools calls i = .ok wasmBytes
  | .rename wasmBytes =>
      m.lock (calls.process i) = some i ∧ expected tools calls i = .ok wasmBytes ∧
        m.tmp (key tools calls i) = some wasmBytes
  | .returned outcome => outcome = expected tools calls i

structure Sharing (m : Machine P ι) : Prop where
  kept : ∀ i, Kept tools calls m i (m.pc i)
  apart : ∀ i j wasmBytes wasmBytes', m.pc i = .rename wasmBytes → m.pc j = .rename wasmBytes' →
    key tools calls i = key tools calls j → i = j
  cached : ∀ k wasmBytes, m.cache k = some wasmBytes →
    (∃ i, key tools calls i = k) ∧
      ∀ i, key tools calls i = k → expected tools calls i = .ok wasmBytes

variable {tools calls} {m m' : Machine P ι} {i j : ι} {pc : Pc}

theorem Sharing.right (h : Sharing tools calls m) : Right tools calls m where
  returned := by
    intro i outcome hpc
    have hkept := h.kept i
    rw [hpc] at hkept
    exact hkept
  cached := h.cached

theorem expected_of_error {stderr : String}
    (hcargo : tools.cargo (some (source calls i)) = .error stderr) :
    expected tools calls i = .error (.runtimeError stderr) := by
  rw [expected, hcargo]

theorem expected_of_ok {wasmBytes : Bytes}
    (hcargo : tools.cargo (some (source calls i)) = .ok wasmBytes) :
    expected tools calls i =
      if wasmBytes.take 4 = MAGIC then .ok wasmBytes
      else .error (.assertionError "Compiler produced invalid wasm") := by
  rw [expected, hcargo]

theorem expected_eq (hsource : source calls i = source calls j) :
    expected tools calls i = expected tools calls j := by
  rw [expected, expected, hsource]

theorem Kept.lock (h : Kept tools calls m i pc) (hpc : InSection pc) :
    m.lock (calls.process i) = some i := by
  cases pc with
  | acquire => exact hpc.elim
  | lookup => exact h
  | write => exact h
  | build => exact h.1
  | read => exact h.1
  | writeTmp wasmBytes => exact h.1
  | rename wasmBytes => exact h.1
  | returned outcome => exact hpc.elim

-- A call keeps what it relies on through a step that changes none of it.
theorem Kept.frame (h : Kept tools calls m j pc)
    (hlock : InSection pc → m'.lock (calls.process j) = some j)
    (hlib : pc = .build → m'.lib = some (source calls j))
    (htarget : ∀ wasmBytes, pc = .read → tools.cargo (some (source calls j)) = .ok wasmBytes →
      m.target = some wasmBytes → m'.target = some wasmBytes)
    (htmp : ∀ wasmBytes, pc = .rename wasmBytes →
      m'.tmp (key tools calls j) = m.tmp (key tools calls j)) :
    Kept tools calls m' j pc := by
  cases pc with
  | acquire => trivial
  | lookup => exact hlock trivial
  | write => exact hlock trivial
  | build => exact ⟨hlock trivial, hlib rfl⟩
  | read =>
      obtain ⟨-, wasmBytes, hcargo, hread⟩ := h
      exact ⟨hlock trivial, wasmBytes, hcargo, htarget wasmBytes rfl hcargo hread⟩
  | writeTmp wasmBytes => exact ⟨hlock trivial, h.2⟩
  | rename wasmBytes =>
      exact ⟨hlock trivial, h.2.1, (htmp wasmBytes rfl).trans h.2.2⟩
  | returned outcome => exact h

-- The lock that a call in the section holds is no other call's.
theorem Sharing.holder_ne (h : Sharing tools calls m) (hi : InSection (m.pc i)) (hji : j ≠ i)
    (hlock : m.lock (calls.process j) = some j) : calls.process j ≠ calls.process i := by
  intro hprocess
  rw [hprocess, (h.kept i).lock hi] at hlock
  exact hji (Option.some.inj hlock).symm

-- Two calls of one process are not both in the section.
theorem Sharing.process_ne (h : Sharing tools calls m) (hi : InSection (m.pc i))
    (hj : InSection (m.pc j)) (hji : j ≠ i) : calls.process j ≠ calls.process i :=
  h.holder_ne hi hji ((h.kept j).lock hj)

-- The next step of a call takes nothing away from a call that is at a step of its own.
def Pc.spares : Pc → Pc → Bool
  | .write, .build => false
  | .build, .read => false
  | .writeTmp _, .rename _ => false
  | _, _ => true

theorem clear_of_spares (h : ∀ j, j ≠ i → Pc.spares (m.pc i) (m.pc j) = true) :
    Clear tools calls m i where
  write := by
    intro hi j hprocess hj
    have hspares := h j (ne_of_apply_ne calls.process hprocess)
    rw [hi, hj] at hspares
    cases hspares
  build := by
    intro _ hi _ j hprocess hj
    have hspares := h j (ne_of_apply_ne calls.process hprocess)
    rw [hi, hj] at hspares
    cases hspares
  writeTmp := by
    intro _ hi j _ hprocess hj
    have hspares := h j (ne_of_apply_ne calls.process hprocess)
    rw [hi, hj] at hspares
    cases hspares

theorem sharing_start : Sharing tools calls start where
  kept := fun _ => trivial
  apart := fun _ _ _ _ hpc => by cases hpc
  cached := fun _ _ hcache => by cases hcache

variable [DecidableEq ι]

theorem Sharing.move (h : Sharing tools calls m) (i : ι) (pc' : Pc)
    (hpc : m'.pc = Function.update m.pc i pc') (hi : Kept tools calls m' i pc')
    (hlock : ∀ j, j ≠ i → m.lock (calls.process j) = some j → m'.lock (calls.process j) = some j)
    (hlib : ∀ j, j ≠ i → m.pc j = .build → m.lib = some (source calls j) →
      m'.lib = some (source calls j))
    (htarget : ∀ j wasmBytes, j ≠ i → m.pc j = .read →
      tools.cargo (some (source calls j)) = .ok wasmBytes → m.target = some wasmBytes →
        m'.target = some wasmBytes)
    (htmp : ∀ j wasmBytes, j ≠ i → m.pc j = .rename wasmBytes →
      m'.tmp (key tools calls j) = m.tmp (key tools calls j))
    (hrename : ∀ wasmBytes, pc' = .rename wasmBytes → ∀ j wasmBytes', j ≠ i →
      m.pc j = .rename wasmBytes' → key tools calls j ≠ key tools calls i)
    (hcached : ∀ k wasmBytes, m'.cache k = some wasmBytes →
      (∃ i, key tools calls i = k) ∧
        ∀ i, key tools calls i = k → expected tools calls i = .ok wasmBytes) :
    Sharing tools calls m' := by
  have hself : m'.pc i = pc' := by rw [hpc, Function.update_self]
  have hother (j : ι) (hj : j ≠ i) : m'.pc j = m.pc j := by rw [hpc, Function.update_of_ne hj]
  refine ⟨?_, ?_, hcached⟩
  · intro j
    rcases eq_or_ne j i with rfl | hj
    · rw [hself]
      exact hi
    · have hkept := h.kept j
      rw [hother j hj]
      refine hkept.frame (fun hin => hlock j hj (hkept.lock hin)) ?_
        (fun wasmBytes => htarget j wasmBytes hj) (fun wasmBytes => htmp j wasmBytes hj)
      intro hbuild
      rw [hbuild] at hkept
      exact hlib j hj hbuild hkept.2
  · intro j j' wasmBytes wasmBytes' hj hj' hkey
    rcases eq_or_ne j i with rfl | hji
    · rcases eq_or_ne j' j with rfl | hji'
      · rfl
      · exact absurd hkey.symm
          (hrename wasmBytes (hself.symm.trans hj) j' wasmBytes' hji' ((hother j' hji').symm.trans hj'))
    · rcases eq_or_ne j' i with rfl | hji'
      · exact absurd hkey
          (hrename wasmBytes' (hself.symm.trans hj') j wasmBytes hji ((hother j hji).symm.trans hj))
      · exact h.apart j j' wasmBytes wasmBytes' ((hother j hji).symm.trans hj)
          ((hother j' hji').symm.trans hj') hkey

theorem Sharing.goto {pc' : Pc} (h : Sharing tools calls m) (hi : Kept tools calls m i pc')
    (hrename : ∀ wasmBytes, pc' ≠ .rename wasmBytes) : Sharing tools calls (m.goto i pc') :=
  h.move i pc' rfl
    (hi.frame (fun hin => hi.lock hin) (by rintro rfl; exact hi.2) (fun _ _ _ htarget => htarget)
      (fun _ _ => rfl))
    (fun _ _ hlock => hlock) (fun _ _ _ hlib => hlib) (fun _ _ _ _ _ htarget => htarget)
    (fun _ _ _ _ => rfl) (fun wasmBytes hpc => absurd hpc (hrename wasmBytes)) h.cached

variable [DecidableEq P]

theorem Sharing.finish (h : Sharing tools calls m) (hi : InSection (m.pc i))
    {outcome : Except CompileError Bytes} (houtcome : outcome = expected tools calls i) :
    Sharing tools calls (m.finish calls i outcome) := by
  refine h.move i (.returned outcome) rfl houtcome ?_ (fun _ _ _ hlib => hlib)
    (fun _ _ _ _ _ htarget => htarget) (fun _ _ _ _ => rfl)
    (fun wasmBytes hpc => by cases hpc) h.cached
  intro j hji hlock
  exact (Function.update_of_ne (h.holder_ne hi hji hlock) none m.lock).trans hlock

theorem Sharing.acquire (h : Sharing tools calls m) (hpc : m.pc i = .acquire) :
    Sharing tools calls (step tools calls m i) := by
  simp only [step, hpc]
  cases hlock : m.lock (calls.process i) with
  | some j => exact h
  | none =>
      refine h.move i .lookup rfl (Function.update_self _ _ _) ?_ (fun _ _ _ hlib => hlib)
        (fun _ _ _ _ _ htarget => htarget) (fun _ _ _ _ => rfl)
        (fun wasmBytes hpc => by cases hpc) h.cached
      intro j hji hj
      have hprocess : calls.process j ≠ calls.process i := by
        intro hprocess
        rw [hprocess, hlock] at hj
        cases hj
      exact (Function.update_of_ne hprocess (some i) m.lock).trans hj

theorem Sharing.lookup (h : Sharing tools calls m) (hpc : m.pc i = .lookup) :
    Sharing tools calls (step tools calls m i) := by
  have hkept := h.kept i
  rw [hpc] at hkept
  simp only [step, hpc]
  cases hcache : m.cache (key tools calls i) with
  | some wasmBytes =>
      exact h.finish (by rw [hpc]; trivial) ((h.cached _ wasmBytes hcache).2 i rfl).symm
  | none => exact h.goto hkept (fun wasmBytes hpc => by cases hpc)

theorem Sharing.write (h : Sharing tools calls m) (hpc : m.pc i = .write)
    (hclear : Clear tools calls m i) : Sharing tools calls (step tools calls m i) := by
  have hkept := h.kept i
  rw [hpc] at hkept
  simp only [step, hpc]
  refine h.move i .build rfl ⟨hkept, rfl⟩ (fun _ _ hlock => hlock) ?_
    (fun _ _ _ _ _ htarget => htarget) (fun _ _ _ _ => rfl)
    (fun wasmBytes hpc => by cases hpc) h.cached
  intro j hji hj hlib
  have hprocess := h.process_ne (by rw [hpc]; trivial) (by rw [hj]; trivial) hji
  exact congrArg some (hclear.write hpc j hprocess hj).symm

theorem Sharing.build (h : Sharing tools calls m) (hpc : m.pc i = .build)
    (hclear : Clear tools calls m i) : Sharing tools calls (step tools calls m i) := by
  have hkept := h.kept i
  rw [hpc] at hkept
  have hlib := hkept.2
  simp only [step, hpc]
  cases hcargo : tools.cargo m.lib with
  | error stderr =>
      rw [hlib] at hcargo
      exact h.finish (by rw [hpc]; trivial) (expected_of_error hcargo).symm
  | ok wasmBytes =>
      have hown : tools.cargo (some (source calls i)) = .ok wasmBytes := by rw [← hlib, hcargo]
      refine h.move i .read rfl ⟨hkept.1, wasmBytes, hown, rfl⟩ (fun _ _ hlock => hlock)
        (fun _ _ _ hlib => hlib) ?_ (fun _ _ _ _ => rfl)
        (fun wasmBytes hpc => by cases hpc) h.cached
      intro j wasmBytes' hji hj hother htarget
      have hprocess := h.process_ne (by rw [hpc]; trivial) (by rw [hj]; trivial) hji
      rw [hclear.build wasmBytes hpc hcargo j hprocess hj, hown] at hother
      exact congrArg some (Except.ok.inj hother)

theorem Sharing.read (h : Sharing tools calls m) (hpc : m.pc i = .read) :
    Sharing tools calls (step tools calls m i) := by
  have hkept := h.kept i
  rw [hpc] at hkept
  obtain ⟨hlock, wasmBytes, hcargo, htarget⟩ := hkept
  have hexpected := expected_of_ok hcargo
  simp only [step, hpc, htarget]
  split_ifs with hmagic
  · rw [if_pos hmagic] at hexpected
    exact h.goto ⟨hlock, hexpected⟩ (fun wasmBytes hpc => by cases hpc)
  · rw [if_neg hmagic] at hexpected
    exact h.finish (by rw [hpc]; trivial) hexpected.symm

theorem Sharing.writeTmp {wasmBytes : Bytes} (h : Sharing tools calls m)
    (hpc : m.pc i = .writeTmp wasmBytes) (hclear : Clear tools calls m i) :
    Sharing tools calls (step tools calls m i) := by
  have hkept := h.kept i
  rw [hpc] at hkept
  have hapart (j : ι) (wasmBytes' : Bytes) (hji : j ≠ i) (hj : m.pc j = .rename wasmBytes') :
      key tools calls j ≠ key tools calls i := by
    have hprocess := h.process_ne (by rw [hpc]; trivial) (by rw [hj]; trivial) hji
    exact hclear.writeTmp wasmBytes hpc j wasmBytes' hprocess hj
  simp only [step, hpc]
  refine h.move i (.rename wasmBytes) rfl ⟨hkept.1, hkept.2, ?_⟩ (fun _ _ hlock => hlock)
    (fun _ _ _ hlib => hlib) (fun _ _ _ _ _ htarget => htarget) ?_ (fun _ _ => hapart) h.cached
  · exact Function.update_self (key tools calls i) (some wasmBytes) m.tmp
  · intro j wasmBytes' hji hj
    have hframe := Function.update_of_ne (hapart j wasmBytes' hji hj) (some wasmBytes) m.tmp
    exact hframe

theorem Sharing.rename {wasmBytes : Bytes}
    (hsha : ∀ i j, key tools calls i = key tools calls j → source calls i = source calls j)
    (h : Sharing tools calls m) (hpc : m.pc i = .rename wasmBytes) :
    Sharing tools calls (step tools calls m i) := by
  have hkept := h.kept i
  rw [hpc] at hkept
  obtain ⟨-, hown, htmp⟩ := hkept
  simp only [step, hpc, htmp]
  refine h.move i (.returned (.ok wasmBytes)) rfl hown.symm ?_ (fun _ _ _ hlib => hlib)
    (fun _ _ _ _ _ htarget => htarget) ?_ (fun wasmBytes hpc => by cases hpc) ?_
  · intro j hji hlock
    have hprocess := h.holder_ne (by rw [hpc]; trivial) hji hlock
    exact (Function.update_of_ne hprocess none m.lock).trans hlock
  · intro j wasmBytes' hji hj
    have hkey : key tools calls j ≠ key tools calls i :=
      fun hkey => hji (h.apart j i wasmBytes' wasmBytes hj hpc hkey)
    have hframe := Function.update_of_ne hkey none m.tmp
    exact hframe
  · intro k wasmBytes' hcache
    rcases eq_or_ne k (key tools calls i) with rfl | hk
    · have hcontent : some wasmBytes = some wasmBytes' :=
        (Function.update_self (key tools calls i) (some wasmBytes) m.cache).symm.trans hcache
      refine ⟨⟨i, rfl⟩, fun j hkey => ?_⟩
      rw [← Option.some.inj hcontent, ← hown]
      exact expected_eq (hsha j i hkey)
    · exact h.cached k wasmBytes'
        ((Function.update_of_ne hk (some wasmBytes) m.cache).symm.trans hcache)

theorem Sharing.step
    (hsha : ∀ i j, key tools calls i = key tools calls j → source calls i = source calls j)
    (h : Sharing tools calls m) (hclear : Clear tools calls m i) :
    Sharing tools calls (step tools calls m i) := by
  cases hpc : m.pc i with
  | acquire => exact h.acquire hpc
  | lookup => exact h.lookup hpc
  | write => exact h.write hpc hclear
  | build => exact h.build hpc hclear
  | read => exact h.read hpc
  | writeTmp wasmBytes => exact h.writeTmp hpc hclear
  | rename wasmBytes => exact h.rename hsha hpc
  | returned outcome =>
      have hstep : Machine.step tools calls m i = m := by rw [Machine.step, hpc]
      rw [hstep]
      exact h

-- Any number of processes and threads, as long as every step is clear of the other
-- processes.
theorem calls_right
    (hsha : ∀ i j, key tools calls i = key tools calls j → source calls i = source calls j)
    (schedule before after : List ι) (hschedule : schedule = before ++ after)
    (hclear : AllMeet (Machine.step tools calls) (Clear tools calls) start schedule) :
    Right tools calls (run tools calls before) ∧
      ∀ i, (∃ outcome, (run tools calls before).pc i = .returned outcome) ∨
        ∃ j, calls.process j = calls.process i ∧
          Advances tools calls (run tools calls before) j := by
  subst hschedule
  have hsharing : Sharing tools calls (run tools calls before) :=
    hclear.left.invariant (fun _ _ h hclear => h.step hsha hclear) sharing_start
  exact ⟨hsharing.right, returned_or_advances (held_run before)⟩

-- A call whose lib.rs is replaced before it builds gives what the other's gives, and
-- leaves that in the cache under its own key.
theorem overlap_poisons (tools : Toolchain) (calls : Calls P ι) (i j : ι) {wasmBytes : Bytes}
    (hprocess : calls.process j ≠ calls.process i)
    (hcargo : tools.cargo (some (source calls j)) = .ok wasmBytes)
    (hmagic : wasmBytes.take 4 = MAGIC) :
    (run tools calls [i, i, i, j, j, j, i, i, i, i]).pc i = .returned (.ok wasmBytes) ∧
      (run tools calls [i, i, i, j, j, j, i, i, i, i]).cache (key tools calls i) = some wasmBytes := by
  have hji : j ≠ i := fun hji => hprocess (congrArg calls.process hji)
  simp [run, Machine.step, start, goto, Machine.finish, Function.update_of_ne, hji, hji.symm,
    hprocess, hcargo, hmagic]

theorem libRs_injective : Function.Injective libRs := by
  intro body body' h
  simpa [libRs] using h

-- Two drivers for the pin of a LED, and the modules they build to.
def ledBody (state : String) : String :=
  "#[unsafe(no_mangle)]\n" ++
  "pub extern \"C\" fn run_logic() \x7b unsafe \x7b gpio_set(5, " ++ state ++ "); \x7d \x7d"

def ledWasm (state : UInt8) : Bytes :=
  MAGIC ++ [0x01, 0x00, 0x00, 0x00,
    0x01, 0x09, 0x02, 0x60, 0x02, 0x7f, 0x7f, 0x00, 0x60, 0x00, 0x00,
    0x02, 0x10, 0x01, 0x03, 0x65, 0x6e, 0x76,
    0x08, 0x67, 0x70, 0x69, 0x6f, 0x5f, 0x73, 0x65, 0x74, 0x00, 0x00,
    0x03, 0x02, 0x01, 0x01,
    0x05, 0x04, 0x01, 0x01, 0x01, 0x01,
    0x07, 0x0d, 0x01, 0x09, 0x72, 0x75, 0x6e, 0x5f, 0x6c, 0x6f, 0x67, 0x69, 0x63, 0x00, 0x01,
    0x0a, 0x0a, 0x01, 0x08, 0x00, 0x41, 0x05, 0x41, state, 0x10, 0x00, 0x0b]

def ledTools : Toolchain where
  cargo lib :=
    if lib = some (libRs (ledBody "1")) then .ok (ledWasm 1)
    else if lib = some (libRs (ledBody "0")) then .ok (ledWasm 0)
    else .error "error: could not compile milo_driver"
  sha256 lib :=
    if lib = libRs (ledBody "1") then
      "8557226011247f3c4eebe13122cb9283cac4e0deea63445df2254d5947554807"
    else "ca815c4fbd9cc7ab6259a498ee6aa1866fc218cd494b064167a88bd2974f183a"

-- Each driver in a process of its own.
def ledCalls : Calls Bool Bool where
  process on := on
  body := fun
    | true => ledBody "1"
    | false => ledBody "0"

theorem ledSource_ne : source ledCalls false ≠ source ledCalls true := by
  intro h
  have hbody : ledBody "0" = ledBody "1" := libRs_injective h
  revert hbody
  decide

theorem ledCargo_true : ledTools.cargo (some (source ledCalls true)) = .ok (ledWasm 1) := by
  simp only [ledTools, source, ledCalls, if_true]

theorem ledCargo_false : ledTools.cargo (some (source ledCalls false)) = .ok (ledWasm 0) := by
  have hne := ledSource_ne
  simp only [source, ledCalls] at hne
  simp only [ledTools, source, ledCalls, Option.some.injEq, if_neg hne, if_true]

theorem ledKey_true : key ledTools ledCalls true =
    "8557226011247f3c4eebe13122cb9283cac4e0deea63445df2254d5947554807" := by
  simp only [key, ledTools, source, ledCalls, if_true]

theorem ledKey_false : key ledTools ledCalls false =
    "ca815c4fbd9cc7ab6259a498ee6aa1866fc218cd494b064167a88bd2974f183a" := by
  have hne := ledSource_ne
  simp only [source, ledCalls] at hne
  simp only [key, ledTools, source, ledCalls, if_neg hne]

theorem ledKeys (i j : Bool) (hkey : key ledTools ledCalls i = key ledTools ledCalls j) :
    source ledCalls i = source ledCalls j := by
  cases i <;> cases j
  · rfl
  · rw [ledKey_false, ledKey_true] at hkey
    exact absurd hkey (by decide)
  · rw [ledKey_false, ledKey_true] at hkey
    exact absurd hkey (by decide)
  · rfl

-- Both look the cache up, one builds and reads, and the other builds while the first one
-- goes on to its .tmp file.
def interleaving : List Bool :=
  [true, false, true, false, true, true, true, false, false, true, false, true, false, false]

theorem interleaving_clear :
    AllMeet (Machine.step ledTools ledCalls) (Clear ledTools ledCalls) start interleaving := by
  have hprocess : ledCalls.process false ≠ ledCalls.process true := by decide
  have hon : (ledWasm 1).take 4 = MAGIC := rfl
  have hoff : (ledWasm 0).take 4 = MAGIC := rfl
  refine ⟨clear_of_spares ?_, clear_of_spares ?_, clear_of_spares ?_, clear_of_spares ?_,
    clear_of_spares ?_, clear_of_spares ?_, clear_of_spares ?_, clear_of_spares ?_,
    clear_of_spares ?_, clear_of_spares ?_, clear_of_spares ?_, clear_of_spares ?_,
    clear_of_spares ?_, clear_of_spares ?_, trivial⟩
  all_goals
    simp [Machine.step, start, goto, Machine.finish, Function.update_of_ne, hprocess, ledCargo_true,
      hon, ledCargo_false, hoff, Pc.spares]

theorem interleaved_builds_right :
    Right ledTools ledCalls (run ledTools ledCalls interleaving) ∧
      ∀ i, (∃ outcome, (run ledTools ledCalls interleaving).pc i = .returned outcome) ∨
        ∃ j, ledCalls.process j = ledCalls.process i ∧
          Advances ledTools ledCalls (run ledTools ledCalls interleaving) j :=
  calls_right ledKeys interleaving interleaving [] (List.append_nil _).symm interleaving_clear

-- The process that switches the LED on gets the module that switches it off, and keeps it.
theorem overlapping_builds_wrong :
    (∀ i j, key ledTools ledCalls i = key ledTools ledCalls j →
      source ledCalls i = source ledCalls j) ∧
    ∃ schedule,
      expected ledTools ledCalls true = .ok (ledWasm 1) ∧
      (run ledTools ledCalls schedule).pc true = .returned (.ok (ledWasm 0)) ∧
      (run ledTools ledCalls schedule).cache (key ledTools ledCalls true) = some (ledWasm 0) ∧
      ¬Right ledTools ledCalls (run ledTools ledCalls schedule) := by
  have hpoisoned := overlap_poisons ledTools ledCalls true false (by decide) ledCargo_false (by decide)
  have hexpected : expected ledTools ledCalls true = .ok (ledWasm 1) :=
    (expected_of_ok ledCargo_true).trans (if_pos (by decide))
  refine ⟨ledKeys, [true, true, true, false, false, false, true, true, true, true], hexpected,
    hpoisoned.1, hpoisoned.2, fun hright => ?_⟩
  have hown := hright.returned true _ hpoisoned.1
  rw [hexpected] at hown
  revert hown
  decide

end Machine

end Milo.Host
