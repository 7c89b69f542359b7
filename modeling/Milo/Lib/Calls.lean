import Mathlib.Data.List.Basic

namespace Milo.Lib

-- Programs that call out: what a call is answered is not theirs to choose.
inductive Program {C : Type} (A : C → Type) (ε α : Type) where
  | done (a : α)
  | raise (e : ε)
  | call (c : C) (rest : A c → Program A ε α)

-- A call with its answer.
structure Event {C : Type} (A : C → Type) where
  call : C
  answer : A call

namespace Program

variable {C : Type} {A : C → Type} {ε α β σ : Type}

def bind : Program A ε α → (α → Program A ε β) → Program A ε β
  | done a, f => f a
  | raise e, _ => raise e
  | call c rest, f => call c fun answer => (rest answer).bind f

instance : Monad (Program A ε) where
  pure := done
  bind := bind

def ask (c : C) : Program A ε (A c) := call c done

-- The calls of a run with their answers, and how the run ends.
inductive Runs : Program A ε α → List (Event A) → Except ε α → Prop
  | done (a : α) : Runs (.done a) [] (.ok a)
  | raise (e : ε) : Runs (.raise e) [] (.error e)
  | call (c : C) (rest : A c → Program A ε α) (answer : A c) {events : List (Event A)}
      {outcome : Except ε α} (h : Runs (rest answer) events outcome) :
      Runs (.call c rest) (⟨c, answer⟩ :: events) outcome

-- The run in a world that answers a call always alike.
def play (world : (c : C) → A c) : Program A ε α → List (Event A) × Except ε α
  | done a => ([], .ok a)
  | raise e => ([], .error e)
  | call c rest =>
      let (events, outcome) := (rest (world c)).play world
      (⟨c, world c⟩ :: events, outcome)

theorem runs_play (world : (c : C) → A c) (p : Program A ε α) :
    Runs p (p.play world).1 (p.play world).2 := by
  induction p with
  | done a => exact .done a
  | raise e => exact .raise e
  | call c rest ih => exact .call c rest (world c) (ih (world c))

-- Each event is good after those before it.
def EachGood (good : List (Event A) → Event A → Prop) : List (Event A) → List (Event A) → Prop
  | _, [] => True
  | past, e :: events => good past e ∧ EachGood good (past ++ [e]) events

theorem EachGood.split {good : List (Event A) → Event A → Prop} {past events front back : List (Event A)}
    {e : Event A} (h : EachGood good past events) (hevents : events = front ++ e :: back) :
    good (past ++ front) e := by
  induction front generalizing past events with
  | nil =>
      subst hevents
      rw [List.append_nil]
      exact h.1
  | cons first front ih =>
      subst hevents
      have hrest := ih h.2 rfl
      rwa [List.append_assoc] at hrest

-- All calls that the program can come to after the past are good, and the postcondition
-- holds of what it returns.
def Keeps (good : List (Event A) → Event A → Prop) (past : List (Event A)) (p : Program A ε α)
    (post : List (Event A) → α → Prop) : Prop :=
  match p with
  | done a => post past a
  | raise _ => True
  | call c rest => ∀ answer, good past ⟨c, answer⟩ ∧ Keeps good (past ++ [⟨c, answer⟩]) (rest answer) post

section Rules

variable {good : List (Event A) → Event A → Prop} {past : List (Event A)}
variable {post : List (Event A) → α → Prop} {post' : List (Event A) → β → Prop}

theorem Keeps.runs {p : Program A ε α} {events : List (Event A)} {outcome : Except ε α}
    (h : Keeps good past p post) (hruns : Runs p events outcome) :
    EachGood good past events ∧ ∀ a, outcome = .ok a → post (past ++ events) a := by
  induction hruns generalizing past with
  | done a =>
      refine ⟨trivial, fun a' ha => ?_⟩
      rw [List.append_nil]
      exact Except.ok.inj ha ▸ h
  | raise e => exact ⟨trivial, fun a ha => by cases ha⟩
  | call c rest answer _ ih =>
      obtain ⟨hgood, hrest⟩ := h answer
      obtain ⟨heach, hpost⟩ := ih hrest
      refine ⟨⟨hgood, heach⟩, fun a ha => ?_⟩
      have ha := hpost a ha
      rwa [List.append_assoc] at ha

theorem keeps_ask (c : C) (f : A c → Program A ε α) :
    Keeps good past (ask c >>= f) post ↔
      ∀ answer, good past ⟨c, answer⟩ ∧ Keeps good (past ++ [⟨c, answer⟩]) (f answer) post := Iff.rfl

theorem Keeps.bind {p : Program A ε α} {f : α → Program A ε β} (h : Keeps good past p post)
    (hf : ∀ past a, post past a → Keeps good past (f a) post') : Keeps good past (p >>= f) post' := by
  induction p generalizing past with
  | done a => exact hf past a h
  | raise e => trivial
  | call c rest ih => exact fun answer => ⟨(h answer).1, ih answer (h answer).2⟩

theorem Keeps.mono {p : Program A ε α} {post₂ : List (Event A) → α → Prop} (h : Keeps good past p post)
    (himp : ∀ past a, post past a → post₂ past a) : Keeps good past p post₂ := by
  induction p generalizing past with
  | done a => exact himp past a h
  | raise e => trivial
  | call c rest ih => exact fun answer => ⟨(h answer).1, ih answer (h answer).2⟩

-- What each turn of a loop passes on, from the items before to the items with this one.
theorem keeps_foldlM {f : σ → β → Program A ε σ} (inv : List β → List (Event A) → σ → Prop)
    {items : List β} (hturn : ∀ front item back past s, items = front ++ item :: back →
      inv front past s → Keeps good past (f s item) (inv (front ++ [item])))
    {s : σ} (h0 : inv [] past s) : Keeps good past (items.foldlM f s) (inv items) := by
  suffices h : ∀ back front past s, items = front ++ back → inv front past s →
      Keeps good past (back.foldlM f s) (inv items) from h items [] past s rfl h0
  intro back
  induction back with
  | nil =>
      intro front past s hitems hinv
      rw [List.append_nil] at hitems
      exact hitems ▸ hinv
  | cons item back ih =>
      intro front past s hitems hinv
      rw [List.foldlM_cons]
      refine (hturn front item back past s hitems hinv).bind fun past s hnext => ?_
      exact ih (front ++ [item]) past s (by rw [hitems, List.append_assoc]; rfl) hnext

end Rules

end Program

end Milo.Lib
