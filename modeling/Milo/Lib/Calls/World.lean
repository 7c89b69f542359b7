import Milo.Lib.Calls

-- Programs in a world that answers their calls, and loops that they may leave.
namespace Milo.Lib.Program

variable {C : Type} {A : C → Type} {ε α β σ τ : Type}

-- A loop of at most so many turns. A turn says whether it is the last.
def loop (turn : τ → Program A ε (ForInStep τ)) : ℕ → τ → Program A ε τ
  | 0, t => pure t
  | n + 1, t => do
      match ← turn t with
      | .done t => pure t
      | .yield t => loop turn n t

section Inversion

variable {p : Program A ε α} {f : α → Program A ε β} {events : List (Event A)}

theorem runs_pure {a : α} {outcome : Except ε α} :
    Runs (pure a : Program A ε α) events outcome ↔ events = [] ∧ outcome = .ok a := by
  constructor
  · intro h
    cases h
    exact ⟨rfl, rfl⟩
  · rintro ⟨rfl, rfl⟩
    exact .done a

theorem runs_ask {c : C} {f : A c → Program A ε α} {outcome : Except ε α} :
    Runs (ask c >>= f) events outcome ↔
      ∃ answer back, events = ⟨c, answer⟩ :: back ∧ Runs (f answer) back outcome := by
  constructor
  · intro h
    cases h with
    | call _ _ answer hrest => exact ⟨answer, _, rfl, hrest⟩
  · rintro ⟨answer, back, rfl, hrest⟩
    exact .call c f answer hrest

-- A run of two programs one behind the other is cut where the first one returns.
theorem runs_bind {outcome : Except ε β} (hp : ∀ events e, ¬Runs p events (.error e)) :
    Runs (p >>= f) events outcome ↔
      ∃ front back a, events = front ++ back ∧ Runs p front (.ok a) ∧ Runs (f a) back outcome := by
  induction p generalizing events with
  | done a =>
      constructor
      · exact fun h => ⟨[], events, a, rfl, .done a, h⟩
      · rintro ⟨front, back, a', rfl, h, hrest⟩
        cases h
        exact hrest
  | raise e => exact (hp [] e (.raise e)).elim
  | call c rest ih =>
      have hrest := fun answer events e h => hp (⟨c, answer⟩ :: events) e (.call c rest answer h)
      constructor
      · intro h
        cases h with
        | call _ _ answer h =>
            obtain ⟨front, back, a, rfl, hfront, hback⟩ := (ih answer (hrest answer)).mp h
            exact ⟨⟨c, answer⟩ :: front, back, a, rfl, .call c rest answer hfront, hback⟩
      · rintro ⟨front, back, a, rfl, h, hback⟩
        cases h with
        | call _ _ answer h =>
            exact .call c _ answer ((ih answer (hrest answer)).mpr ⟨_, back, a, rfl, h, hback⟩)

end Inversion

-- The runs of a program in a world: what a call may be answered, and what becomes of the world.
inductive RunsIn (world : σ → (c : C) → A c → σ → Prop) :
    σ → Program A ε α → List (Event A) → Except ε α → σ → Prop
  | done (s : σ) (a : α) : RunsIn world s (.done a) [] (.ok a) s
  | raise (s : σ) (e : ε) : RunsIn world s (.raise e) [] (.error e) s
  | call {s between s' : σ} (c : C) (rest : A c → Program A ε α) (answer : A c) {events : List (Event A)}
      {outcome : Except ε α} (hanswer : world s c answer between)
      (h : RunsIn world between (rest answer) events outcome s') :
      RunsIn world s (.call c rest) (⟨c, answer⟩ :: events) outcome s'

-- Whatever the world answers, the program does not fail, and the postcondition holds of what it
-- returns and of what it has called by then.
def Within (world : σ → (c : C) → A c → σ → Prop) (s : σ) (past : List (Event A)) (p : Program A ε α)
    (post : σ → List (Event A) → α → Prop) : Prop :=
  match p with
  | done a => post s past a
  | raise _ => False
  | call c rest => ∀ answer s', world s c answer s' → Within world s' (past ++ [⟨c, answer⟩]) (rest answer) post

section Rules

variable {world : σ → (c : C) → A c → σ → Prop} {s s' : σ} {past : List (Event A)}
variable {post : σ → List (Event A) → α → Prop} {post' : σ → List (Event A) → β → Prop}

theorem RunsIn.runs {p : Program A ε α} {events : List (Event A)} {outcome : Except ε α}
    (h : RunsIn world s p events outcome s') : Runs p events outcome := by
  induction h with
  | done s a => exact .done a
  | raise s e => exact .raise e
  | call c rest answer _ _ ih => exact .call c rest answer ih

theorem Within.runs {p : Program A ε α} {events : List (Event A)} {outcome : Except ε α}
    (h : Within world s past p post) (hruns : RunsIn world s p events outcome s') :
    ∃ a, outcome = .ok a ∧ post s' (past ++ events) a := by
  induction hruns generalizing past with
  | done s a => exact ⟨a, rfl, by rwa [List.append_nil]⟩
  | raise s e => exact h.elim
  | call c rest answer hanswer _ ih =>
      obtain ⟨a, ha, hpost⟩ := ih (h answer _ hanswer)
      rw [List.append_assoc] at hpost
      exact ⟨a, ha, hpost⟩

-- Where the world answers what the program calls, the program has a run.
theorem exists_runsIn [∀ c, Nonempty (A c)] {plain : C → Prop}
    (hworld : ∀ s c, plain c → ∃ answer s', world s c answer s') {p : Program A ε α}
    {asked : List (Event A) → α → Prop} (hp : Keeps (fun _ e => plain e.call) past p asked) (s : σ) :
    ∃ events outcome s', RunsIn world s p events outcome s' := by
  induction p generalizing s past with
  | done a => exact ⟨[], .ok a, s, .done s a⟩
  | raise e => exact ⟨[], .error e, s, .raise s e⟩
  | call c rest ih =>
      obtain ⟨some⟩ := ‹∀ c, Nonempty (A c)› c
      obtain ⟨answer, between, hanswer⟩ := hworld s c (hp some).1
      obtain ⟨events, outcome, s', hruns⟩ := ih answer (hp answer).2 between
      exact ⟨_, outcome, s', .call c rest answer hanswer hruns⟩

theorem within_ask (c : C) (f : A c → Program A ε α) :
    Within world s past (ask c >>= f) post ↔
      ∀ answer s', world s c answer s' → Within world s' (past ++ [⟨c, answer⟩]) (f answer) post := Iff.rfl

theorem Within.bind {p : Program A ε α} {f : α → Program A ε β} (h : Within world s past p post)
    (hf : ∀ s past a, post s past a → Within world s past (f a) post') :
    Within world s past (p >>= f) post' := by
  induction p generalizing s past with
  | done a => exact hf s past a h
  | raise e => exact h.elim
  | call c rest ih => exact fun answer s' hanswer => ih answer (h answer s' hanswer)

theorem Within.mono {p : Program A ε α} {post₂ : σ → List (Event A) → α → Prop}
    (h : Within world s past p post) (himp : ∀ s past a, post s past a → post₂ s past a) :
    Within world s past p post₂ := by
  induction p generalizing s past with
  | done a => exact himp s past a h
  | raise e => exact h
  | call c rest ih => exact fun answer s' hanswer => ih answer (h answer s' hanswer)

end Rules

section Loops

variable {world : σ → (c : C) → A c → σ → Prop} {turn : τ → Program A ε (ForInStep τ)}

variable {good : List (Event A) → Event A → Prop}

end Loops

end Milo.Lib.Program
