import Mathlib.Data.List.Basic

namespace Milo.Lib

variable {α : Type}

-- A server owes answers, has delivered some and has others outstanding. A relation
-- between the three that is kept when a request is queued and when the oldest
-- outstanding answer goes out.
structure Queueing (Rel : List α → List α → List α → Prop) : Prop where
  accept : ∀ {answers delivered outstanding : List α} (a : α), Rel answers delivered outstanding →
    Rel (answers ++ [a]) delivered (outstanding ++ [a])
  serve : ∀ {answers delivered outstanding : List α} {a : α},
    Rel answers delivered (a :: outstanding) → Rel answers (delivered ++ [a]) outstanding

-- No answer is lost or duplicated, in whatever order they go out.
def Balanced (answers delivered outstanding : List α) : Prop :=
  answers.length = delivered.length + outstanding.length

theorem Balanced.queueing : Queueing (@Balanced α) where
  accept := by
    intro answers delivered outstanding a h
    simp only [Balanced, List.length_append] at h ⊢
    omega
  serve := by
    intro answers delivered outstanding a h
    simp only [Balanced, List.length_append, List.length_cons, List.length_nil] at h ⊢
    omega

theorem Balanced.answer {answers delivered outstanding : List α}
    (h : Balanced answers delivered outstanding) (a : α) :
    Balanced (answers ++ [a]) (delivered ++ [a]) outstanding := by
  simp only [Balanced, List.length_append] at h ⊢
  omega

-- From the answer at place base on they have been delivered in the order they are
-- owed, and what is outstanding is the rest of them.
structure InOrder (base : Nat) (answers delivered outstanding : List α) : Prop where
  le_answers : base ≤ answers.length
  le_delivered : base ≤ delivered.length
  drop_eq : answers.drop base = delivered.drop base ++ outstanding

namespace InOrder

variable {base : Nat} {answers delivered outstanding : List α} {a : α}

theorem of_append_eq (h : delivered ++ outstanding = answers) :
    InOrder 0 answers delivered outstanding :=
  ⟨Nat.zero_le _, Nat.zero_le _, h.symm⟩

-- With nothing outstanding the order can be watched from the next answer on.
theorem of_length_eq (h : delivered.length = answers.length) :
    InOrder answers.length answers delivered [] := by
  refine ⟨Nat.le_refl _, Nat.le_of_eq h.symm, ?_⟩
  rw [List.drop_length, ← h, List.drop_length, List.append_nil]

-- A request comes in and its answer will take time.
theorem accept (h : InOrder base answers delivered outstanding) (a : α) :
    InOrder base (answers ++ [a]) delivered (outstanding ++ [a]) := by
  refine ⟨?_, h.le_delivered, ?_⟩
  · rw [List.length_append]
    exact Nat.le_add_right_of_le h.le_answers
  · rw [List.drop_append_of_le_length h.le_answers, h.drop_eq, List.append_assoc]

-- The oldest outstanding answer goes out.
theorem serve (h : InOrder base answers delivered (a :: outstanding)) :
    InOrder base answers (delivered ++ [a]) outstanding := by
  refine ⟨h.le_answers, ?_, ?_⟩
  · rw [List.length_append]
    exact Nat.le_add_right_of_le h.le_delivered
  · rw [h.drop_eq, List.drop_append_of_le_length h.le_delivered, List.append_assoc,
      List.singleton_append]

-- A request is answered on the spot, which is in order when nothing is outstanding.
theorem answer (h : InOrder base answers delivered []) (a : α) :
    InOrder base (answers ++ [a]) (delivered ++ [a]) [] :=
  (h.accept a).serve

theorem queueing (base : Nat) : Queueing (@InOrder α base) where
  accept := fun a h => h.accept a
  serve := fun h => h.serve

theorem getElem?_eq (h : InOrder base answers delivered outstanding) {i : Nat} (hbase : base ≤ i)
    (hi : i < delivered.length) : answers[i]? = delivered[i]? := by
  have ha : answers[i]? = (answers.drop base)[i - base]? := by
    rw [List.getElem?_drop, Nat.add_sub_cancel' hbase]
  have hd : delivered[i]? = (delivered.drop base)[i - base]? := by
    rw [List.getElem?_drop, Nat.add_sub_cancel' hbase]
  rw [ha, hd, h.drop_eq, List.getElem?_append_left]
  rw [List.length_drop]
  omega

theorem isPrefix (h : InOrder 0 answers delivered outstanding) : delivered <+: answers :=
  ⟨outstanding, h.drop_eq.symm⟩

end InOrder

end Milo.Lib
