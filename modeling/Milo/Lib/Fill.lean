import Mathlib.Data.List.FinRange

-- Loops that fill an array place by place.
namespace Milo.Lib

variable {m : Type → Type} [Monad m] [LawfulMonad m] {α : Type} {n : Nat}

def fill (read : Fin n → m α) (places : List (Fin n)) (v : Vector α n) : m (Vector α n) :=
  places.foldlM (fun v i => do return v.set i.val (← read i) i.isLt) v

theorem fill_pure {read : Fin n → m α} {value : Fin n → α} {places : List (Fin n)}
    (h : ∀ i ∈ places, read i = pure (value i)) (v : Vector α n) :
    fill read places v = pure (places.foldl (fun v i => v.set i.val (value i) i.isLt) v) := by
  unfold fill
  induction places generalizing v with
  | nil => rfl
  | cons i places ih =>
      obtain ⟨hi, hrest⟩ := List.forall_mem_cons.mp h
      rw [List.foldlM_cons, hi, pure_bind, pure_bind, ih hrest, List.foldl_cons]

theorem get_foldl_set (value : Fin n → α) (places : List (Fin n)) (v : Vector α n) (i : Fin n) :
    (places.foldl (fun v i => v.set i.val (value i) i.isLt) v).get i =
      if i ∈ places then value i else v.get i := by
  induction places generalizing v with
  | nil => rfl
  | cons j places ih =>
      have hset : (v.set j.val (value j) j.isLt).get i = if j.val = i.val then value j else v.get i :=
        Vector.getElem_set j.isLt i.isLt
      rw [List.foldl_cons, ih, hset]
      by_cases hmem : i ∈ places
      · simp [hmem]
      · by_cases hij : i = j
        · simp [hij]
        · simp [hmem, hij, Ne.symm (Fin.val_ne_of_ne hij)]

-- Every place can be read.
theorem fill_finRange {read : Fin n → m α} {value : Fin n → α} (h : ∀ i, read i = pure (value i))
    (v : Vector α n) : fill read (List.finRange n) v = pure (Vector.ofFn value) := by
  rw [fill_pure fun i _ => h i]
  congr 1
  ext i hi
  have hget := get_foldl_set value (List.finRange n) v ⟨i, hi⟩
  rw [if_pos (List.mem_finRange _)] at hget
  exact hget.trans (Vector.getElem_ofFn hi).symm

-- The first place that cannot be read ends the loop.
theorem fill_stop {read : Fin n → m α} {value : Fin n → α} (stop : ∀ β : Type, m β)
    (hstop : ∀ (β γ : Type) (f : β → m γ), stop β >>= f = stop γ) {i : Fin n}
    (hread : read i = stop α) (h : ∀ j < i, read j = pure (value j)) (v : Vector α n) :
    fill read (List.finRange n) v = stop (Vector α n) := by
  obtain ⟨front, back, hsplit⟩ := List.append_of_mem (List.mem_finRange i)
  have hfront : ∀ j ∈ front, j < i := by
    have hsorted := List.pairwise_lt_finRange n
    rw [hsplit, List.pairwise_append] at hsorted
    exact fun j hj => hsorted.2.2 j hj i List.mem_cons_self
  have hfill := fill_pure (fun j hj => h j (hfront j hj)) v
  unfold fill at hfill ⊢
  rw [hsplit, List.foldlM_append, hfill, pure_bind, List.foldlM_cons, hread, hstop, hstop]

end Milo.Lib
