import Mathlib.Data.List.Basic

-- Windows of a list: runs of items that are read and replaced as a whole.
namespace Milo.Lib

variable {α : Type*}

-- The items from start on, and the first len items.
def getFrom (xs : List α) (start : ℕ) : Option (List α) :=
  if start ≤ xs.length then some (xs.drop start) else none

def getTo (xs : List α) (len : ℕ) : Option (List α) :=
  if len ≤ xs.length then some (xs.take len) else none

def window (xs : List α) (start len : ℕ) : Option (List α) := (getFrom xs start).bind (getTo · len)

-- A list with other items in the place of as many from start on.
def overwrite (xs : List α) (start : ℕ) (ys : List α) : List α :=
  xs.take start ++ ys ++ xs.drop (start + ys.length)

section Window

variable {xs ys : List α} {start len : ℕ}

theorem window_eq (xs : List α) (start len : ℕ) :
    window xs start len = if start + len ≤ xs.length then some ((xs.drop start).take len) else none := by
  unfold window getFrom getTo
  split_ifs with hstart hall hall
  · rw [Option.bind_some, if_pos (by rw [List.length_drop]; omega)]
  · rw [Option.bind_some, if_neg (by rw [List.length_drop]; omega)]
  · omega
  · rfl

theorem window_of_le (h : start + len ≤ xs.length) : window xs start len = some ((xs.drop start).take len) := by
  rw [window_eq, if_pos h]

theorem window_eq_none (xs : List α) (start len : ℕ) :
    window xs start len = none ↔ xs.length < start + len := by
  rw [window_eq]
  split_ifs with h
  · simp [h]
  · simp [Nat.lt_of_not_le h]

theorem window_eq_some (h : window xs start len = some ys) :
    start + len ≤ xs.length ∧ ys = (xs.drop start).take len := by
  rw [window_eq] at h
  split_ifs at h with hle
  exact ⟨hle, (Option.some.inj h).symm⟩

theorem length_of_window (h : window xs start len = some ys) : ys.length = len := by
  obtain ⟨hle, rfl⟩ := window_eq_some h
  rw [List.length_take, List.length_drop]
  omega

end Window

section Overwrite

variable {xs ys : List α} {start : ℕ}

@[simp] theorem overwrite_nil (xs : List α) (start : ℕ) : overwrite xs start [] = xs := by
  simp [overwrite]

@[simp] theorem length_overwrite (h : start + ys.length ≤ xs.length) :
    (overwrite xs start ys).length = xs.length := by
  simp only [overwrite, List.length_append, List.length_take, List.length_drop]
  omega

theorem getElem?_overwrite (h : start + ys.length ≤ xs.length) (i : ℕ) :
    (overwrite xs start ys)[i]? =
      if start ≤ i ∧ i < start + ys.length then ys[i - start]? else xs[i]? := by
  have hfront : (xs.take start).length = start := by
    rw [List.length_take]
    omega
  unfold overwrite
  rw [List.append_assoc]
  by_cases hbefore : i < start
  · rw [List.getElem?_append_left (by omega), if_neg (by omega), List.getElem?_take, if_pos hbefore]
  rw [List.getElem?_append_right (by omega), hfront]
  by_cases hin : i < start + ys.length
  · rw [List.getElem?_append_left (by omega), if_pos (by omega)]
  · rw [List.getElem?_append_right (by omega), if_neg (by omega), List.getElem?_drop]
    congr 1
    omega

theorem window_overwrite_self (h : start + ys.length ≤ xs.length) :
    window (overwrite xs start ys) start ys.length = some ys := by
  rw [window_of_le (by rwa [length_overwrite h]), overwrite, List.append_assoc, List.drop_append]
  have hfront : (xs.take start).length = start := by
    rw [List.length_take]
    omega
  rw [hfront, List.drop_take_self, Nat.sub_self, List.drop_zero, List.nil_append, List.take_left]

-- A window beside the replaced items is left as it was.
theorem window_overwrite_disjoint (h : start + ys.length ≤ xs.length) {at' len : ℕ}
    (hapart : at' + len ≤ start ∨ start + ys.length ≤ at') :
    window (overwrite xs start ys) at' len = window xs at' len := by
  rw [window_eq, window_eq, length_overwrite h]
  split_ifs with hle
  · congr 1
    apply List.ext_getElem?
    intro i
    rw [List.getElem?_take, List.getElem?_take, List.getElem?_drop, List.getElem?_drop,
      getElem?_overwrite h]
    split_ifs with hi hin
    · omega
    · rfl
    · rfl
  · rfl

end Overwrite

-- Items that are put and moved one by one, as a loop of reads and writes does.
section Moves

variable {xs ys zs : List α} {dst src : ℕ}

def put (xs : List α) (i : ℕ) (x : α) : Option (List α) := if i < xs.length then some (xs.set i x) else none

-- The items of another list, in their order.
def putAll (xs : List α) (dst : ℕ) (ys : List α) (src : ℕ) : ℕ → Option (List α)
  | 0 => some xs
  | len + 1 => do
      let x ← ys[src]?
      let xs ← put xs dst x
      putAll xs (dst + 1) ys (src + 1) len

-- The items of the list itself, from its front on or from its end on.
def moveUp (xs : List α) (dst src : ℕ) : ℕ → Option (List α)
  | 0 => some xs
  | len + 1 => do
      let x ← xs[src]?
      let xs ← put xs dst x
      moveUp xs (dst + 1) (src + 1) len

def moveDown (xs : List α) (dst src : ℕ) : ℕ → Option (List α)
  | 0 => some xs
  | len + 1 => do
      let x ← xs[src + len]?
      let xs ← put xs (dst + len) x
      moveDown xs dst src len

theorem put_of_lt {i : ℕ} {x : α} (h : i < xs.length) : put xs i x = some (xs.set i x) := if_pos h

theorem overwrite_cons {x : α} (h : dst + (ys.length + 1) ≤ xs.length) :
    overwrite (xs.set dst x) (dst + 1) ys = overwrite xs dst (x :: ys) := by
  have hfront : (xs.set dst x).take (dst + 1) = xs.take dst ++ [x] := by
    rw [List.take_add_one, List.take_set_of_le (Nat.le_refl dst), List.getElem?_set_self (by omega)]
    rfl
  unfold overwrite
  rw [hfront, List.drop_set_of_lt (by omega), List.length_cons, List.append_assoc, List.append_assoc,
    List.append_assoc, List.singleton_append, List.cons_append, Nat.add_right_comm, Nat.add_assoc]

theorem window_succ {start len : ℕ} (h : window xs start (len + 1) = some zs) :
    ∃ x rest, xs[start]? = some x ∧ window xs (start + 1) len = some rest ∧ zs = x :: rest := by
  obtain ⟨hle, rfl⟩ := window_eq_some h
  refine ⟨xs[start], _, List.getElem?_eq_getElem (by omega), window_of_le (by omega), ?_⟩
  rw [List.drop_eq_getElem_cons (by omega), List.take_succ_cons]

-- What is put item by item lies there as a whole.
theorem putAll_eq {len : ℕ} (hdst : dst + len ≤ xs.length) (hsrc : window ys src len = some zs) :
    putAll xs dst ys src len = some (overwrite xs dst zs) := by
  induction len generalizing xs dst src zs with
  | zero => rw [List.length_eq_zero_iff.mp (length_of_window hsrc), overwrite_nil, putAll]
  | succ len ih =>
      obtain ⟨x, rest, hx, hrest, rfl⟩ := window_succ hsrc
      have hlt : dst < xs.length := by omega
      simp only [putAll, hx, put_of_lt hlt, Option.bind_eq_bind, Option.bind_some]
      rw [ih (by rw [List.length_set]; omega) hrest, overwrite_cons (by rw [length_of_window hrest]; omega)]

end Moves

end Milo.Lib
