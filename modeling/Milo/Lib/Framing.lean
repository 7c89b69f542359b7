import Mathlib.Data.List.Basic
import Mathlib.Data.List.Infix

namespace Milo.Lib

variable {α β : Type}

-- A decoder that takes one item off the head of a buffer, or none while the head is
-- incomplete. The item is in the part that it takes, whatever stands behind it.
structure Framing (next : List α → Option (β × List α)) : Prop where
  takes : ∀ {buf : List α} {item : β} {rest : List α}, next buf = some (item, rest) →
    ∃ taken, taken ≠ [] ∧ buf = taken ++ rest ∧ ∀ more, next (taken ++ more) = some (item, more)

-- All the items at the head of a buffer, and what is left behind them.
def drain (next : List α → Option (β × List α)) : Nat → List α → List β × List α
  | 0, buf => ([], buf)
  | fuel + 1, buf =>
      match next buf with
      | none => ([], buf)
      | some (item, rest) => (item :: (drain next fuel rest).1, (drain next fuel rest).2)

def items (next : List α → Option (β × List α)) (buf : List α) : List β :=
  (drain next buf.length buf).1

def leftover (next : List α → Option (β × List α)) (buf : List α) : List α :=
  (drain next buf.length buf).2

namespace Framing

variable {next : List α → Option (β × List α)} (hn : Framing next)
variable {buf rest : List α} {item : β}

include hn in
theorem rest_lt (h : next buf = some (item, rest)) : rest.length < buf.length := by
  obtain ⟨taken, hne, rfl, _⟩ := hn.takes h
  have := List.length_pos_of_ne_nil hne
  rw [List.length_append]
  omega

-- What arrives later changes nothing about a complete item.
include hn in
theorem stable (h : next buf = some (item, rest)) (more : List α) :
    next (buf ++ more) = some (item, rest ++ more) := by
  obtain ⟨taken, _, rfl, htaken⟩ := hn.takes h
  rw [List.append_assoc, htaken]

include hn in
theorem next_nil : next [] = none := by
  cases h : next [] with
  | none => rfl
  | some pair =>
      have := hn.rest_lt h
      simp at this

theorem drain_of_none (h : next buf = none) (fuel : Nat) : drain next fuel buf = ([], buf) := by
  cases fuel with
  | zero => rfl
  | succ fuel => simp only [drain, h]

include hn in
theorem drain_fuel {fuel fuel' : Nat} (h : buf.length ≤ fuel) (h' : buf.length ≤ fuel') :
    drain next fuel buf = drain next fuel' buf := by
  induction fuel generalizing fuel' buf with
  | zero =>
      obtain rfl := List.length_eq_zero_iff.mp (Nat.le_zero.mp h)
      rw [drain_of_none hn.next_nil, drain_of_none hn.next_nil]
  | succ fuel ih =>
      cases hb : next buf with
      | none => rw [drain_of_none hb, drain_of_none hb]
      | some pair =>
          have hlt := hn.rest_lt hb
          obtain ⟨fuel', rfl⟩ : ∃ n, fuel' = n + 1 := ⟨fuel' - 1, by omega⟩
          have hrest : drain next fuel pair.2 = drain next fuel' pair.2 := ih (by omega) (by omega)
          simp only [drain, hb, hrest]

theorem items_of_none (h : next buf = none) : items next buf = [] := by
  rw [items, drain_of_none h]

theorem leftover_of_none (h : next buf = none) : leftover next buf = buf := by
  rw [leftover, drain_of_none h]

include hn in
theorem drain_of_some (h : next buf = some (item, rest)) :
    drain next buf.length buf =
      (item :: (drain next rest.length rest).1, (drain next rest.length rest).2) := by
  have hlt := hn.rest_lt h
  obtain ⟨fuel, hfuel⟩ : ∃ n, buf.length = n + 1 := ⟨buf.length - 1, by omega⟩
  rw [hfuel]
  have hrest : drain next fuel rest = drain next rest.length rest :=
    hn.drain_fuel (by omega) (Nat.le_refl _)
  simp only [drain, h, hrest]

include hn in
theorem items_of_some (h : next buf = some (item, rest)) :
    items next buf = item :: items next rest := by
  simp only [items, hn.drain_of_some h]

include hn in
theorem leftover_of_some (h : next buf = some (item, rest)) :
    leftover next buf = leftover next rest := by
  simp only [leftover, hn.drain_of_some h]

-- The induction over the items of a buffer.
include hn in
theorem buffer_induction {motive : List α → Prop}
    (none : ∀ buf, next buf = none → motive buf)
    (some : ∀ buf item rest, next buf = some (item, rest) → motive rest → motive buf)
    (buf : List α) : motive buf := by
  generalize hlen : buf.length = len
  induction len using Nat.strongRecOn generalizing buf with
  | ind len ih =>
      cases hb : next buf with
      | none => exact none buf hb
      | some pair =>
          have hlt := hn.rest_lt hb
          exact some buf pair.1 pair.2 hb (ih _ (by omega) pair.2 rfl)

include hn in
theorem next_leftover (buf : List α) : next (leftover next buf) = none := by
  induction buf using hn.buffer_induction with
  | none buf h => rwa [leftover_of_none h]
  | some buf item rest h ih => rwa [hn.leftover_of_some h]

include hn in
theorem leftover_length_le (buf : List α) : (leftover next buf).length ≤ buf.length := by
  induction buf using hn.buffer_induction with
  | none buf h => rw [leftover_of_none h]
  | some buf item rest h ih =>
      have hlt := hn.rest_lt h
      rw [hn.leftover_of_some h]
      omega

-- An item that was incomplete before has what comes behind it from what arrived since.
include hn in
theorem rest_le_of_none {more : List α} (hbuf : next buf = none)
    (h : next (buf ++ more) = some (item, rest)) : rest.length ≤ more.length := by
  obtain ⟨taken, _, heq, htaken⟩ := hn.takes h
  rcases List.append_eq_append_iff.mp heq with ⟨missing, _, hmore⟩ | ⟨behind, hbehind, _⟩
  · rw [hmore, List.length_append]
    exact Nat.le_add_left _ _
  · rw [hbehind, htaken behind] at hbuf
    cases hbuf

-- What has arrived so far can be taken apart before the rest arrives.
include hn in
theorem items_append (buf more : List α) :
    items next (buf ++ more) = items next buf ++ items next (leftover next buf ++ more) := by
  induction buf using hn.buffer_induction with
  | none buf h => rw [items_of_none h, leftover_of_none h, List.nil_append]
  | some buf item rest h ih =>
      rw [hn.items_of_some (hn.stable h more), hn.items_of_some h, hn.leftover_of_some h, ih,
        List.cons_append]

include hn in
theorem leftover_append (buf more : List α) :
    leftover next (buf ++ more) = leftover next (leftover next buf ++ more) := by
  induction buf using hn.buffer_induction with
  | none buf h => rw [leftover_of_none h]
  | some buf item rest h ih =>
      rw [hn.leftover_of_some (hn.stable h more), hn.leftover_of_some h, ih]

-- The first items of a buffer are the items of its first part.
include hn in
theorem exists_part {first : List β} (h : first <+: items next buf) :
    ∃ part, part <+: buf ∧ items next part = first := by
  induction buf using hn.buffer_induction generalizing first with
  | none buf hb =>
      rw [items_of_none hb, List.prefix_nil] at h
      exact ⟨[], List.nil_prefix, by rw [items_of_none hn.next_nil, h]⟩
  | some buf item rest hb ih =>
      cases first with
      | nil => exact ⟨[], List.nil_prefix, items_of_none hn.next_nil⟩
      | cons head first =>
          rw [hn.items_of_some hb, List.cons_prefix_cons] at h
          obtain ⟨rfl, h⟩ := h
          obtain ⟨part, ⟨behind, rfl⟩, rfl⟩ := ih h
          obtain ⟨taken, _, rfl, htaken⟩ := hn.takes hb
          exact ⟨taken ++ part, ⟨behind, List.append_assoc _ _ _⟩, hn.items_of_some (htaken part)⟩

-- An encoding that the decoder takes back off the head of a buffer.
def Decodes (next : List α → Option (β × List α)) (encode : β → List α) (item : β) : Prop :=
  ∀ more, next (encode item ++ more) = some (item, more)

include hn in
theorem items_encode {encode : β → List α} (encoded : List β)
    (h : ∀ item ∈ encoded, Decodes next encode item) (more : List α) :
    items next (encoded.flatMap encode ++ more) = encoded ++ items next more ∧
      leftover next (encoded.flatMap encode ++ more) = leftover next more := by
  induction encoded with
  | nil => exact ⟨rfl, rfl⟩
  | cons item encoded ih =>
      obtain ⟨hitems, hleft⟩ := ih fun item' hmem => h item' (List.mem_cons_of_mem item hmem)
      have hnext := h item List.mem_cons_self (encoded.flatMap encode ++ more)
      rw [List.flatMap_cons, List.append_assoc, hn.items_of_some hnext, hn.leftover_of_some hnext,
        hitems, hleft]
      exact ⟨rfl, rfl⟩

end Framing

end Milo.Lib
