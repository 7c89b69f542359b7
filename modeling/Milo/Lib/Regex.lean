import Milo.Lib.Occurs
import Mathlib.Data.List.DropRight

-- Matching with backtracking: the rest of a pattern is what a part of it goes on with.
namespace Milo.Lib.Regex

variable {α β : Type}

-- The first place from which a pattern matches.
def search (m : List α → Option β) : List α → Option β
  | [] => m []
  | c :: rest => m (c :: rest) <|> search m rest

section Search

variable {m : List α → Option β}

theorem search_of_some {text : List α} {b : β} (h : m text = some b) : search m text = some b := by
  cases text with
  | nil => exact h
  | cons c rest =>
      rw [search, h]
      rfl

-- Nothing begins to match in the front of a text.
theorem search_append {front back : List α}
    (h : ∀ before after, front = before ++ after → after ≠ [] → m (after ++ back) = none) :
    search m (front ++ back) = search m back := by
  induction front with
  | nil => rfl
  | cons c front ih =>
      have hhere := h [] (c :: front) rfl (List.cons_ne_nil c front)
      rw [List.cons_append] at hhere ⊢
      rw [search, hhere]
      exact ih fun before after hsplit hne => h (c :: before) after (by rw [hsplit]; rfl) hne

theorem search_eq_none {text : List α} (h : ∀ rest, rest <:+ text → m rest = none) :
    search m text = none := by
  induction text with
  | nil => exact h [] (List.suffix_refl [])
  | cons c text ih =>
      rw [search, h (c :: text) (List.suffix_refl _)]
      exact ih fun rest hrest => h rest (hrest.trans (List.suffix_cons c text))

end Search

variable [DecidableEq α]

def literal (word : List α) (k : List α → Option β) (text : List α) : Option β :=
  if word <+: text then k (text.drop word.length) else none

-- As many letters of a class as there are, or else fewer.
def greedy (p : α → Bool) (k : List α → Option β) : List α → Option β
  | [] => k []
  | c :: rest => if p c then greedy p k rest <|> k (c :: rest) else k (c :: rest)

-- A group of as few letters as can be, or else more.
def lazyGroup (k : List α → List α → Option β) (group : List α) : List α → Option β
  | [] => k group []
  | c :: rest => k group (c :: rest) <|> lazyGroup k (group ++ [c]) rest

-- The text up to the first occurrence of a word.
def upTo (word : List α) : List α → Option (List α)
  | [] => if word = [] then some [] else none
  | c :: rest => if word <+: c :: rest then some [] else (upTo word rest).map (c :: ·)

theorem lazyGroup_literal (word group text : List α) :
    lazyGroup (fun group => literal word fun _ => some group) group text =
      (upTo word text).map (group ++ ·) := by
  induction text generalizing group with
  | nil =>
      rw [lazyGroup, literal, upTo]
      by_cases hword : word = []
      · simp [hword]
      · simp [hword, List.prefix_nil]
  | cons c rest ih =>
      rw [lazyGroup, literal, upTo, ih]
      split_ifs with hstarts
      · simp
      · rw [Option.map_map]
        cases upTo word rest with
        | none => rfl
        | some found =>
            change some _ = some _
            simp

theorem upTo_eq_none_iff (word text : List α) : upTo word text = none ↔ ¬word <:+: text := by
  induction text with
  | nil =>
      rw [upTo, List.infix_nil]
      split_ifs with hword
      · simp [hword]
      · simp [hword]
  | cons c rest ih =>
      rw [upTo, List.infix_cons_iff]
      split_ifs with hstarts
      · simp [hstarts]
      · rw [Option.map_eq_none_iff, ih]
        simp [hstarts]

end Milo.Lib.Regex
