import Milo.Entry

-- Methods of Python's str.
namespace Milo.Host

-- What str.isspace says of a character.
def isspace (c : Char) : Bool := Entry.isWhitespace c || (0x1C ≤ c.val && c.val ≤ 0x1F)

-- The method str.strip.
def strip (text : List Char) : List Char := (text.dropWhile isspace).rdropWhile isspace

-- There is nothing to take off a text without such characters.
theorem dropWhile_both {p : Char → Bool} {text : List Char} (h : ∀ c ∈ text, p c = false) :
    (text.dropWhile p).rdropWhile p = text := by
  have hfront : text.dropWhile p = text :=
    List.dropWhile_eq_self_iff.mpr fun hlen => Bool.eq_false_iff.mp (h _ (List.getElem_mem hlen))
  rw [hfront]
  exact List.rdropWhile_eq_self_iff.mpr fun hne => Bool.eq_false_iff.mp (h _ (List.getLast_mem hne))

theorem strip_cons {c : Char} (hc : isspace c = true) (text : List Char) :
    strip (c :: text) = strip text := by
  rw [strip, List.dropWhile_cons_of_pos hc]
  rfl

-- It takes off no other characters.
theorem count_strip {c : Char} (hc : isspace c = false) (text : List Char) :
    (strip text).count c = text.count c := by
  have hfront : ∀ text : List Char, (text.dropWhile isspace).count c = text.count c := by
    intro text
    have hspaces : (text.takeWhile isspace).count c = 0 := by
      refine List.count_eq_zero.mpr fun hmem => ?_
      rw [List.mem_takeWhile_imp hmem] at hc
      cases hc
    have hsplit := congrArg (List.count c) (List.takeWhile_append_dropWhile (p := isspace) (l := text))
    rw [List.count_append, hspaces, Nat.zero_add] at hsplit
    exact hsplit
  unfold strip
  rw [List.rdropWhile, List.count_reverse, hfront, List.count_reverse, hfront]

end Milo.Host
