import Mathlib.Tactic.Common

/-! Blanks at the ends of a text, as `str.strip` removes them. -/

set_option autoImplicit false

namespace Whitespace

/-- `str.isspace` of one character. -/
def isSpace (c : Char) : Bool :=
  let code := c.toNat
  (9 ≤ code && code ≤ 13) || (28 ≤ code && code ≤ 32) || code = 0x85 || code = 0xA0 || code = 0x1680 ||
    (0x2000 ≤ code && code ≤ 0x200A) || code = 0x2028 || code = 0x2029 || code = 0x202F ||
    code = 0x205F || code = 0x3000

def lstripList (text : List Char) : List Char := text.dropWhile isSpace

def stripList (text : List Char) : List Char := (lstripList (lstripList text).reverse).reverse

def strip (text : String) : String := String.ofList (stripList text.toList)

theorem stripList_sublist (text : List Char) : (stripList text).Sublist text := by
  have once (text : List Char) : (lstripList text).Sublist text := List.dropWhile_sublist isSpace
  have turned : (lstripList (lstripList text).reverse).reverse.Sublist (lstripList text) := by
    rw [← List.reverse_sublist, List.reverse_reverse]
    exact once _
  exact turned.trans (once text)

theorem getLast_stripList {text : List Char} {c : Char} (last : (stripList text).getLast? = some c) :
    isSpace c = false := by
  rw [stripList, List.getLast?_reverse, lstripList] at last
  have solid := List.head?_dropWhile_not isSpace (lstripList text).reverse
  rw [last] at solid
  exact solid

theorem stripList_space (text : List Char) : stripList (' ' :: text) = stripList text := by
  have blank : lstripList (' ' :: text) = lstripList text := List.dropWhile_cons_of_pos (by decide)
  rw [stripList, blank, stripList]

end Whitespace
