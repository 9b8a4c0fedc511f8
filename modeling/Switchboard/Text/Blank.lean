/-!
White space in the sense of the Unicode property, and texts stripped of it.
-/

namespace Switchboard.Text

/-- The twenty-five characters of Unicode's `White_Space` property. -/
def isBlank (c : Char) : Bool :=
  let n := c.toNat
  (9 ≤ n && n ≤ 13) || n == 0x20 || n == 0x85 || n == 0xA0 || n == 0x1680 ||
    (0x2000 ≤ n && n ≤ 0x200A) || n == 0x2028 || n == 0x2029 || n == 0x202F ||
    n == 0x205F || n == 0x3000

/-- Drops the elements at the end that satisfy `p`. -/
def dropWhileEnd (p : α → Bool) (xs : List α) : List α :=
  (xs.reverse.dropWhile p).reverse

/-- Drops blanks at both ends. -/
def stripped (cs : List Char) : List Char :=
  dropWhileEnd isBlank (cs.dropWhile isBlank)

end Switchboard.Text
