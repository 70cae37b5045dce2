/-!
# Blanks

The characters that count as white space when text is stripped, and stripping itself.
-/

namespace SignedCall.Text

/-- White space: the separators of Unicode, the control characters that move the cursor, and the information separators. -/
def isBlank (c : Char) : Bool :=
  let n := c.toNat
  (0x09 ≤ n && n ≤ 0x0d) || (0x1c ≤ n && n ≤ 0x20) || n == 0x85 || n == 0xa0 || n == 0x1680 ||
    (0x2000 ≤ n && n ≤ 0x200a) || n == 0x2028 || n == 0x2029 || n == 0x202f || n == 0x205f || n == 0x3000

/-- The list without the elements satisfying `p` at its end. -/
def dropEnd {α : Type} (p : α → Bool) (xs : List α) : List α :=
  (xs.reverse.dropWhile p).reverse

/-- The text without the characters satisfying `p` at its end. -/
def dropRight (p : Char → Bool) (s : String) : String :=
  String.ofList (dropEnd p s.toList)

/-- The characters without the blanks at either end. -/
def trim (cs : List Char) : List Char :=
  dropEnd isBlank (cs.dropWhile isBlank)

/-- The text without the blanks at either end. -/
def strip (s : String) : String :=
  String.ofList (trim s.toList)

end SignedCall.Text
