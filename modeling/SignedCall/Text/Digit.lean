import SignedCall.Text.Blank
import SignedCall.Text.DigitTable

/-!
# Digits and whole numbers

Reading whole numbers as people write them: decimal digits of any script, blanks around the number, a sign, and single
underscores between digits.
-/

namespace SignedCall.Text

/-- The value of a decimal digit of any script. -/
def digitValue? (c : Char) : Option Nat :=
  (digitZeros.find? fun first => first ≤ c.toNat && c.toNat < first + 10).map (c.toNat - ·)

/-- Ranges of characters that denote a digit without being decimal digits: superscripts, subscripts and enclosed digits. -/
def specialDigitRanges : List (Nat × Nat) :=
  [(0xb2, 0xb3), (0xb9, 0xb9), (0x1369, 0x1371), (0x19da, 0x19da), (0x2070, 0x2070), (0x2074, 0x2079), (0x2080, 0x2089),
   (0x2460, 0x2468), (0x2474, 0x247c), (0x2488, 0x2490), (0x24ea, 0x24ea), (0x24f5, 0x24fd), (0x24ff, 0x24ff),
   (0x2776, 0x277e), (0x2780, 0x2788), (0x278a, 0x2792), (0x10a40, 0x10a43), (0x10e60, 0x10e68), (0x11052, 0x1105a),
   (0x1f100, 0x1f10a)]

/-- Whether a character denotes a digit. -/
def isDigitLike (c : Char) : Bool :=
  (digitValue? c).isSome || specialDigitRanges.any fun (first, last) => first ≤ c.toNat && c.toNat ≤ last

/-- The ASCII digits. -/
def isAsciiDigit (c : Char) : Bool := '0' ≤ c && c ≤ '9'

/-- Blanks that may surround a number; the information separators may not. -/
def isNumberBlank (c : Char) : Bool := isBlank c && !(0x1c ≤ c.toNat && c.toNat ≤ 0x1f)

/-- The text of a number with the blanks around it removed and its digits written in ASCII. -/
def plainNumber (s : String) : List Char :=
  let inner := dropEnd isNumberBlank (s.toList.dropWhile isNumberBlank)
  inner.map fun c => match digitValue? c with
    | some v => Char.ofNat (48 + v)
    | none => c

/-- The number that a list of ASCII digits writes. -/
def natOfDigits (ds : List Char) : Nat :=
  ds.foldl (fun n c => n * 10 + (c.toNat - 48)) 0

/-- Removes the underscores, each of which must stand between two digits; `before` tells whether a digit precedes. -/
def dropUnderscores? (before : Bool) : List Char → Option (List Char)
  | [] => some []
  | '_' :: rest =>
    match rest with
    | c :: _ => if before && isAsciiDigit c then dropUnderscores? false rest else none
    | [] => none
  | c :: rest => (c :: ·) <$> dropUnderscores? (isAsciiDigit c) rest

/-- The most digits a whole number may be written with. -/
def maxDigits : Nat := 4300

/-- Splits a sign off. -/
def splitSign : List Char → Bool × List Char
  | '-' :: rest => (true, rest)
  | '+' :: rest => (false, rest)
  | rest => (false, rest)

/-- The whole number that a text writes. -/
def readInt? (s : String) : Option Int := do
  let (negative, digits) := splitSign (plainNumber s)
  let digits ← dropUnderscores? false digits
  if digits.isEmpty || !digits.all isAsciiDigit || digits.length > maxDigits then none
  else some (if negative then -(natOfDigits digits : Int) else natOfDigits digits)

end SignedCall.Text
