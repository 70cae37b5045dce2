import SignedCall.Number.Binary64
import SignedCall.Text.Digit
import SignedCall.Text.Case

/-!
# Reading decimal numbers

Decimal texts as double precision numbers: the exact value of the text, rounded once.
-/

namespace SignedCall.Binary64

/-- The number nearest to `n * 10 ^ e`. Exponents far beyond the range are decided by the number of digits alone. -/
def ofDecimal (negative : Bool) (n : Nat) (e : Int) : Binary64 :=
  if n = 0 then zero negative
  else
    let magnitude := (Nat.toDigits 10 n).length + e
    if 400 < magnitude then .infinite negative
    else if magnitude < -400 then zero negative
    else ofRatio negative (n * Nat.pow 10 e.toNat) (Nat.pow 10 (-e).toNat)

/-- The exponent part of a decimal: nothing, or `e`, an optional sign and digits. -/
def readExponent? : List Char → Option Int
  | [] => some 0
  | c :: rest =>
    if c == 'e' || c == 'E' then
      let (negative, digits) := Text.splitSign rest
      if digits.isEmpty || !digits.all Text.isAsciiDigit then none
      else some (if negative then -(Text.natOfDigits digits : Int) else Text.natOfDigits digits)
    else none

/-- The number that unsigned decimal digits write: digits on at least one side of an optional point, then an exponent. -/
def readUnsigned? (negative : Bool) (cs : List Char) : Option Binary64 := do
  let (whole, rest) := cs.span Text.isAsciiDigit
  let (fraction, rest) := match rest with
    | '.' :: rest => rest.span Text.isAsciiDigit
    | _ => ([], rest)
  if whole.isEmpty && fraction.isEmpty then none
  let exponent ← readExponent? rest
  some (ofDecimal negative (Text.natOfDigits (whole ++ fraction)) (exponent - fraction.length))

/-- The number that a text writes: a decimal, or one of the names of infinity and of the undefined number, with blanks
around, a sign and underscores between digits allowed. -/
def ofText? (s : String) : Option Binary64 := do
  let cs ← Text.dropUnderscores? false (Text.plainNumber s)
  let (negative, body) := Text.splitSign cs
  let word := body.map Text.lowerChar
  if word == ['i', 'n', 'f'] || word == "infinity".toList then some (.infinite negative)
  else if word == ['n', 'a', 'n'] then some .nan
  else readUnsigned? negative body

end SignedCall.Binary64
