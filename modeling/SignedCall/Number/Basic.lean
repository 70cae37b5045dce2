import SignedCall.Number.Shortest

/-!
# Numbers

A number as a caller writes it: whole, or with a fraction. The two print differently, and count alike.
-/

namespace SignedCall

/-- A whole number of any size, or a double precision number. -/
inductive Number where
  | whole (n : Int)
  | real (x : Binary64)
  deriving DecidableEq, Repr, Inhabited

namespace Number

/-- The text of a number in messages. -/
def text : Number → String
  | .whole n => toString n
  | .real x => x.text

/-- The double precision number nearest to it. -/
def toBinary64 : Number → Binary64
  | .whole n => Binary64.ofInt n
  | .real x => x

/-- `0 < x`. -/
def isPositive : Number → Bool
  | .whole n => 0 < n
  | .real x => x.isPositive

/-- `x ≤ 0`. -/
def isNonpositive : Number → Bool
  | .whole n => n ≤ 0
  | .real x => x.isZero || (x.isNegative && x != .nan)

/-- `x < 0`. -/
def isNegative : Number → Bool
  | .whole n => n < 0
  | .real x => x.isNegative && !x.isZero

/-- `x = 0`. -/
def isZero : Number → Bool
  | .whole n => n == 0
  | .real x => x.isZero

end Number

end SignedCall
