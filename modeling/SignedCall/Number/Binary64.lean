import SignedCall.Number.Rounding

/-!
# Double precision numbers

Double precision floating point as exact arithmetic: a finite number is a signed mantissa times a power of two, and every
operation computes the exact result and rounds it once, to nearest with ties to even.
-/

namespace SignedCall

/-- A double precision number. The mantissa of a finite one is below `2 ^ 53`, and its exponent is the least possible. -/
inductive Binary64 where
  | finite (negative : Bool) (mantissa : Nat) (exponent : Int)
  | infinite (negative : Bool)
  | nan
  deriving DecidableEq, Repr, Inhabited

namespace Binary64

/-- The exponent of the smallest numbers. -/
def minExponent : Int := -1074

/-- The exponent of the largest numbers. -/
def maxExponent : Int := 971

/-- Zero with a sign. -/
def zero (negative : Bool) : Binary64 := .finite negative 0 minExponent

/-- `2 ^ e` as a quotient of natural numbers. -/
def powRatio (e : Int) : Nat × Nat :=
  (Nat.pow 2 e.toNat, Nat.pow 2 (-e).toNat)

/-- The exponent of the least grid of 53-bit mantissas that holds `num / den`, both positive. -/
def exponentFor (num den : Nat) : Int :=
  let top : Int := (num.log2 : Int) - den.log2
  let (up, down) := powRatio top
  max (if num * down < den * up then top - 53 else top - 52) minExponent

/-- The number nearest to `num / den` with the given sign; `den` is positive. -/
def ofRatio (negative : Bool) (num den : Nat) : Binary64 :=
  if num = 0 then zero negative
  else
    let e := exponentFor num den
    let (up, down) := powRatio e
    let m := roundHalfEven (num * down) (den * up)
    let (m, e) := if m = Nat.pow 2 53 then (Nat.pow 2 52, e + 1) else (m, e)
    if maxExponent < e then .infinite negative else .finite negative m e

/-- The number nearest to a quotient of whole numbers. -/
def ofQuotient (num : Int) (den : Nat) : Binary64 :=
  ofRatio (num < 0) num.natAbs den

/-- The number nearest to a whole number. -/
def ofInt (n : Int) : Binary64 := ofQuotient n 1

/-- Whether the sign is negative. -/
def isNegative : Binary64 → Bool
  | .finite negative _ _ => negative
  | .infinite negative => negative
  | .nan => false

/-- Whether the number is a finite one. -/
def isFinite : Binary64 → Bool
  | .finite .. => true
  | _ => false

/-- Whether the number is zero, of either sign. -/
def isZero : Binary64 → Bool
  | .finite _ m _ => m == 0
  | _ => false

/-- `0 < x`. -/
def isPositive : Binary64 → Bool
  | .finite negative m _ => !negative && m != 0
  | .infinite negative => !negative
  | .nan => false

/-- `0 ≤ x`; the negative zero counts as zero. -/
def isNonneg (x : Binary64) : Bool := x.isPositive || x.isZero

/-- The product, rounded once. -/
def mul : Binary64 → Binary64 → Binary64
  | .finite s m e, .finite t n f =>
    let (up, down) := powRatio (e + f)
    ofRatio (s != t) (m * n * up) down
  | .nan, _ => .nan
  | _, .nan => .nan
  | x, y => if x.isZero || y.isZero then .nan else .infinite (x.isNegative != y.isNegative)

/-- The nearest whole number, the even one of two equally near; none if the number is not finite. -/
def round? : Binary64 → Option Int
  | .finite negative m e =>
    let (up, down) := powRatio e
    let n : Int := roundHalfEven (m * up) down
    some (if negative then -n else n)
  | _ => none

/-- The whole part, rounding toward zero; none if the number is not finite. -/
def truncate? : Binary64 → Option Int
  | .finite negative m e =>
    let (up, down) := powRatio e
    let n : Int := m * up / down
    some (if negative then -n else n)
  | _ => none

/-- The 64 bits of the interchange format. -/
def bits (x : Binary64) : Nat :=
  let sign := if x.isNegative then Nat.pow 2 63 else 0
  sign + match x with
    | .finite _ m e => if m < Nat.pow 2 52 then m else (e - minExponent + 1).toNat * Nat.pow 2 52 + (m - Nat.pow 2 52)
    | .infinite _ => 0x7ff * Nat.pow 2 52
    | .nan => 0x7ff * Nat.pow 2 52 + Nat.pow 2 51

end Binary64

end SignedCall
