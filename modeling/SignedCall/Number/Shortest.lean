import SignedCall.Number.Binary64

/-!
# Shortest decimal text

The fewest decimal digits that read back as the same double precision number, and of those the nearest to it. All tests are
made in exact arithmetic: a decimal reads back as the number if it lies in the interval of reals that round to it.
-/

namespace SignedCall.Binary64

/-- The reals that round to a number, and the number itself, over one denominator. -/
structure Neighbourhood where
  low : Nat
  value : Nat
  high : Nat
  den : Nat
  /-- Whether the ends themselves round to the number. -/
  closed : Bool

/-- The neighbourhood of `m * 2 ^ e`; below a power of two the next number is half as far. -/
def neighbourhood (m : Nat) (e : Int) : Neighbourhood :=
  let (up, down) := powRatio (e - 2)
  let below := if m = Nat.pow 2 52 ∧ minExponent < e then 1 else 2
  { low := (4 * m - below) * up, value := 4 * m * up, high := (4 * m + 2) * up, den := down, closed := m % 2 == 0 }

/-- Whether `n / d` lies in the neighbourhood. -/
def Neighbourhood.contains (h : Neighbourhood) (n d : Nat) : Bool :=
  let x := n * h.den
  if h.closed then h.low * d ≤ x && x ≤ h.high * d else h.low * d < x && x < h.high * d

/-- The number of decimal digits of `n`. -/
def digitCount (n : Nat) : Nat := (Nat.toDigits 10 n).length

/-- The exponent `d` with `10 ^ d ≤ num / den < 10 ^ (d + 1)`, both positive. -/
def decimalExponent (num den : Nat) : Int :=
  if den ≤ num then (digitCount (num / den) : Int) - 1 else -(digitCount ((den - 1) / num) : Int)

/-- The point of the grid of multiples of `10 ^ p` in the neighbourhood that is nearest to its number, if there is one. -/
def nearestOnGrid? (h : Neighbourhood) (p : Int) : Option Nat :=
  let (up, down) := (Nat.pow 10 p.toNat, Nat.pow 10 (-p).toNat)
  let floor := h.value * down / (h.den * up)
  let inside (c : Nat) : Bool := h.contains (c * up) down
  match inside floor, inside (floor + 1) with
  | true, true =>
    let rest := h.value * down - floor * (h.den * up)
    some (if 2 * rest < h.den * up ∨ 2 * rest = h.den * up ∧ floor % 2 = 0 then floor else floor + 1)
  | true, false => some floor
  | false, true => some (floor + 1)
  | false, false => none

/-- Looks for the first grid that has a point in the neighbourhood, of `count` grids from the one of `10 ^ p` down. -/
def searchGrids (h : Neighbourhood) : Nat → Int → Nat × Int
  | 0, p => (h.value / h.den, p)
  | count + 1, p =>
    match nearestOnGrid? h p with
    | some n => (n, p)
    | none => searchGrids h count (p - 1)

/-- The significant digits of `m * 2 ^ e`, without zeros at the end, and the place of the decimal point: the number is
`0.ds * 10 ^ place`. -/
def shortestDigits (m : Nat) (e : Int) : List Char × Int :=
  let h := neighbourhood m e
  let d := decimalExponent h.value h.den
  let (n, p) := searchGrids h 17 d
  let ds := Nat.toDigits 10 n
  ((ds.reverse.dropWhile (· == '0')).reverse, p + ds.length)

/-- How a number is laid out in text. -/
structure Layout where
  /-- The least place of the decimal point written positionally. -/
  least : Int
  /-- The greatest place of the decimal point written positionally. -/
  greatest : Int
  /-- The least number of digits of the exponent. -/
  exponentWidth : Nat

/-- Numbers in messages: positional from `0.0001` up to sixteen digits before the point, else with a two-digit exponent. -/
def messageLayout : Layout := ⟨-3, 16, 2⟩

/-- The text of positive digits, laid out. -/
def Layout.render (l : Layout) (ds : List Char) (place : Int) : List Char :=
  if l.least ≤ place ∧ place ≤ l.greatest then
    if place ≤ 0 then '0' :: '.' :: List.replicate (-place).toNat '0' ++ ds
    else
      let whole := place.toNat
      let front := (ds ++ List.replicate (whole - ds.length) '0').take whole
      let back := ds.drop whole
      front ++ '.' :: (if back.isEmpty then ['0'] else back)
  else
    let exponent := place - 1
    let digits := Nat.toDigits 10 exponent.natAbs
    ds.take 1 ++ (if ds.length ≤ 1 then [] else '.' :: ds.drop 1) ++
      'e' :: (if exponent < 0 then '-' else '+') :: List.replicate (l.exponentWidth - digits.length) '0' ++ digits

/-- The text of a number in messages. -/
def text : Binary64 → String
  | .finite negative m e =>
    let body := if m = 0 then ['0', '.', '0'] else
      let (ds, place) := shortestDigits m e
      messageLayout.render ds place
    String.ofList (if negative then '-' :: body else body)
  | .infinite negative => if negative then "-inf" else "inf"
  | .nan => "nan"

end SignedCall.Binary64
