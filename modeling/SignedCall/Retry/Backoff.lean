import SignedCall.Failure
import SignedCall.Number.Shortest

/-!
# Backoff

How long to wait before trying again. An exponential strategy doubles its base with every retry up to a cap on the doublings and
a cap on the time, in whole milliseconds, and draws the wait from all of that time or from its upper half.
-/

namespace SignedCall

/-- The random draws that are left: a list of them that is started over at its end, and how many were used. -/
structure Draws where
  values : List Number
  used : Nat := 0
  deriving DecidableEq, Repr

/-- The next draw, and the draws after it. -/
def Draws.next (d : Draws) : Number × Draws :=
  ((d.values[d.used % d.values.length]?).getD (.whole 0), { d with used := d.used + 1 })

/-- Why no delay can be computed. -/
inductive BackoffFault where
  | notPositive (name : String) (value : Number)
  | negativeDelay (value : Number)
  | negativeRetries
  | notFinite
  | notANumber
  | tooLarge
  deriving DecidableEq, Repr

/-- The failure of a call for the sake of a fault. -/
def BackoffFault.failure : BackoffFault → Failure
  | .notPositive name value => Failure.stated .configuration (name ++ " must be positive, got " ++ value.text)
  | .negativeDelay value => Failure.stated .configuration ("delay must not be negative, got " ++ value.text)
  | .negativeRetries => Failure.inner .value "negative shift count"
  | .notFinite => Failure.inner .overflow "cannot convert float infinity to integer"
  | .notANumber => Failure.inner .value "cannot convert float NaN to integer"
  | .tooLarge => Failure.inner .overflow "int too large to convert to float"

namespace Backoff

/-- Seconds in whole milliseconds, rounded to the nearest, the even one of two equally near. -/
def millis (seconds : Number) : Except BackoffFault Int :=
  match seconds with
  | .whole n => .ok (n * 1000)
  | .real x =>
    let product := x.mul (Binary64.ofInt 1000)
    match product.round? with
    | some n => .ok n
    | none => .error (if product = .nan then .notANumber else .notFinite)

/-- Whole milliseconds in seconds, unless they are beyond all finite numbers. -/
def seconds (millis : Int) : Except BackoffFault Binary64 :=
  let x := Binary64.ofQuotient millis 1000
  if x.isFinite then .ok x else .error .tooLarge

/-- The time that doubles with every retry, up to both caps. -/
def ceiling (retries maxRetries : Nat) (baseMillis maxMillis : Int) : Int :=
  min ((Nat.pow 2 (min retries maxRetries) : Nat) * baseMillis) maxMillis

/-- The doubled time in seconds without a draw. -/
def exponentialDelay (retries : Int) (base maxTime : Number) (maxRetries : Int) : Except BackoffFault Binary64 := do
  let base ← millis base
  let maxTime ← millis maxTime
  if retries < 0 || maxRetries < 0 then throw .negativeRetries
  seconds (ceiling retries.toNat maxRetries.toNat base maxTime)

/-- The whole part of a product; none if a factor or the product is beyond all finite numbers. -/
def wholePart? (draw : Number) (bound : Int) : Option Int :=
  match draw with
  | .whole n => some (n * bound)
  | .real x => (x.mul (Binary64.ofInt bound)).truncate?

/-- The number below a bound that a draw stands for; an empty range gives zero without a draw. -/
def drawBelow (bound : Int) (draws : Draws) : Except BackoffFault (Int × Draws) :=
  if bound ≤ 0 then .ok (0, draws)
  else
    let (draw, draws) := draws.next
    match wholePart? draw bound with
    | some n => .ok (min n (bound - 1), draws)
    | none => .error .tooLarge

end Backoff

/-- Where a draw is taken from: all of the time, or its upper half. -/
inductive Jitter where
  | full
  | equal
  deriving DecidableEq, Repr

/-- How long to wait before trying again. -/
inductive BackoffStrategy where
  | exponential (jitter : Jitter) (base maxTime : Number) (maxRetries : Int)
  | fixed (delay : Number)
  deriving DecidableEq, Repr

namespace BackoffStrategy

/-- An exponential strategy, all of whose numbers have to be positive. -/
def exponential? (jitter : Jitter) (base maxTime : Number) (maxRetries : Int) : Except BackoffFault BackoffStrategy :=
  if base.isNonpositive then .error (.notPositive "base_delay" base)
  else if maxTime.isNonpositive then .error (.notPositive "max_backoff_time" maxTime)
  else if maxRetries ≤ 0 then .error (.notPositive "max_retries" (.whole maxRetries))
  else .ok (.exponential jitter base maxTime maxRetries)

/-- A strategy of equal waits, which must not be negative. -/
def fixed? (delay : Number) : Except BackoffFault BackoffStrategy :=
  if delay.isNegative then .error (.negativeDelay delay) else .ok (.fixed delay)

/-- The milliseconds drawn under a ceiling. -/
def drawMillis (jitter : Jitter) (ceiling : Int) (draws : Draws) : Except BackoffFault (Int × Draws) :=
  match jitter with
  | .full => Backoff.drawBelow ceiling draws
  | .equal => do
    let half := ceiling / 2
    let (n, draws) ← Backoff.drawBelow (half + 1) draws
    return (half + n, draws)

/-- The delay in seconds after some retries, and the draws that are left. -/
def delay (strategy : BackoffStrategy) (retries : Nat) (draws : Draws) : Except BackoffFault (Binary64 × Draws) :=
  match strategy with
  | .fixed delay => .ok (delay.toBinary64, draws)
  | .exponential jitter base maxTime maxRetries => do
    let base ← Backoff.millis base
    let maxTime ← Backoff.millis maxTime
    let (n, draws) ← drawMillis jitter (Backoff.ceiling retries maxRetries.toNat base maxTime) draws
    return (← Backoff.seconds n, draws)

/-- A strategy as messages show it. -/
def inspect : BackoffStrategy → String
  | .fixed delay => "FixedDelayBackoffStrategy(delay=" ++ delay.text ++ ")"
  | .exponential jitter base maxTime maxRetries =>
    (match jitter with
      | .full => "FullJitterBackoffStrategy"
      | .equal => "EqualJitterBackoffStrategy") ++
      "(base_delay=" ++ base.text ++ ", max_backoff_time=" ++ maxTime.text ++ ", max_retries=" ++ toString maxRetries ++ ")"

/-- The longest wait, in seconds, unless told otherwise. -/
def defaultMaxTime : Number := .real (Binary64.ofInt 20)

/-- The number of retries unless told otherwise. -/
def defaultRetries : Nat := 3

/-- The strategy for failures that are not throttling. -/
def standard : BackoffStrategy :=
  .exponential .full (.real (Binary64.ofQuotient 1 10)) defaultMaxTime defaultRetries

/-- The strategy for throttling. -/
def throttling : BackoffStrategy :=
  .exponential .equal (.real (Binary64.ofQuotient 1 2)) defaultMaxTime defaultRetries

/-- Hardly any wait. -/
def none : BackoffStrategy := .fixed (.real (Binary64.ofQuotient 1 1000))

end BackoffStrategy

end SignedCall
