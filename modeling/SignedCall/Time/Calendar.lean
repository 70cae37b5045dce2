/-!
# The calendar

Days of the proleptic Gregorian calendar from year 1 to year 9999, counted from the first of them: the day of a date
(`Date.toDays`) and the date of a day (`Date.ofDays`).
-/

namespace SignedCall

/-- A calendar date. -/
structure Date where
  year : Nat
  month : Nat
  day : Nat
  deriving DecidableEq, Repr

namespace Date

/-- The last year that dates are made for. -/
def maxYear : Nat := 9999

/-- Whether a year has 366 days. -/
def isLeap (year : Nat) : Bool :=
  year % 4 == 0 && (year % 100 != 0 || year % 400 == 0)

/-- The lengths of the months of a year. -/
def monthLengths (leap : Bool) : List Nat :=
  [31, if leap then 29 else 28, 31, 30, 31, 30, 31, 31, 30, 31, 30, 31]

/-- The number of days from the first of year 1 to the first of the given year. -/
def daysBeforeYear (year : Nat) : Nat :=
  let y := year - 1
  y * 365 + y / 4 - y / 100 + y / 400

/-- Whether a date is one of the calendar. -/
def isValid (d : Date) : Bool :=
  1 ≤ d.year && d.year ≤ maxYear && 1 ≤ d.month && d.month ≤ 12 && 1 ≤ d.day &&
    d.day ≤ ((monthLengths (isLeap d.year))[d.month - 1]?).getD 0

/-- The number of days from the first day of year 1 to the date. -/
def toDays (d : Date) : Nat :=
  daysBeforeYear d.year + ((monthLengths (isLeap d.year)).take (d.month - 1)).foldl (· + ·) 0 + (d.day - 1)

/-- The month and day of the `n`-th day of a year, both counted from one, where `lengths` are the months from `month` on. -/
def monthAndDay (month n : Nat) : List Nat → Nat × Nat
  | [] => (month, n + 1)
  | length :: rest => if n < length then (month, n + 1) else monthAndDay (month + 1) (n - length) rest

/-- The year of a day, and the number of the day in it. -/
def yearAndDay (days : Nat) : Nat × Nat :=
  let cycles := days / 146097
  let days := days % 146097
  let centuries := min (days / 36524) 3
  let days := days - centuries * 36524
  let quads := days / 1461
  let days := days % 1461
  let years := min (days / 365) 3
  (cycles * 400 + centuries * 100 + quads * 4 + years + 1, days - years * 365)

/-- The date that is `days` days after the first day of year 1. -/
def ofDays (days : Nat) : Date :=
  let (year, n) := yearAndDay days
  let (month, day) := monthAndDay 1 n (monthLengths (isLeap year))
  ⟨year, month, day⟩

/-- The day of the week, Monday being zero. -/
def weekday (days : Nat) : Nat := days % 7

/-- The number of days in the calendar. -/
def limit : Nat := 3652059

end Date

end SignedCall
