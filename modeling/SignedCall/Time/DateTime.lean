import SignedCall.Time.Calendar

/-!
# Dates and times

A moment given by a wall clock, with or without its distance from universal time, and the instants of universal time that
such moments denote. Both are counted in microseconds from the first moment of year 1, and neither leaves the calendar.
-/

namespace SignedCall

/-- Microseconds in a second. -/
def secondMicros : Nat := 1000000

/-- Microseconds in a day. -/
def dayMicros : Nat := 86400 * secondMicros

/-- The number of microseconds of the calendar. -/
def timeLimit : Nat := Date.limit * dayMicros

/-- An instant of universal time, in microseconds since the first moment of year 1. -/
structure Instant where
  micros : Nat
  micros_lt : micros < timeLimit
  deriving DecidableEq, Repr

/-- A reading of a wall clock, with the microseconds that the clock is ahead of universal time where they are known. -/
structure DateTime where
  wall : Nat
  offset : Option Int
  wall_lt : wall < timeLimit
  deriving DecidableEq, Repr

/-- The instant with the given microseconds, if the calendar has it. -/
def Instant.ofMicros? (n : Int) : Option Instant :=
  if h : 0 ≤ n ∧ n.toNat < timeLimit then some ⟨n.toNat, h.2⟩ else none

/-- The wall clock reading with the given microseconds, if the calendar has it. -/
def DateTime.ofMicros? (n : Int) (offset : Option Int) : Option DateTime :=
  if h : 0 ≤ n ∧ n.toNat < timeLimit then some ⟨n.toNat, offset, h.2⟩ else none

/-- The instant that a reading denotes; one without a known distance is taken as universal time. None if the instant is
outside the calendar. -/
def DateTime.utc? (d : DateTime) : Option Instant :=
  Instant.ofMicros? (d.wall - d.offset.getD 0)

/-- An instant as the reading of a clock of universal time. -/
def Instant.toDateTime (t : Instant) : DateTime := ⟨t.micros, some 0, t.micros_lt⟩

/-- The instant moved by some microseconds, if it stays in the calendar. -/
def Instant.add? (t : Instant) (n : Int) : Option Instant := Instant.ofMicros? (t.micros + n)

/-- The fields of a reading: the date, and hour, minute, second and microsecond of the day. -/
structure Fields where
  date : Date
  hour : Nat
  minute : Nat
  second : Nat
  micro : Nat
  deriving DecidableEq, Repr

/-- The fields of the moment `n` microseconds after the first. -/
def Fields.ofMicros (n : Nat) : Fields :=
  let rest := n % dayMicros
  let seconds := rest / secondMicros
  { date := Date.ofDays (n / dayMicros), hour := seconds / 3600, minute := seconds / 60 % 60, second := seconds % 60
    micro := rest % secondMicros }

/-- The microseconds of fields that are in range, none if one is not. -/
def Fields.micros? (f : Fields) : Option Nat :=
  if f.date.isValid && f.hour < 24 && f.minute < 60 && f.second < 60 && f.micro < secondMicros then
    some (f.date.toDays * dayMicros + ((f.hour * 60 + f.minute) * 60 + f.second) * secondMicros + f.micro)
  else none

/-- The first moment of 1970, from which whole seconds are counted. -/
def epochMicros : Nat := 719162 * dayMicros

/-- `n` in decimal, filled with zeros to at least `width` digits. -/
def padded (width n : Nat) : String :=
  let ds := Nat.toDigits 10 n
  String.ofList (List.replicate (width - ds.length) '0' ++ ds)

/-- The distance from universal time, as hours and minutes and, where there are any, seconds and microseconds. -/
def offsetText (offset : Int) : String :=
  let n := offset.natAbs
  let seconds := n / secondMicros
  let tail :=
    if n % secondMicros ≠ 0 then ":" ++ padded 2 (seconds % 60) ++ "." ++ padded 6 (n % secondMicros)
    else if seconds % 60 ≠ 0 then ":" ++ padded 2 (seconds % 60)
    else ""
  (if offset < 0 then "-" else "+") ++ padded 2 (seconds / 3600) ++ ":" ++ padded 2 (seconds / 60 % 60) ++ tail

/-- The text of a reading, with six digits of the second and the distance where it is known. -/
def DateTime.text (d : DateTime) : String :=
  let f := Fields.ofMicros d.wall
  padded 4 f.date.year ++ "-" ++ padded 2 f.date.month ++ "-" ++ padded 2 f.date.day ++ "T" ++ padded 2 f.hour ++ ":" ++
    padded 2 f.minute ++ ":" ++ padded 2 f.second ++ "." ++ padded 6 f.micro ++
    (match d.offset with | some o => offsetText o | none => "")

end SignedCall
