import SignedCall.Time.DateTime
import SignedCall.Text.Digit

/-!
# Reading ISO dates

Dates and times in the forms of ISO 8601: calendar or week dates with or without dashes, one character, then a time with or
without colons, a fraction of the second, and the distance from universal time.
-/

namespace SignedCall.IsoDate

/-- The number written by exactly `n` digits, and what follows. -/
def digits? : Nat → List Char → Option (Nat × List Char)
  | 0, cs => some (0, cs)
  | n + 1, c :: cs => if Text.isAsciiDigit c then
      (digits? n cs).map fun (v, rest) => ((c.toNat - 48) * Nat.pow 10 n + v, rest) else none
  | _ + 1, [] => none

/-- The length of the date part of a text, which one character separates from the time. -/
def dateLength? (cs : List Char) : Option Nat :=
  let length := cs.length
  if length < 7 then none
  else if length = 7 then some 7
  else if cs[4]? == some '-' then
    if cs[5]? == some 'W' then
      if length > 8 && cs[8]? == some '-' then
        if length = 9 then none
        else if length > 10 && (cs[10]?.map Text.isAsciiDigit).getD false then some 8
        else some 10
      else some 8
    else some 10
  else if cs[4]? == some 'W' then
    let stop := 7 + ((cs.drop 7).takeWhile Text.isAsciiDigit).length
    if stop < 9 then some stop else if stop % 2 = 0 then some 7 else some 8
  else some 8

/-- The day on which week 1 of a year starts: the Monday of the week of January 4. -/
def firstMonday (year : Nat) : Int :=
  let first := Date.daysBeforeYear year
  let weekday := Date.weekday first
  if weekday > 3 then first - weekday + 7 else first - weekday

/-- The date of a day of a week of a year; years that start late on a Thursday have 53 weeks. -/
def ofWeek? (year week day : Nat) : Option Date := do
  if year < 1 || Date.maxYear < year || day < 1 || 7 < day then none
  let first := Date.weekday (Date.daysBeforeYear year)
  let long := first == 3 || (first == 2 && Date.isLeap year)
  if week < 1 || (if long then 53 else 52) < week then none
  let days := firstMonday year + ((week : Int) - 1) * 7 + (day - 1)
  if days < 0 || (Date.limit : Int) ≤ days then none else some (Date.ofDays days.toNat)

/-- A date whose text has the given length. -/
def readDate? (cs : List Char) (length : Nat) : Option Date := do
  let (year, rest) ← digits? 4 cs
  let dashed := rest.head? == some '-'
  let rest := if dashed then rest.tail else rest
  let dash? (rest : List Char) : Option (List Char) :=
    if dashed then (if rest.head? == some '-' then some rest.tail else none) else some rest
  if rest.head? == some 'W' then
    let (week, rest) ← digits? 2 rest.tail
    if cs.length - rest.length < length then
      let rest ← dash? rest
      let (day, _) ← digits? 1 rest
      ofWeek? year week day
    else ofWeek? year week 1
  else
    let (month, rest) ← digits? 2 rest
    let rest ← dash? rest
    let (day, _) ← digits? 2 rest
    some ⟨year, month, day⟩

/-- Hour, minute, second and microsecond as written. -/
structure Clock where
  hour : Nat
  minute : Nat
  second : Nat
  micro : Nat
  deriving DecidableEq, Repr

/-- A fraction of the second, of which the first six digits count, and whether anything is left after its digits. -/
def readFraction? (clock : Clock) (cs : List Char) (length : Nat) : Option (Clock × Bool) := do
  let count := min 6 length
  let (v, rest) ← digits? count cs
  let left := (rest.dropWhile Text.isAsciiDigit).head?.getD '\x00'
  some ({ clock with micro := v * Nat.pow 10 (6 - count) }, left != '\x00')

/-- Sets the component with the given number. -/
def Clock.set (clock : Clock) (index v : Nat) : Clock :=
  match index with
  | 0 => { clock with hour := v }
  | 1 => { clock with minute := v }
  | _ => { clock with second := v }

/-- The components of a time from number `index` on, and whether anything is left: `length` characters of the text belong to
the time, `separated` tells whether colons stand between components. -/
def readComponents? (left index : Nat) (separated : Bool) (clock : Clock) (cs : List Char) (length : Nat) :
    Option (Clock × Bool) :=
  match left with
  | 0 => readFraction? clock cs length
  | left + 1 => do
    let (v, rest) ← digits? 2 cs
    let clock := clock.set index v
    let c := rest.head?.getD '\x00'
    let separated := if index = 0 then c == ':' else separated
    if length ≤ 3 then some (clock, c != '\x00')
    else if separated && c == ':' then readComponents? left (index + 1) separated clock rest.tail (length - 3)
    else if c == '.' || c == ',' then readFraction? clock rest.tail (length - 3)
    else if !separated then readComponents? left (index + 1) separated clock rest (length - 2)
    else none

/-- A time of day, and whether anything is left after it. -/
def readClock? (cs : List Char) (length : Nat) : Option (Clock × Bool) :=
  readComponents? 3 0 true ⟨0, 0, 0, 0⟩ cs length

/-- A time with its distance from universal time in microseconds, where one is given. -/
def readTime? (cs : List Char) : Option (Clock × Option Int) := do
  let zone := cs.dropWhile fun c => !(c == '+' || c == '-' || c == 'Z')
  let (clock, left) ← readClock? cs (cs.length - zone.length)
  match zone with
  | [] => if left then none else some (clock, none)
  | 'Z' :: rest => if rest.head?.getD '\x00' == '\x00' then some (clock, some 0) else none
  | sign :: rest =>
    let (z, left) ← readClock? rest rest.length
    if left then none
    let seconds := (z.hour * 60 + z.minute) * 60 + z.second
    let micros : Int := if seconds = 0 then 0 else (seconds * secondMicros + z.micro : Nat)
    if (dayMicros : Int) ≤ micros then none
    some (clock, some (if sign == '-' then -micros else micros))

/-- The time part of a text; a character counts with all its bytes. -/
def timePart (cs : List Char) : List Char := cs.flatMap fun c => List.replicate c.utf8Size c

/-- The moment that an ISO text denotes. -/
def read? (s : String) : Option DateTime := do
  let cs := s.toList
  let length ← dateLength? cs
  let date ← readDate? cs length
  let (clock, offset) ←
    if cs.length ≤ length then some (⟨0, 0, 0, 0⟩, none) else readTime? (timePart (cs.drop (length + 1)))
  let micros ← Fields.micros? ⟨date, clock.hour, clock.minute, clock.second, clock.micro⟩
  DateTime.ofMicros? micros offset

end SignedCall.IsoDate
