import SignedCall.Time.DateTime
import SignedCall.Text.Case
import SignedCall.Text.Digit
import SignedCall.Text.Split

/-!
# Reading mail dates

The dates of message headers, read leniently: an optional name of the day, then day, month and year in the orders seen in
practice, a time, and a zone by name or by number. What cannot be read at all is no date; numbers too large for a date to be
made of them are an overflow.
-/

namespace SignedCall.MailDate

/-- The names of days that may stand before a date. -/
def dayNames : List (List Char) :=
  ["mon", "tue", "wed", "thu", "fri", "sat", "sun"].map String.toList

/-- The short and the long names of the months, in order. -/
def monthNames : List (List Char) :=
  ["jan", "feb", "mar", "apr", "may", "jun", "jul", "aug", "sep", "oct", "nov", "dec", "january", "february", "march", "april",
   "may", "june", "july", "august", "september", "october", "november", "december"].map String.toList

/-- The zones known by name, each with hours and minutes from universal time as the digits of one number. -/
def zones : List (List Char × Int) :=
  [("UT", 0), ("UTC", 0), ("GMT", 0), ("Z", 0), ("AST", -400), ("ADT", -300), ("EST", -500), ("EDT", -400), ("CST", -600),
   ("CDT", -500), ("MST", -700), ("MDT", -600), ("PST", -800), ("PDT", -700)].map fun (name, n) => (name.toList, n)

/-- The capital form of a character, where it consists of ASCII characters; other characters stay as they are. -/
def capital (c : Char) : List Char :=
  if 'a' ≤ c && c ≤ 'z' then [Char.ofNat (c.toNat - 32)]
  else match c with
    | 'ß' => ['S', 'S']
    | 'ı' => ['I']
    | 'ſ' => ['S']
    | '\ufb00' => ['F', 'F']
    | '\ufb01' => ['F', 'I']
    | '\ufb02' => ['F', 'L']
    | '\ufb03' => ['F', 'F', 'I']
    | '\ufb04' => ['F', 'F', 'L']
    | '\ufb05' => ['S', 'T']
    | '\ufb06' => ['S', 'T']
    | _ => [c]

/-- The number of a month, counted from one. -/
def month? (name : List Char) : Option Nat :=
  (monthNames.findIdx? (· == name)).map fun i => if 12 ≤ i then i - 11 else i + 1

/-- The lower-case form of a word. -/
def lowered (cs : List Char) : List Char := Text.lowerFrom [] cs

/-- Removes the comma at the end of a word. -/
def dropComma (cs : List Char) : List Char :=
  if cs.getLast? == some ',' then cs.dropLast else cs

/-- The words after the name of the day. -/
def dropDayName : List (List Char) → List (List Char)
  | [] => []
  | word :: rest =>
    if word.getLast? == some ',' || dayNames.contains (lowered word) then rest
    else (Text.cutAtLast ',' word).2 :: rest

/-- Splits a date whose parts are joined by dashes. -/
def splitDashes : List (List Char) → List (List Char)
  | [date, time, zone] =>
    let parts := Text.splitOnChar '-' date
    if parts.length = 3 then parts ++ [time, zone] else [date, time, zone]
  | ws => ws

/-- Splits the zone off a time that it follows without a blank; without a zone an empty one is added. -/
def splitZone : List (List Char) → List (List Char)
  | [a, b, c, time] =>
    let before := time.takeWhile (· != '+')
    let before := if before.length = time.length then time.takeWhile (· != '-') else before
    if before.isEmpty || before.length = time.length then [a, b, c, time, []]
    else [a, b, c, before, time.drop before.length]
  | ws => ws

/-- Hour, minute and second as written. -/
def timeParts? (time : List Char) : Option (List Char × List Char × List Char) :=
  match Text.splitOnChar ':' time with
  | [h, m] => some (h, m, ['0'])
  | [h, m, s] => some (h, m, s)
  | [whole] => match Text.splitOnChar '.' whole with
    | [h, m] => some (h, m, ['0'])
    | [h, m, s] => some (h, m, s)
    | _ => none
  | _ => none

/-- The numbers of a mail date; the zone is hours and minutes as the digits of one number, none where it is not known. -/
structure Parts where
  year : Int
  month : Nat
  day : Int
  hour : Int
  minute : Int
  second : Int
  zone : Option Int
  deriving DecidableEq, Repr

/-- The number a zone is given by; a negative zero says that the zone is not known. -/
def zone? (word : List Char) : Option Int :=
  let word := word.flatMap capital
  match zones.lookup word with
  | some n => some n
  | none => match Text.readInt? (String.ofList word) with
    | some n => if n = 0 ∧ word.head? = some '-' then none else some n
    | none => none

/-- Years below a hundred are taken from 1969 to 2068. -/
def fullYear (y : Int) : Int :=
  if y < 100 then (if 68 < y then y + 1900 else y + 2000) else y

/-- The parts of a date from its five words: day, month, year, time and zone, of which month and day, year and time, and
year and zone may have changed places. -/
def readWords? : List (List Char) → Option Parts
  | [dd, mm, yy, tm, tz] => do
    if dd.isEmpty || mm.isEmpty || yy.isEmpty then none
    let (dd, month) ← match month? (lowered mm) with
      | some month => some (dd, month)
      | none => (month? (lowered dd)).map fun month => (lowered mm, month)
    let dd := dropComma dd
    let (yy, tm) := if 0 < (yy.takeWhile (· != ':')).length && yy.contains ':' then (tm, yy) else (yy, tm)
    let yy := dropComma yy
    let first ← yy.head?
    let (yy, tz) := if Text.isDigitLike first then (yy, tz) else (tz, yy)
    let (hh, mi, ss) ← timeParts? (dropComma tm)
    let number? (cs : List Char) : Option Int := Text.readInt? (String.ofList cs)
    let year ← number? yy
    let day ← number? dd
    let hour ← number? hh
    let minute ← number? mi
    let second ← number? ss
    some ⟨fullYear year, month, day, hour, minute, second, zone? tz⟩
  | _ => none

/-- The parts of a date. -/
def readParts? (s : String) : Option Parts :=
  let ws := splitZone (splitDashes (dropDayName (Text.words s.toList)))
  readWords? (ws.take 5)

/-- The distance from universal time, in seconds, of a zone given by hours and minutes. -/
def zoneSeconds (n : Int) : Int :=
  let a := n.natAbs
  let seconds : Int := (a / 100 * 3600 + a % 100 * 60 : Nat)
  if n < 0 then -seconds else seconds

/-- The greatest number of days that a span of time may have. -/
def maxSpanDays : Int := 999999999

/-- Whether a number is too large for a field of a date. -/
def tooLarge (n : Int) : Bool := n < -2147483648 || 2147483647 < n

/-- What a date comes to. -/
inductive Reading where
  | instant (t : Instant)
  | unusable
  | overflow
  deriving DecidableEq, Repr

/-- The fields of the parts, where they are natural numbers. -/
def Parts.fields? (p : Parts) : Option Fields :=
  if p.year < 0 || p.day < 0 || p.hour < 0 || p.minute < 0 || p.second < 0 then none
  else some ⟨⟨p.year.toNat, p.month, p.day.toNat⟩, p.hour.toNat, p.minute.toNat, p.second.toNat, 0⟩

/-- The instant that the parts denote, where the zone is `zone` seconds ahead of universal time. -/
def Parts.reading (p : Parts) (zone : Int) : Reading :=
  if [p.year, p.day, p.hour, p.minute, p.second].any tooLarge then .overflow
  else match p.fields?.bind Fields.micros? with
    | none => .unusable
    | some micros => match Instant.ofMicros? (micros - zone * secondMicros) with
      | some t => .instant t
      | none => .overflow

/-- The instant of a mail date. -/
def read (s : String) : Reading :=
  match readParts? s with
  | none => .unusable
  | some p =>
    let zone := (p.zone.map zoneSeconds).getD 0
    if zone / 86400 < -maxSpanDays || maxSpanDays < zone / 86400 then .overflow
    else if zone ≤ -86400 || 86400 ≤ zone then .unusable
    else p.reading zone

end SignedCall.MailDate
