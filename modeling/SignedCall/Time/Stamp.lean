import SignedCall.Time.DateTime
import SignedCall.Number.Binary64

/-!
# Time stamps

What requests and policies say about time: seconds since 1970, the stamp with milliseconds that is signed, and the time that
is signed with under a known offset of the local clock.
-/

namespace SignedCall

/-- A span of microseconds in seconds, as a double precision number. -/
def secondsOf (micros : Int) : Binary64 := Binary64.ofQuotient micros secondMicros

/-- The whole seconds of a span of microseconds: the span in seconds, cut toward zero. -/
def wholeSeconds (micros : Int) : Int := (secondsOf micros).truncate?.getD 0

/-- Whole seconds since the start of 1970. -/
def Instant.epochSeconds (t : Instant) : Int := wholeSeconds (t.micros - epochMicros)

/-- The stamp of an instant: date and time to the millisecond, in universal time. The year has no leading zeros. -/
def Instant.stamp (t : Instant) : String :=
  let f := Fields.ofMicros t.micros
  toString f.date.year ++ "-" ++ padded 2 f.date.month ++ "-" ++ padded 2 f.date.day ++ "T" ++ padded 2 f.hour ++ ":" ++
    padded 2 f.minute ++ ":" ++ padded 2 f.second ++ "." ++ padded 3 (f.micro / 1000) ++ "Z"

/-- The time to sign with, `offset` being the seconds that the local clock is ahead; none if it is outside the calendar. -/
def signingTime? (now : Instant) (offset : Int) : Option Instant := now.add? (-(offset * secondMicros))

/-- The whole seconds that the local clock is ahead of the server. -/
def timeOffset (server now : Instant) : Int := wholeSeconds (now.micros - server.micros)

end SignedCall
