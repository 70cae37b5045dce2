import SignedCall.Http.Response
import SignedCall.Number.Reading
import SignedCall.Retry.Classification
import SignedCall.Time.MailDate

/-!
# Error responses

What an error response says: its status, the error code and the clock of the service, and how long to wait.
-/

namespace SignedCall.ServiceReply

/-- The header field with the error code. -/
def codeHeader : String := "x-amzn-ErrorType"

/-- The header field with the time of the service. -/
def dateHeader : String := "Date"

/-- The header field with the time to wait. -/
def retryAfterHeader : String := "Retry-After"

/-- The seconds to wait that a header field gives; anything but a number that is not negative is passed over. -/
def retryAfter? (value : Option String) : Option Binary64 := do
  let x ← Binary64.ofText? (← value)
  if x.isNonneg then some x else none

/-- The instant that a date header gives, none if it is unusable. A date of the calendar whose instant is outside it is a
failure. -/
def date? (value : Option String) : Except Failure (Option Instant) :=
  match value with
  | none => .ok none
  | some "" => .ok none
  | some text =>
    match MailDate.read text with
    | .instant t => .ok (some t)
    | .unusable => .ok none
    | .overflow => .error (Failure.inner .overflow "date value out of range")

/-- The error code of a header field: what stands before the first colon, without blanks, if it is not empty. -/
def errorCode? (value : Option String) : Option String := do
  let code := String.ofList (Text.trim (Text.cutAt ':' (← value).toList).1)
  if code = "" then none else some code

/-- The text of an error response. -/
def describe (r : Response) (code : Option String) : String :=
  "Service returned " ++ toString r.status ++
    (match r.reason with | some reason => if reason = "" then "" else " " ++ reason | none => "") ++
    (match code with | some code => " (" ++ code ++ ")" | none => "") ++
    (if r.body.isEmpty then "" else ": " ++ Text.Utf8.decodeLossy r.body)

/-- The failure that an error response stands for. -/
def failure (r : Response) : Except Failure Failure := do
  let code := errorCode? (r.header? codeHeader)
  let time ← date? (r.header? dateHeader)
  let f := Failure.service (describe r code) r.status
    { Failure.CallInfo.unknown with
      errorCode := code
      serverTime := time.map Instant.toDateTime
      retryAfter := some (retryAfter? (r.header? retryAfterHeader)) }
  return { f with info := { f.info with isThrottling := some (Retry.isThrottling (some f) none) } }

end SignedCall.ServiceReply
