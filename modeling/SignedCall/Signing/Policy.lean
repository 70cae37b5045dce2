import SignedCall.Failure
import SignedCall.Time.Stamp
import SignedCall.Text.Quoted

/-!
# Access policies

The documents that say until when, from when and from where a resource may be fetched. They are written with the resource and the
range of addresses as they are; a resource with a quotation mark or a backslash is refused.
-/

namespace SignedCall

/-- Why no policy can be written. -/
inductive PolicyFault where
  | noResource
  | unquotable (resource : String)
  | noExpiration
  | noCustomExpiration
  | timeOutOfRange
  deriving DecidableEq, Repr

/-- The failure of a call for the sake of a fault. -/
def PolicyFault.failure : PolicyFault → Failure
  | .noResource => Failure.stated .configuration "A resource URL or path is required."
  | .unquotable resource => Failure.stated .configuration <|
    "Resource " ++ Text.quoted resource ++ " must not contain double quotes or backslashes."
  | .noExpiration => Failure.stated .configuration "An expiration time is required."
  | .noCustomExpiration =>
    Failure.stated .configuration "epoch_date_less_than must be provided to sign CloudFront URLs."
  | .timeOutOfRange => Failure.inner .overflow "date value out of range"

/-- The restrictions of a custom policy; what is not given is not restricted. -/
structure CustomPolicy where
  resource : Option String
  expiration : Option DateTime
  activation : Option DateTime
  ipRange : Option String
  deriving DecidableEq, Repr

namespace Policy

/-- Any resource of the distribution. -/
def anyResource : String := "*"

/-- Any address. -/
def anyAddress : String := "0.0.0.0/0"

/-- Checks that a resource has no quotation mark and no backslash. -/
def checkResource (resource : String) : Except PolicyFault Unit :=
  if resource.toList.any (fun c => c == '"' || c == '\\') then .error (.unquotable resource) else .ok ()

/-- Whole seconds since 1970 of a date and time. -/
def epochSeconds (d : DateTime) : Except PolicyFault Int :=
  match d.utc? with
  | some t => .ok t.epochSeconds
  | none => .error .timeOutOfRange

/-- The policy that only says until when a resource may be fetched. -/
def canned (resource : String) (expiration : Option DateTime) : Except PolicyFault String := do
  if resource = "" then throw .noResource
  checkResource resource
  match expiration with
  | none => throw .noExpiration
  | some expiration =>
    let seconds ← epochSeconds expiration
    return "\x7b\"Statement\":[\x7b\"Resource\":\"" ++ resource ++
      "\",\"Condition\":\x7b\"DateLessThan\":\x7b\"AWS:EpochTime\":" ++ toString seconds ++ "\x7d\x7d\x7d]\x7d"

/-- The part of a custom policy that says from when a resource may be fetched. -/
def activationPart : Option DateTime → Except PolicyFault String
  | none => .ok ""
  | some activation => do
    let seconds ← epochSeconds activation
    return ",\"DateGreaterThan\":\x7b\"AWS:EpochTime\":" ++ toString seconds ++ "\x7d"

/-- The policy with all restrictions. -/
def custom (p : CustomPolicy) : Except PolicyFault String := do
  match p.expiration with
  | none => throw .noCustomExpiration
  | some expiration =>
    let resource := p.resource.getD anyResource
    checkResource resource
    let seconds ← epochSeconds expiration
    let activation ← activationPart p.activation
    return "\x7b\"Statement\": [\x7b\"Resource\":\"" ++ resource ++
      "\",\"Condition\":\x7b\"DateLessThan\":\x7b\"AWS:EpochTime\":" ++ toString seconds ++
      "\x7d,\"IpAddress\":\x7b\"AWS:SourceIp\":\"" ++ p.ipRange.getD anyAddress ++ "\"\x7d" ++ activation ++ "\x7d\x7d]\x7d"

end Policy

end SignedCall
