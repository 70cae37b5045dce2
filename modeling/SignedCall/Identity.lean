import SignedCall.Json.Inspect
import SignedCall.Time.DateTime
import SignedCall.FieldMap
import SignedCall.Text.Blank

/-!
# Identities

Who a request is made for: credentials with a key and a secret, nobody in particular, or something else that no request can be
signed with. The parts of credentials that come from documents are kept as the documents give them, texts or not.
-/

namespace SignedCall

/-- A key and a secret, with what belongs to them. -/
structure Credentials where
  accessKeyId : Json
  secretAccessKey : Json
  sessionToken : Json := .null
  expiration : Option Instant := none
  accountId : Json := .null
  deriving BEq, Repr, Inhabited

/-- Who a request is made for. -/
inductive Identity where
  | credentials (c : Credentials)
  | anonymous (expiration : Option Instant)
  | foreign (typeText : String) (attributes : FieldMap Json)
  deriving Inhabited

namespace Credentials

/-- Credentials of three texts. -/
def ofTexts (accessKeyId secretAccessKey : String) (sessionToken accountId : Option String) : Credentials :=
  let text? (s : Option String) : Json := match s with | some s => .text s | none => .null
  { accessKeyId := .text accessKeyId, secretAccessKey := .text secretAccessKey, sessionToken := text? sessionToken
    accountId := text? accountId }

/-- The parts that a signature is made with, without the blanks around them. -/
structure Stripped where
  accessKeyId : String
  secretAccessKey : String
  sessionToken : Option String
  deriving DecidableEq, Repr

/-- Strips the parts that a signature is made with; none if one of them is no text. -/
def strip? (c : Credentials) : Option Stripped :=
  match c.accessKeyId, c.secretAccessKey, c.sessionToken with
  | .text key, .text secret, .text token => some ⟨Text.strip key, Text.strip secret, some (Text.strip token)⟩
  | .text key, .text secret, .null => some ⟨Text.strip key, Text.strip secret, none⟩
  | _, _, _ => none

/-- The same credentials with their parts stripped; none if one of them is no text. -/
def sanitized? (c : Credentials) : Option Credentials :=
  c.strip?.map fun s =>
    { c with accessKeyId := .text s.accessKeyId, secretAccessKey := .text s.secretAccessKey
             sessionToken := match s.sessionToken with | some t => .text t | none => .null }

/-- An instant as messages show it; a second and a microsecond of zero are left out. -/
def inspectInstant (t : Instant) : String :=
  let f := SignedCall.Fields.ofMicros t.micros
  let seconds := if f.micro ≠ 0 then [f.second, f.micro] else if f.second ≠ 0 then [f.second] else []
  let parts := [f.date.year, f.date.month, f.date.day, f.hour, f.minute] ++ seconds
  "datetime.datetime(" ++ ", ".intercalate (parts.map toString) ++ ", tzinfo=datetime.timezone.utc)"

/-- Credentials as messages show them: never with the secret or the session token. -/
def inspect (c : Credentials) : String :=
  "AWSCredentialIdentity(access_key_id=" ++ c.accessKeyId.inspect ++ ", expiration=" ++
    (match c.expiration with | some t => inspectInstant t | none => "None") ++ ", account_id=" ++ c.accountId.inspect ++ ")"

end Credentials

namespace Identity

/-- When an identity expires, if it does. -/
def expiration : Identity → Option Instant
  | .credentials c => c.expiration
  | .anonymous expiration => expiration
  | .foreign _ _ => none

/-- Whether an identity asks for requests not to be signed: nobody in particular, or neither a key nor a secret. -/
def isAnonymous : Identity → Bool
  | .anonymous _ => true
  | .credentials c => c.accessKeyId.isNull && c.secretAccessKey.isNull
  | .foreign _ attributes =>
    let isNull (name : String) : Bool := ((attributes.get? name).getD .null).isNull
    isNull "access_key_id" && isNull "secret_access_key"

/-- Whether an identity has expired. -/
def isExpired (now : Instant) (i : Identity) : Bool :=
  match i.expiration with
  | some t => t.micros ≤ now.micros
  | none => false

end Identity

end SignedCall
