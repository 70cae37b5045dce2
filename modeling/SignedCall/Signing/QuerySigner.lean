import SignedCall.Identity
import SignedCall.Signing.Canonical
import SignedCall.Signing.Key
import SignedCall.Time.Stamp

/-!
# Signed queries

Signing a request in its query: the parameters that say who signs, when and how, and the keyed hash of the canonical form of
the request with these parameters.
-/

namespace SignedCall

/-- Why a request cannot be signed. -/
inductive QuerySigningFault where
  | wrongIdentity (typeText : String)
  | keyNotText
  | timeOutOfRange
  | unusableKey (fault : SigningFault)
  deriving DecidableEq, Repr

/-- The failure of a call for the sake of a fault. -/
def QuerySigningFault.failure : QuerySigningFault → Failure
  | .wrongIdentity typeText => Failure.stated .value <|
    "Received unexpected value for identity parameter. Expected AWSCredentialIdentity but received " ++ typeText ++ "."
  | .keyNotText => Failure.inner .attribute "'NoneType' object has no attribute 'strip'"
  | .timeOutOfRange => Failure.inner .overflow "date value out of range"
  | .unusableKey fault => Failure.causedBy .client ("Unable to calculate a request signature: " ++ fault.message) fault.failure

namespace QuerySigner

/-- The parameter with the key of the signer. -/
def keyParameter : String := "AWSAccessKeyId"

/-- The parameter with the version of the scheme. -/
def versionParameter : String := "SignatureVersion"

/-- The parameter with the time of the signature. -/
def timeParameter : String := "Timestamp"

/-- The parameter with the session token, if there is one. -/
def tokenParameter : String := "SecurityToken"

/-- The parameter with the name of the keyed hash. -/
def methodParameter : String := "SignatureMethod"

/-- The parameter with the signature itself. -/
def signatureParameter : String := "Signature"

/-- The version of the scheme. -/
def version : String := "2"

/-- The keyed hash that requests are signed with. -/
def algorithm : Digest.Algorithm := .sha256

/-- The builder of a request with the parameters that are signed along with it. -/
def prepare (request : Request) (parts : Credentials.Stripped) (time : Instant) : RequestBuilder :=
  let b := request.toBuilder
  let b := b.setParameter keyParameter [parts.accessKeyId]
  let b := b.setParameter versionParameter [version]
  let b := b.setParameter timeParameter [time.stamp]
  let b := match parts.sessionToken with
    | some token => if token = "" then b else b.setParameter tokenParameter [token]
    | none => b
  b.setParameter methodParameter [algorithm.keyedName]

/-- The request signed with stripped credentials at a time. -/
def signAt (request : Request) (parts : Credentials.Stripped) (time : Instant) : Except SigningFault Request := do
  let b := prepare request parts time
  let data := Text.Utf8.encode b.build.canonical
  let signature ← Signing.keyedHashText (.text parts.secretAccessKey) algorithm data
  return (b.setParameter signatureParameter [signature]).build

/-- The request signed for an identity, the local clock reading `now` and being `offset` seconds ahead. A request for nobody
in particular stays as it is. -/
def sign (now : Instant) (offset : Int) (identity : Identity) (request : Request) : Except QuerySigningFault Request :=
  if identity.isAnonymous then .ok request
  else match identity with
    | .anonymous _ => .ok request
    | .foreign typeText _ => .error (.wrongIdentity typeText)
    | .credentials c =>
      match c.strip?, signingTime? now offset with
      | none, _ => .error .keyNotText
      | _, none => .error .timeOutOfRange
      | some parts, some time => (signAt request parts time).mapError .unusableKey

end QuerySigner

end SignedCall
