import SignedCall.Failure
import SignedCall.Identity
import SignedCall.Time.IsoDate

/-!
# Credential documents

The documents by which metadata services hand out credentials.
-/

namespace SignedCall

/-- Why a document holds no credentials. -/
inductive DocumentFault where
  | notAnObject (typeName : String)
  | missingKeys (source : String)
  | badExpiration (source text : String)
  | expirationType (typeName : String)
  | expirationOutOfRange
  deriving DecidableEq, Repr

/-- The failure of a call for the sake of a fault. -/
def DocumentFault.failure : DocumentFault → Failure
  | .notAnObject typeName => Failure.inner .attribute ("'" ++ typeName ++ "' object has no attribute 'get'")
  | .missingKeys source => Failure.stated .credentials <|
    "AccessKeyId and SecretAccessKey are required for " ++ source ++ " credentials"
  | .badExpiration source text =>
    Failure.causedBy .credentials ("Invalid Expiration in " ++ source ++ " credentials: " ++ text)
      (Failure.inner .value ("Invalid isoformat string: " ++ Text.quoted text))
  | .expirationType typeName => Failure.inner .attribute ("'" ++ typeName ++ "' object has no attribute 'tzinfo'")
  | .expirationOutOfRange => Failure.inner .overflow "date value out of range"

namespace CredentialsDocument

/-- When the credentials of a document expire, if they do. -/
def expiration? (document : Json) (source : String) : Except DocumentFault (Option Instant) :=
  match document.getD "Expiration" with
  | .null => .ok none
  | .text s =>
    match IsoDate.read? s with
    | none => .error (.badExpiration source s)
    | some d =>
      match d.utc? with
      | some t => .ok (some t)
      | none => .error .expirationOutOfRange
  | j => .error (.expirationType j.typeName)

/-- The credentials of a document; `source` says where it comes from. -/
def read (document : Json) (source : String) : Except DocumentFault Credentials :=
  match document with
  | .object _ =>
    if (document.getD "AccessKeyId").isNull || (document.getD "SecretAccessKey").isNull then .error (.missingKeys source)
    else do
      let expiration ← expiration? document source
      return {
        accessKeyId := document.getD "AccessKeyId"
        secretAccessKey := document.getD "SecretAccessKey"
        sessionToken := document.getD "Token"
        expiration
        accountId := document.getD "AccountId" }
  | j => .error (.notAnObject j.typeName)

end CredentialsDocument

end SignedCall
