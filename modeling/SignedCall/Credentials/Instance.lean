import SignedCall.Credentials.Document
import SignedCall.Credentials.MetadataClient
import SignedCall.Credentials.Refreshing
import SignedCall.Json.Reader

/-!
# Credentials of an instance

Credentials of the profile that the machine runs under, from the instance metadata service.
-/

namespace SignedCall

namespace Instance

/-- The variable that turns the service off. -/
def disabledVariable : String := "AWS_EC2_METADATA_DISABLED"

/-- The path with the name of the profile, below which its credentials are found. -/
def basePath : String := "/latest/meta-data/iam/security-credentials"

/-- The failure to ask a service that is turned off. -/
def disabled : Failure := noCredentials ("Instance metadata access is disabled by " ++ disabledVariable ++ ".")

/-- Whether an environment turns the service off. -/
def isDisabled (environment : FieldMap String) : Bool :=
  Text.lower ((environment.get? disabledVariable).getD "") = "true"

/-- The failure to read metadata: an answer that is an error, or trouble of the operating system, means that there are no
credentials; anything else is passed on. -/
def unloadable (f : Failure) : Failure :=
  if f.kind = .service || f.kind.isSystem then
    Failure.causedBy .credentials ("Unable to load credentials from instance metadata: " ++ f.text) f
  else f

/-- The failure to read a document. -/
def unparsable : Failure :=
  Failure.causedBy .credentials "Unable to parse JSON from instance metadata credentials." (Failure.inner .json "Expecting value")

variable {σ : Type}

/-- Reads the document with the credentials. -/
def readDocument (client : MetadataClient σ) : Program σ String := do
  let profile ← match client.config.profileName with
    | some profile => pure profile
    | none => Text.strip <$> client.read basePath
  client.read (basePath ++ "/" ++ profile)

/-- Fetches the credentials of the machine. -/
def fetch (client : MetadataClient σ) : Program σ Identity := do
  if isDisabled (← Program.read client.host.environment) then
    throw disabled
  match ← (readDocument client).attempt with
  | .error f => throw (unloadable f)
  | .ok text =>
    match Json.read? text with
    | none => throw unparsable
    | some j =>
      let c ← Program.ofExcept ((CredentialsDocument.read j "instance metadata").mapError DocumentFault.failure)
      return .credentials c

end Instance

/-- What keeps the credentials of a machine. -/
def Refreshing.ofInstance {σ : Type} (client : MetadataClient σ) (slot : Slot σ RefreshState) (lock : LockId)
    (prefetches : Bool) : Refreshing σ :=
  { slot, lock, now := client.host.now, fetch := Instance.fetch client, prefetches }

/-- Gives the credentials of a machine. -/
def Resolver.ofInstance {σ : Type} (client : MetadataClient σ) (slot : Slot σ RefreshState) (lock : LockId) (prefetches : Bool) :
    Resolver σ :=
  (Refreshing.ofInstance client slot lock prefetches).resolver "IMDSCredentialsResolver"

end SignedCall
