import SignedCall.Signing.Key
import SignedCall.Signing.Policy

/-!
# Signed URLs

URLs that carry the signature of a policy. Under a canned policy the URL names the expiration, under a custom one it holds the
policy itself. How policies are signed is a parameter.
-/

namespace SignedCall

/-- How content is served. -/
inductive Protocol where
  | http
  | https
  | rtmp
  deriving DecidableEq, Repr

/-- Why no URL can be signed. -/
inductive SignedUrlFault where
  | policy (fault : PolicyFault)
  | unloadableKey (fault : SigningFault)
  | unusableKey (fault : SigningFault)
  deriving DecidableEq, Repr

/-- The failure of a call for the sake of a fault. -/
def SignedUrlFault.failure : SignedUrlFault → Failure
  | .policy fault => fault.failure
  | .unloadableKey fault =>
    Failure.causedBy .client ("Couldn't load private key for signing url: " ++ fault.message) fault.failure
  | .unusableKey fault => Failure.causedBy .client ("Couldn't sign url: " ++ fault.message) fault.failure

namespace SignedUrl

/-- How the bytes of a policy are signed. -/
abbrev Signer := Bytes → Except SigningFault Bytes

/-- The resource that an object of a distribution is signed as: its URL, or its key alone. -/
def resourcePath (protocol : Protocol) (domain key : String) : String :=
  match protocol with
  | .http => "http://" ++ domain ++ "/" ++ key
  | .https => "https://" ++ domain ++ "/" ++ key
  | .rtmp => key

/-- A URL with parameters added to its query. -/
def appendQuery (resource query : String) : String :=
  resource ++ (if resource.toList.contains '?' then "&" else "?") ++ query

/-- The signature of a policy in a form that is safe in URLs. -/
def signature (sign : Signer) (policy : String) : Except SignedUrlFault String :=
  ((sign (Text.Utf8.encode policy)).map Base64.urlSafe).mapError .unusableKey

/-- The URL of a resource under a canned policy. -/
def canned (sign : Signer) (resource keyPairId : String) (expiration : Option DateTime) : Except SignedUrlFault String := do
  let policy ← (Policy.canned resource expiration).mapError .policy
  let signature ← signature sign policy
  match expiration with
  | none => throw (.policy .noExpiration)
  | some expiration =>
    let seconds ← (Policy.epochSeconds expiration).mapError .policy
    return appendQuery resource ("Expires=" ++ toString seconds ++ "&Signature=" ++ signature ++ "&Key-Pair-Id=" ++ keyPairId)

/-- The URL of a resource under the text of a custom policy. -/
def custom (sign : Signer) (resource keyPairId policy : String) : Except SignedUrlFault String := do
  let signature ← signature sign policy
  return appendQuery resource
    ("Policy=" ++ Base64.urlSafe (Text.Utf8.encode policy) ++ "&Signature=" ++ signature ++ "&Key-Pair-Id=" ++ keyPairId)

/-- An object of a distribution, and how its URL is signed. -/
structure Target where
  protocol : Protocol
  domain : String
  objectKey : String
  keyFile : String
  keyPairId : String
  deriving DecidableEq, Repr

/-- The resource of a target. -/
def Target.resource (t : Target) : String := resourcePath t.protocol t.domain t.objectKey

/-- The key of a target. -/
def Target.loadKey (files : Files) (t : Target) : Except SignedUrlFault RsaKey :=
  (Signing.loadKeyFile files t.keyFile).mapError .unloadableKey

/-- The URL of a target under a canned policy. -/
def cannedForTarget (files : Files) (t : Target) (expiration : Option DateTime) : Except SignedUrlFault String := do
  let key ← t.loadKey files
  canned (Signing.signData key) t.resource t.keyPairId expiration

/-- The URL of a target under a custom policy. -/
def customForTarget (files : Files) (t : Target) (expiration activation : Option DateTime) (ipRange : Option String) :
    Except SignedUrlFault String := do
  let key ← t.loadKey files
  let policy ← (Policy.custom { resource := some t.resource, expiration, activation, ipRange }).mapError .policy
  custom (Signing.signData key) t.resource t.keyPairId policy

end SignedUrl

end SignedCall
