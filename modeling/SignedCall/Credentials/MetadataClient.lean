import SignedCall.Credentials.MetadataConfig
import SignedCall.Credentials.Resolver

/-!
# The instance metadata service

Reading metadata of the machine. Every request carries a session token, which is fetched when there is none or when it has expired,
and given up when the service rejects it.
-/

namespace SignedCall

/-- A session token: its value, its lifetime in seconds, and when it was made. -/
structure SessionToken where
  value : String
  lifetime : Int
  created : Instant
  deriving DecidableEq, Repr

/-- Whether a token has expired. -/
def SessionToken.isExpired (t : SessionToken) (now : Instant) : Bool :=
  t.lifetime * secondMicros ≤ (now.micros : Int) - t.created.micros

/-- Reads metadata: the settings, where the token is kept, and the lock under which it is fetched. -/
structure MetadataClient (σ : Type) where
  host : Host σ
  config : MetadataConfig
  slot : Slot σ (Option SessionToken)
  lock : LockId

namespace MetadataClient

variable {σ : Type}

/-- The path where tokens are made. -/
def tokenPath : String := "/latest/api/token"

/-- The header field with the lifetime of a token that is asked for. -/
def lifetimeHeader : String := "x-aws-ec2-metadata-token-ttl-seconds"

/-- The header field with the token. -/
def tokenHeader : String := "x-aws-ec2-metadata-token"

/-- The token that is kept, if it has not expired. -/
def validToken? (client : MetadataClient σ) : Program σ (Option SessionToken) :=
  Program.read fun s => (client.slot.get s).filter fun t => !t.isExpired (client.host.now s)

/-- Forgets the token. -/
def invalidate (client : MetadataClient σ) : Program σ Unit := Program.put client.slot none

/-- A request with one header field more than those that say who sends it. -/
def request (client : MetadataClient σ) (method path header value : String) : Program σ Request :=
  Program.ofExcept <| ((client.config.request method path).mapError Url.Fault.failure).map fun b =>
    (b.setHeader header value).build

/-- The text of a body. -/
def textOf (body : Bytes) : Except Failure String :=
  (Text.Utf8.decode body).mapError fun fault => Failure.inner .decoding fault.message

/-- The failure to get a token. -/
def noToken (status : Int) : Failure :=
  Failure.service ("Failed to fetch an IMDS session token: " ++ toString status) status

/-- Fetches a token and keeps it. -/
def fetchToken (client : MetadataClient σ) : Program σ Unit := do
  let request ← client.request "PUT" tokenPath lifetimeHeader (toString client.config.tokenLifetime)
  let r ← client.host.send request
  if r.status ≠ 200 then
    throw (noToken r.status)
  let value ← Program.ofExcept (textOf r.body)
  let now ← Program.read client.host.now
  Program.put client.slot (some { value, lifetime := client.config.tokenLifetime, created := now })

/-- Fetches a token, unless one is kept that has not expired. -/
def renewToken (client : MetadataClient σ) : Program σ Unit := do
  if (← client.validToken?).isNone then client.fetchToken

/-- Waits for the lock and fetches a token, unless somebody else has done so in the meantime. -/
def refreshToken (client : MetadataClient σ) : Program σ Unit := Program.withLock client.lock client.renewToken

/-- The failure to find a token after a refresh. -/
def noTokenKept : Failure := Failure.inner (.other "AssertionError") ""

/-- The token where one should be. -/
def found : Option SessionToken → Except Failure SessionToken
  | some t => .ok t
  | none => .error noTokenKept

/-- The token that is kept, after a refresh if there is none or it has expired. -/
def tokenAfter (client : MetadataClient σ) (refresh : Program σ Unit) : Program σ SessionToken := do
  if (← client.validToken?).isNone then
    refresh
  Program.ofExcept (found (← Program.read client.slot.get))

/-- The token for a request. -/
def token (client : MetadataClient σ) : Program σ SessionToken := client.tokenAfter client.refreshToken

/-- The failure of a request whose token was rejected. -/
def tokenRejected : Failure :=
  Failure.service "IMDS rejected the session token." 401 { Failure.CallInfo.unknown with isRetrySafe := some (some true) }

/-- The failure of a request for a path. -/
def notServed (status : Int) (path : String) : Failure :=
  Failure.service ("IMDS returned " ++ toString status ++ " for " ++ path) status

/-- One attempt to read a path. -/
def readOnce (client : MetadataClient σ) (path : String) : Program σ String := do
  let token ← client.token
  let request ← client.request "GET" path tokenHeader token.value
  let r ← client.host.send request
  if r.status = 401 then
    client.invalidate
    throw tokenRejected
  if r.status ≠ 200 then
    throw (notServed r.status path)
  Program.ofExcept (textOf r.body)

/-- What comes after a failed attempt: another one, if there may be one and the policy grants it. -/
def afterFailure (client : MetadataClient σ) (again : Option (RetryToken → Program σ String)) (token : RetryToken) (f : Failure) :
    Program σ String := do
  let draws ← Program.read client.host.draws.get
  match client.config.policy.renew token (some f) draws, again with
  | .ok (token, draws), some again => do
    Program.put client.host.draws draws
    again token
  | .error (.noDelay fault), _ => throw fault.failure
  | _, _ => throw f

/-- An attempt to read a path after the delay in front of it, and what comes after it if it fails. -/
def readAfterDelay (client : MetadataClient σ) (path : String) (again : Option (RetryToken → Program σ String))
    (token : RetryToken) : Program σ String := do
  unless token.delay.isZero do
    client.host.sleep token.delay
  match ← (client.readOnce path).attempt with
  | .ok text => return text
  | .error f => client.afterFailure again token f

/-- Attempts to read a path, with a number of retries left. A token is renewed only while retries are left, so that the last
attempt is never followed by another. -/
def readFrom (client : MetadataClient σ) (path : String) : Nat → RetryToken → Program σ String
  | 0, token => client.readAfterDelay path none token
  | left + 1, token => client.readAfterDelay path (some (client.readFrom path left)) token

/-- Reads a path. -/
def read (client : MetadataClient σ) (path : String) : Program σ String :=
  client.readFrom path client.config.policy.retries {}

end MetadataClient

end SignedCall
