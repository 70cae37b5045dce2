import SignedCall.Http.Request
import SignedCall.Json.Inspect
import SignedCall.Retry.Policy

/-!
# Settings of the instance metadata service

Where the service is found, how long its session tokens live and how often a request is tried.
-/

namespace SignedCall

/-- The failure of a call for the sake of a URL. Only the missing host is worded for callers. -/
def Url.Fault.failure : Url.Fault → Failure
  | .noHost url => Failure.stated .value (Url.Fault.noHost url).message
  | fault => Failure.inner .value fault.message

/-- Why settings are refused. -/
inductive MetadataConfigFault where
  | badLifetime
  | badMode (mode : Json)
  deriving Repr

/-- The least lifetime of a token, in seconds. -/
def MetadataConfig.minLifetime : Int := 5

/-- The greatest lifetime of a token, in seconds. -/
def MetadataConfig.maxLifetime : Int := 21600

/-- The failure of a call for the sake of refused settings. -/
def MetadataConfigFault.failure : MetadataConfigFault → Failure
  | .badLifetime => Failure.stated .value <|
    "Token TTL must be between " ++ toString MetadataConfig.minLifetime ++ " and " ++
      toString MetadataConfig.maxLifetime ++ " seconds."
  | .badMode mode => Failure.stated .value ("Invalid endpoint mode " ++ mode.inspect ++ ", expected IPv4 or IPv6.")

/-- The settings of the instance metadata service. -/
structure MetadataConfig where
  policy : RetryPolicy
  endpoint : String
  mode : Json
  tokenLifetime : Int
  profileName : Option String

namespace MetadataConfig

/-- The attempts at a request unless told otherwise: two retries after up to two doublings of a second. -/
def defaultPolicy : RetryPolicy :=
  { retries := 2
    backoff := (BackoffStrategy.exponential .full (.whole 1) (.whole 20) 2).rule }

/-- The address of the service for a mode. -/
def defaultEndpoint? (mode : Json) : Option String :=
  match mode with
  | .text "IPv4" => some "http://169.254.169.254:80"
  | .text "IPv6" => some "http://[fd00:ec2::254]:80"
  | _ => none

/-- The endpoint that is used: the one given, without slashes at its end, or the address for the mode. -/
def resolveEndpoint (endpoint : Option String) (mode : Json) : Except MetadataConfigFault String :=
  match endpoint with
  | some endpoint => .ok (Text.dropRight (· == '/') endpoint)
  | none =>
    match defaultEndpoint? mode with
    | some endpoint => .ok endpoint
    | none => .error (.badMode mode)

/-- Settings, checked. -/
def make (policy : Option RetryPolicy) (endpoint : Option String) (mode : Json) (lifetime : Int)
    (profileName : Option String) : Except MetadataConfigFault MetadataConfig := do
  let endpoint ← resolveEndpoint endpoint mode
  if lifetime < minLifetime || maxLifetime < lifetime then throw .badLifetime
  return { policy := policy.getD defaultPolicy, endpoint, mode, tokenLifetime := lifetime, profileName }

/-- The settings that are used when nothing is told. -/
def standard : MetadataConfig :=
  { policy := defaultPolicy, endpoint := "http://169.254.169.254:80", mode := .text "IPv4", tokenLifetime := maxLifetime
    profileName := none }

/-- What requests say about their sender. -/
def userAgent : String := "aws-sdk-python-imds-client/0.1.0"

/-- A request to a path of the service. -/
def request (c : MetadataConfig) (method path : String) : Except Url.Fault RequestBuilder := do
  let b ← RequestBuilder.ofUrl c.endpoint method
  return { b with path }.setHeader "User-Agent" userAgent

end MetadataConfig

end SignedCall
