import SignedCall.Credentials.Document
import SignedCall.Credentials.MetadataConfig
import SignedCall.Credentials.Refreshing
import SignedCall.Http.Address
import SignedCall.Ini
import SignedCall.Json.Reader

/-!
# Credentials of a container

Credentials from a metadata service that the environment names. Requests go to the machine itself or to one of a few hosts, and
nowhere else: whoever can set the variable must not learn the token that goes along.
-/

namespace SignedCall

/-- How often a request is tried, in what time, and how long to wait in between. -/
structure ContainerConfig where
  timeout : Option Number := some (.whole 2)
  retries : Int := 3
  retryDelay : Number := .whole 1

namespace Container

/-- The host that a path alone refers to. -/
def defaultHost : String := "169.254.170.2"

/-- The hosts that may be asked besides the machine itself, in order. -/
def allowedHosts : List String := ["169.254.170.2", "169.254.170.23", "fd00:ec2::23", "localhost"]

/-- Whether a host is an address of the machine itself. -/
def isLoopback (host : String) : Bool :=
  match Address.ofText? host with
  | some address => address.isLoopback
  | none => false

/-- Whether a host may be asked. -/
def isAllowed (host : String) : Bool := isLoopback host || allowedHosts.contains host

/-- The failure to ask a host that may not be asked. -/
def unsupportedHost (host : String) : Failure := noCredentials <|
  "Unsupported host '" ++ host ++ "'. Can only retrieve metadata from a loopback address or one of: " ++
    ", ".intercalate allowedHosts

/-- The document of a response. -/
def document (r : Response) : Except Failure Json :=
  if r.status ≠ 200 then do
    let body ← (Text.Utf8.decode r.body).mapError fun fault => Failure.inner .decoding fault.message
    throw (noCredentials ("Container metadata service returned " ++ toString r.status ++ ": " ++ body))
  else
    let unparsable (cause : Failure) : Failure := Failure.causedBy .credentials
      ("Unable to parse JSON from container metadata: " ++ Text.Utf8.decodeLossy r.body) cause
    match Text.Utf8.decode r.body with
    | .error fault => .error (unparsable (Failure.inner .decoding fault.message))
    | .ok body =>
      match Json.read? body with
      | some j => .ok j
      | none => .error (unparsable (Failure.inner .json "Expecting value"))

/-- The failure of all attempts. -/
def exhausted (config : ContainerConfig) (last : Option Failure) : Failure :=
  { noCredentials ("Failed to retrieve container metadata after " ++ toString config.retries ++ " attempt(s)") with cause := last }

variable {σ : Type}

/-- Asks for a document at most a number of times, after a failure of the last attempt. -/
def askUpTo (host : Host σ) (config : ContainerConfig) (request : Request) : Nat → Option Failure → Program σ Json
  | 0, last => throw (exhausted config last)
  | n + 1, _ => do
    let answer ← (do Program.ofExcept (document (← host.sendWithin config.timeout request)) : Program σ Json).attempt
    match answer with
    | .ok j => return j
    | .error f => do
      unless n = 0 do
        host.sleep config.retryDelay.toBinary64
      askUpTo host config request n (some f)

/-- Asks a host that may be asked for a document. -/
def ask (host : Host σ) (config : ContainerConfig) (request : Request) : Program σ Json := do
  unless isAllowed request.host do
    throw (unsupportedHost request.host)
  askUpTo host config (request.toBuilder.setHeader "Accept" "application/json").build config.retries.toNat none

/-- The variable with a path on the default host. -/
def pathVariable : String := "AWS_CONTAINER_CREDENTIALS_RELATIVE_URI"

/-- The variable with a URL. -/
def urlVariable : String := "AWS_CONTAINER_CREDENTIALS_FULL_URI"

/-- The variable with the token that goes along. -/
def tokenVariable : String := "AWS_CONTAINER_AUTHORIZATION_TOKEN"

/-- The variable with the file that holds the token. -/
def tokenFileVariable : String := "AWS_CONTAINER_AUTHORIZATION_TOKEN_FILE"

/-- The request that the environment names. -/
def requestOf (environment : FieldMap String) : Except Failure RequestBuilder :=
  match environment.get? pathVariable, environment.get? urlVariable with
  | some path, _ => .ok { scheme := "http", host := defaultHost, path }
  | none, some url =>
    (RequestBuilder.ofUrl url "GET").mapError fun fault =>
      Failure.causedBy .credentials ("Invalid " ++ urlVariable ++ ": " ++ url) fault.failure
  | none, none => .error <| noCredentials <|
    "Neither " ++ pathVariable ++ " or " ++ urlVariable ++ " environment variables are set. Unable to resolve credentials."

/-- The token in a file. -/
def tokenIn (files : Files) (name : String) : Except Failure String :=
  match files.statusOfText name with
  | .file content =>
    match Text.Utf8.decode content with
    | .ok s => .ok (Text.strip (String.ofList (Ini.plainLineEnds s.toList)))
    | .error fault => .error <| Failure.causedBy .credentials ("Unable to read valid utf-8 bytes from " ++ name ++ ".")
      (Failure.inner .decoding fault.message)
  | .missing => .error <| Failure.causedBy .credentials ("Unable to open " ++ name ++ ".")
    (Failure.inner .fileNotFound ("[Errno 2] No such file or directory: " ++ Text.quoted name))
  | .directory => .error (Failure.inner .isADirectory ("[Errno 21] Is a directory: " ++ Text.quoted name))
  | .behindFile => .error (Failure.inner .notADirectory ("[Errno 20] Not a directory: " ++ Text.quoted name))

/-- The token that the environment gives or names a file for. -/
def token (host : Host σ) (environment : FieldMap String) : Program σ (Option String) :=
  match environment.get? tokenFileVariable with
  | some name => some <$> Program.onThread fun s => tokenIn (host.files s) name
  | none => pure (environment.get? tokenVariable)

/-- A request with the token that goes along, if there is one. -/
def authorized (b : RequestBuilder) : Option String → RequestBuilder
  | some token => b.setHeader "Authorization" token
  | none => b

/-- Fetches the credentials that the environment leads to. -/
def fetch (host : Host σ) (config : ContainerConfig) : Program σ Identity := do
  let environment ← Program.read host.environment
  let b ← Program.ofExcept (requestOf environment)
  let token ← token host environment
  let j ← ask host config (authorized b token).build
  let c ← Program.ofExcept ((CredentialsDocument.read j "container").mapError DocumentFault.failure)
  return .credentials c

end Container

/-- What keeps the credentials of a container. -/
def Refreshing.ofContainer {σ : Type} (host : Host σ) (config : ContainerConfig) (slot : Slot σ RefreshState) (lock : LockId)
    (prefetches : Bool) : Refreshing σ :=
  { slot, lock, now := host.now, fetch := Container.fetch host config, prefetches }

/-- Gives the credentials of a container. -/
def Resolver.ofContainer {σ : Type} (host : Host σ) (config : ContainerConfig) (slot : Slot σ RefreshState) (lock : LockId)
    (prefetches : Bool) : Resolver σ :=
  (Refreshing.ofContainer host config slot lock prefetches).resolver "ContainerCredentialsResolver"

end SignedCall
