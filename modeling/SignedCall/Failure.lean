import SignedCall.Number.Basic
import SignedCall.Time.DateTime
import SignedCall.Text.Quoted

/-!
# Failures

Why a call did not give a result. A failure has a kind and a text, and may say what it knows about trying again; it may stand
for several failures, have a cause and carry notes.
-/

namespace SignedCall

/-- Who is at fault. -/
inductive Party where
  | client
  | server
  deriving DecidableEq, Repr

/-- The word for a party. -/
def Party.name : Party → String
  | .client => "client"
  | .server => "server"

/-- What kind of failure it is. -/
inductive FailureKind where
  | sdk
  | client
  | configuration
  | signing
  | credentials
  | chain
  | retry
  | call
  | service
  | unanswered
  | general
  | value
  | type
  | runtime
  | overflow
  | attribute
  | key
  | os
  | fileNotFound
  | isADirectory
  | notADirectory
  | permission
  | connection
  | connectionReset
  | connectionRefused
  | connectionAborted
  | brokenPipe
  | timeout
  | decoding
  | json
  | group
  | missingSection
  | duplicateSection
  | duplicateOption
  | parsing
  | other (name : String)
  deriving DecidableEq, Repr

namespace FailureKind

/-- The kinds that have a meaning here, with their names. -/
def named : List (FailureKind × String) :=
  [(.sdk, "SdkError"), (.client, "SdkClientError"), (.configuration, "SdkConfigurationError"), (.signing, "SigningError"),
   (.credentials, "CredentialsError"), (.chain, "CredentialsChainError"), (.retry, "RetryError"), (.call, "CallError"),
   (.service, "ServiceError"), (.unanswered, "MockHTTPClientError"), (.general, "Exception"), (.value, "ValueError"),
   (.type, "TypeError"), (.runtime, "RuntimeError"), (.overflow, "OverflowError"), (.attribute, "AttributeError"),
   (.key, "KeyError"), (.os, "OSError"), (.fileNotFound, "FileNotFoundError"), (.isADirectory, "IsADirectoryError"),
   (.notADirectory, "NotADirectoryError"), (.permission, "PermissionError"), (.connection, "ConnectionError"),
   (.connectionReset, "ConnectionResetError"), (.connectionRefused, "ConnectionRefusedError"),
   (.connectionAborted, "ConnectionAbortedError"), (.brokenPipe, "BrokenPipeError"), (.timeout, "TimeoutError"),
   (.decoding, "UnicodeDecodeError"), (.json, "JSONDecodeError"), (.group, "ExceptionGroup"),
   (.missingSection, "MissingSectionHeaderError"), (.duplicateSection, "DuplicateSectionError"),
   (.duplicateOption, "DuplicateOptionError"), (.parsing, "ParsingError")]

/-- The name of a kind, as messages show it. -/
def name : FailureKind → String
  | .other name => name
  | kind => (named.lookup kind).getD ""

/-- Older names for failures that the operating system reports. -/
def systemAliases : List String := ["IOError", "EnvironmentError"]

/-- The kind with a name. -/
def ofName (name : String) : FailureKind :=
  if systemAliases.contains name then .os
  else match named.find? (·.2 == name) with
    | some (kind, _) => kind
    | none => .other name

/-- Whether the connection broke. -/
def isConnection : FailureKind → Bool
  | .connection | .connectionReset | .connectionRefused | .connectionAborted | .brokenPipe => true
  | _ => false

/-- Whether the failure is one of input and output that may pass: a broken connection, or no answer in time. -/
def isTransient (kind : FailureKind) : Bool := kind.isConnection || kind == .timeout

/-- Whether the operating system reported the failure. -/
def isSystem : FailureKind → Bool
  | .os | .fileNotFound | .isADirectory | .notADirectory | .permission => true
  | .other name =>
    ["BlockingIOError", "ChildProcessError", "FileExistsError", "InterruptedError", "ProcessLookupError"].contains name
  | kind => kind.isTransient

/-- Whether the failure is a failed call to a service. -/
def isCall : FailureKind → Bool
  | .call | .service => true
  | _ => false

/-- Whether the kind is one of this library's own. -/
def isOwn : FailureKind → Bool
  | .sdk | .client | .configuration | .signing | .credentials | .chain | .retry | .call | .service => true
  | _ => false

end FailureKind

/-- What a failure knows about the call and about trying again. Where two options are nested, the outer one tells whether the
failure speaks about the matter at all. -/
structure CallInfo where
  fault : Option Party := none
  isRetrySafe : Option (Option Bool) := none
  retryAfter : Option (Option Binary64) := none
  isThrottling : Option Bool := none
  errorCode : Option String := none
  statusCode : Option Int := none
  serverTime : Option DateTime := none
  deriving DecidableEq, Repr

/-- A failure. Its text is open if callers are meant to read it, and not if it is the wording of a lower layer. -/
structure Failure where
  kind : FailureKind
  text : String
  isOpen : Bool := true
  info : CallInfo := {}
  errors : List Failure := []
  cause : Option Failure := none
  notes : List String := []
  deriving Repr

instance : Inhabited Failure := ⟨⟨.general, "", true, {}, [], none, []⟩⟩

namespace Failure

/-- A failure with a text for callers. -/
def stated (kind : FailureKind) (text : String) : Failure := { kind, text }

/-- A failure of a lower layer, with that layer's wording. -/
def inner (kind : FailureKind) (text : String) : Failure := { kind, text, isOpen := false }

/-- A stated failure with a cause. -/
def causedBy (kind : FailureKind) (text : String) (cause : Failure) : Failure :=
  { kind, text, cause := some cause }

/-- What a failed call says about itself if nothing else is known. -/
def CallInfo.unknown : CallInfo :=
  { isRetrySafe := some none, retryAfter := some none, isThrottling := some false }

/-- Who is at fault for an error response: the server from status 500 on, else the client. -/
def partyOfStatus (status : Int) : Party := if 500 ≤ status then .server else .client

/-- A call that was answered with an error response; a fault that is not given is that of the status. -/
def service (text : String) (status : Int) (info : CallInfo := CallInfo.unknown) : Failure :=
  { kind := .service, text
    info := { info with statusCode := some status, fault := some (info.fault.getD (partyOfStatus status)) } }

/-- A failure with one more note. -/
def addNote (f : Failure) (note : String) : Failure := { f with notes := f.notes ++ [note] }

/-- Whether the failure answers every question about trying again, so that its own judgement counts. -/
def judgesRetry (f : Failure) : Bool :=
  f.info.isRetrySafe.isSome && f.info.retryAfter.isSome && f.info.isThrottling.isSome

end Failure

end SignedCall
