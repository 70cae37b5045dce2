import SignedCall.Failure

/-!
# Classification of failures

Which failures are worth another attempt: those that say so themselves, throttling, clock skew, a few error statuses, and
trouble with the connection.
-/

namespace SignedCall

/-- A failed attempt: how many retries were made before, the failure, and the status of the response if it is known apart from
the failure. -/
structure RetryContext where
  retries : Nat := 0
  failure : Option Failure := none
  status : Option Int := none

namespace RetryContext

/-- The context after a number of retries; a negative number is refused. -/
def ofRetries (retries : Int) (failure : Option Failure) (status : Option Int) : Except Failure RetryContext :=
  if retries < 0 then
    .error (Failure.stated .configuration ("retries_attempted must not be negative, got " ++ toString retries))
  else .ok { retries := retries.toNat, failure, status }

/-- The status of the response: the one that is known, else that of the failure. -/
def statusCode (c : RetryContext) : Option Int := c.status.or (c.failure.bind (·.info.statusCode))

end RetryContext

namespace Retry

/-- The error statuses that may pass. -/
def retryableStatuses : List Int := [500, 502, 503, 504]

/-- The status by which a service asks to slow down. -/
def throttlingStatus : Int := 429

/-- The error codes by which a service asks to slow down. -/
def throttlingCodes : List String :=
  ["Throttling", "ThrottlingException", "ThrottledException", "RequestThrottledException", "TooManyRequestsException",
    "ProvisionedThroughputExceededException", "TransactionInProgressException", "RequestLimitExceeded",
    "BandwidthLimitExceeded", "LimitExceededException", "RequestThrottled", "SlowDown", "PriorRequestNotComplete",
    "EC2ThrottledException"]

/-- The error codes by which a service refuses the time of a signature. -/
def clockSkewCodes : List String :=
  ["RequestTimeTooSkewed", "RequestExpired", "InvalidSignatureException", "SignatureDoesNotMatch", "AuthFailure",
    "RequestInTheFuture"]

/-- Whether the error code of a failure is one of some codes. -/
def hasCode (codes : List String) (failure : Option Failure) : Bool :=
  match failure.bind (·.info.errorCode) with
  | some code => codes.contains code
  | none => false

/-- Whether a failure is throttling: it says so, or its status or its code does. -/
def isThrottling (failure : Option Failure) (status : Option Int) : Bool :=
  failure.bind (·.info.isThrottling) == some true ||
    status.or (failure.bind (·.info.statusCode)) == some throttlingStatus || hasCode throttlingCodes failure

/-- Whether a failure is a refused time. -/
def isClockSkew (failure : Option Failure) : Bool := hasCode clockSkewCodes failure

/-- Whether a failure is worth another attempt as far as its status, its code and its kind tell. -/
def looksPassing (c : RetryContext) : Bool :=
  isThrottling c.failure c.statusCode || isClockSkew c.failure ||
    (match c.statusCode with | some status => retryableStatuses.contains status | none => false) ||
    (match c.failure with | some f => f.kind.isTransient | none => false)

/-- Whether a failure is worth another attempt. -/
def isRetryable (c : RetryContext) : Bool :=
  match c.failure with
  | some f => if f.judgesRetry then (f.info.isRetrySafe.bind id).getD (looksPassing c) else looksPassing c
  | none => looksPassing c

end Retry

end SignedCall
