import SignedCall.Retry.Backoff
import SignedCall.Retry.Classification

/-!
# Retry policies

Whether and when to try again: a limit on the number of retries, a condition on failures, and a delay that the failure asks for
or that one of two strategies gives.
-/

namespace SignedCall

/-- How the delay after a failed attempt is computed. -/
abbrev DelayRule := RetryContext → Draws → Except BackoffFault (Binary64 × Draws)

/-- The delays of a strategy depend on the number of retries alone. -/
def BackoffStrategy.rule (strategy : BackoffStrategy) : DelayRule := fun c draws => strategy.delay c.retries draws

/-- Whether and when to try again. -/
structure RetryPolicy where
  retries : Nat := BackoffStrategy.defaultRetries
  backoff : DelayRule := BackoffStrategy.standard.rule
  throttlingBackoff : DelayRule := BackoffStrategy.throttling.rule
  condition : RetryContext → Bool := Retry.isRetryable

/-- What an attempt is made with: how many retries came before it, and the delay in front of it. -/
structure RetryToken where
  retries : Nat := 0
  delay : Binary64 := Binary64.zero false
  deriving DecidableEq, Repr

/-- The number of attempts up to this one. -/
def RetryToken.attempts (t : RetryToken) : Nat := t.retries + 1

namespace RetryPolicy

/-- Checks a limit on the number of retries. -/
def checkRetries (retries : Int) : Except Failure Nat :=
  if retries < 0 then .error (Failure.stated .configuration ("num_retries must not be negative, got " ++ toString retries))
  else .ok retries.toNat

/-- The limit on the number of attempts. -/
def maxAttempts (p : RetryPolicy) : Nat := p.retries + 1

/-- Whether another attempt is made. -/
def shouldRetry (p : RetryPolicy) (c : RetryContext) : Bool := c.retries < p.retries && p.condition c

/-- The delay before the next attempt. What the failure asks for goes before the strategies. -/
def delay (p : RetryPolicy) (c : RetryContext) (draws : Draws) : Except BackoffFault (Binary64 × Draws) :=
  match c.failure.bind (·.info.retryAfter) with
  | some (some seconds) => .ok (seconds, draws)
  | _ => if Retry.isThrottling c.failure c.statusCode then p.throttlingBackoff c draws else p.backoff c draws

/-- Why there is no token for another attempt. -/
inductive Refusal where
  | exhausted (attempts : Nat) (failure : Option Failure)
  | noDelay (fault : BackoffFault)

/-- The failure of a call for the sake of a refusal. -/
def Refusal.failure : Refusal → Failure
  | .exhausted attempts failure => Failure.stated .retry <|
    "Not retrying after " ++ toString attempts ++ " attempt(s): " ++
      (match failure with | some f => f.kind.name | none => "NoneType")
  | .noDelay fault => fault.failure

/-- The token for the attempt after a failed one, and the draws that are left. -/
def renew (p : RetryPolicy) (token : RetryToken) (failure : Option Failure) (draws : Draws) :
    Except Refusal (RetryToken × Draws) :=
  let c : RetryContext := { retries := token.retries, failure }
  if p.shouldRetry c then
    match p.delay c draws with
    | .ok (delay, draws) => .ok ({ retries := token.retries + 1, delay }, draws)
    | .error fault => .error (.noDelay fault)
  else .error (.exhausted token.attempts failure)

end RetryPolicy

end SignedCall
