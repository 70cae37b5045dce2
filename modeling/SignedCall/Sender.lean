import SignedCall.Credentials.Resolver
import SignedCall.Retry.Policy
import SignedCall.Retry.ServiceReply
import SignedCall.Signing.QuerySigner

/-!
# Sending signed requests

Requests are signed and sent, and sent again while the policy finds a failure worth it. Every attempt asks for the identity and
signs the request anew. When a service refuses the time of a signature, what the clocks differ by is taken into account from then
on, for all requests of the sender.
-/

namespace SignedCall

/-- Sends signed requests. The offset is what the local clock is ahead of the service, in seconds. -/
structure Sender (σ : Type) where
  host : Host σ
  resolver : Resolver σ
  policy : RetryPolicy := {}
  offset : Slot σ Int

namespace Sender

variable {σ : Type}

/-- The least status that is an error. -/
def firstErrorStatus : Int := 300

/-- The response, or the failure that it stands for. -/
def check (r : Response) : Except Failure Response :=
  if firstErrorStatus ≤ r.status then
    match ServiceReply.failure r with
    | .ok f => .error f
    | .error f => .error f
  else .ok r

/-- The request signed by the clock and the offset of now. -/
def sign (sender : Sender σ) (request : Request) (identity : Identity) (s : σ) : Except Failure Request :=
  (QuerySigner.sign (sender.host.now s) (sender.offset.get s) identity request).mapError QuerySigningFault.failure

/-- One attempt. -/
def attempt (sender : Sender σ) (request : Request) (identity : Identity) : Program σ Response := do
  let signed ← Program.ofExcept (← Program.read (sender.sign request identity))
  Program.ofExcept (check (← sender.host.send signed))

/-- Takes over the clock of the service from a failure that gives it. -/
def correctOffset (sender : Sender σ) (f : Failure) : Program σ Unit := do
  match f.info.serverTime with
  | none => return ()
  | some time =>
    match time.utc? with
    | none => throw (Failure.inner .overflow "date value out of range")
    | some server =>
      let now ← Program.read sender.host.now
      Program.put sender.offset (timeOffset server now)

/-- The note on a failure that ends the attempts. -/
def attemptsNote (attempts : Nat) : String := "Request failed after " ++ toString attempts ++ " attempt(s)."

/-- Another attempt, if retries are left and the policy finds the failure worth it, or the failure with a note on the number of
attempts. A token is renewed only while retries are left, so that the last attempt is never followed by another. -/
def tryAgain (sender : Sender σ) (again : Option (RetryToken → Program σ Response)) (token : RetryToken) (f : Failure) :
    Program σ Response := do
  let draws ← Program.read sender.host.draws.get
  match sender.policy.renew token (some f) draws, again with
  | .ok (token, draws), some again => do
    Program.put sender.host.draws draws
    again token
  | .error (.noDelay fault), _ => throw fault.failure
  | _, _ => throw (f.addNote (attemptsNote token.attempts))

/-- What follows a failed attempt. -/
def afterFailure (sender : Sender σ) (again : Option (RetryToken → Program σ Response)) (token : RetryToken) (f : Failure) :
    Program σ Response := do
  if Retry.isClockSkew (some f) then
    sender.correctOffset f
  sender.tryAgain again token f

/-- An attempt for an identity that is asked for anew, and what follows it. -/
def attemptAnew (sender : Sender σ) (request : Request) (properties : Properties)
    (again : Option (RetryToken → Program σ Response)) (token : RetryToken) : Program σ Response := do
  let identity ← sender.resolver.identity properties
  match ← (sender.attempt request identity).attempt with
  | .ok r => return r
  | .error f => sender.afterFailure again token f

/-- An attempt with the sleep that comes before it, and what follows it. -/
def round (sender : Sender σ) (request : Request) (properties : Properties) (again : Option (RetryToken → Program σ Response))
    (token : RetryToken) : Program σ Response := do
  unless token.delay.isZero do
    sender.host.sleep token.delay
  sender.attemptAnew request properties again token

/-- Sends a request with a number of retries left. -/
def sendFrom (sender : Sender σ) (request : Request) (properties : Properties) : Nat → RetryToken → Program σ Response
  | 0 => sender.round request properties none
  | left + 1 => sender.round request properties (some (sender.sendFrom request properties left))

/-- Sends a request until it succeeds or no retry is left. -/
def send (sender : Sender σ) (request : Request) (properties : Properties) : Program σ Response :=
  sender.sendFrom request properties sender.policy.retries {}

end Sender

end SignedCall
