import SignedCall.Files
import SignedCall.Http.Response
import SignedCall.Retry.Backoff
import SignedCall.Task.Program

/-!
# Hosts

What the calls of this library need from outside: a clock, environment variables, files, random draws, a way to send requests and a
way to sleep.
-/

namespace SignedCall

/-- What calls need from outside. -/
structure Host (σ : Type) where
  now : σ → Instant
  environment : σ → FieldMap String
  files : σ → Files
  draws : Slot σ Draws
  send : Request → Program σ Response
  sendWithin : Option Number → Request → Program σ Response
  sleep : Binary64 → Program σ Unit

end SignedCall
