import SignedCall.Host
import SignedCall.Identity

/-!
# Resolvers

Where identities come from. A resolver gives an identity each time it is asked, and may have something to close.
-/

namespace SignedCall

/-- What a caller says about the identity that it asks for. -/
abbrev Properties := FieldMap Json

/-- Where identities come from. -/
structure Resolver (σ : Type) where
  name : String
  identity : Properties → Program σ Identity
  close : Option (Program σ Unit) := none

/-- The failure to find credentials. -/
def noCredentials (text : String) : Failure := Failure.stated .credentials text

/-- A text, unless it is empty. -/
def nonempty? (s : Option String) : Option String := s.filter (· ≠ "")

end SignedCall
