import SignedCall.Credentials.Resolver

/-!
# Explicit credentials

The identity that the program was set up with, or the credentials that the caller passes along.
-/

namespace SignedCall

namespace StaticResolver

/-- The credentials in the properties of a call, if both keys are there. -/
def ofProperties? (properties : Properties) : Option Credentials :=
  let value (name : String) : Json := (properties.get? name).getD .null
  let key := value "access_key_id"
  let secret := value "secret_access_key"
  if key.isNull || secret.isNull then none
  else some { accessKeyId := key, secretAccessKey := secret, sessionToken := value "session_token" }

/-- The failure to find any of them. -/
def unconfigured : Failure := noCredentials <|
  "Attempted to resolve AWS credentials from config, but credentials weren't configured."

/-- The identity for a call. -/
def resolve (given : Option Identity) (properties : Properties) : Except Failure Identity :=
  match given with
  | some i => .ok i
  | none =>
    match ofProperties? properties with
    | some c => .ok (.credentials c)
    | none => .error unconfigured

end StaticResolver

/-- Gives the identity that it was set up with, else the credentials in the properties of the call. -/
def Resolver.static {σ : Type} (given : Option Identity) : Resolver σ where
  name := "StaticCredentialsResolver"
  identity properties := Program.ofExcept (StaticResolver.resolve given properties)

end SignedCall
