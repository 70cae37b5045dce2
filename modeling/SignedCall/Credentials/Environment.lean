import SignedCall.Credentials.Resolver

/-!
# Credentials of the environment

Credentials in environment variables, which are read anew for every call. An empty variable counts as unset.
-/

namespace SignedCall

namespace EnvironmentResolver

/-- The variable with the key. -/
def keyVariable : String := "AWS_ACCESS_KEY_ID"

/-- The variable with the secret. -/
def secretVariable : String := "AWS_SECRET_ACCESS_KEY"

/-- The variable with the secret if the usual one is unset. -/
def otherSecretVariable : String := "AWS_SECRET_KEY"

/-- The variable with the session token. -/
def tokenVariable : String := "AWS_SESSION_TOKEN"

/-- The variable with the account. -/
def accountVariable : String := "AWS_ACCOUNT_ID"

/-- The failure to find both keys. -/
def incomplete : Failure := noCredentials <|
  keyVariable ++ " and " ++ secretVariable ++ " (or " ++ otherSecretVariable ++ ") are required"

/-- The credentials of an environment. -/
def resolve (environment : FieldMap String) : Except Failure Credentials :=
  let value? (name : String) : Option String := nonempty? (environment.get? name)
  match value? keyVariable, (value? secretVariable).or (value? otherSecretVariable) with
  | some key, some secret => .ok (Credentials.ofTexts key secret (value? tokenVariable) (value? accountVariable))
  | _, _ => .error incomplete

end EnvironmentResolver

/-- Gives the credentials of the environment. -/
def Resolver.environment {σ : Type} (host : Host σ) : Resolver σ where
  name := "EnvironmentCredentialsResolver"
  identity _ := do
    let environment ← Program.read host.environment
    Program.ofExcept ((EnvironmentResolver.resolve environment).map Identity.credentials)

end SignedCall
