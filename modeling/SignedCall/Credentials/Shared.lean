import SignedCall.Configuration.Profile
import SignedCall.Credentials.Resolver

/-!
# Credentials of a profile

Credentials in the shared credentials file, under the name of a profile.
-/

namespace SignedCall

namespace SharedResolver

/-- The profile that is read: the one asked for, else the one of the environment, else the default. -/
def profileName (asked : Option String) (environment : FieldMap String) : String :=
  ((nonempty? asked).or (nonempty? (environment.get? Profile.variableName))).getD Profile.defaultName

/-- The file that is read: the one asked for, else the one of the environment, else the default. -/
def path (asked : Option String) (environment : FieldMap String) : Except Failure FilePath :=
  match asked.or (nonempty? (environment.get? Profile.credentialsFileVariable)) with
  | some path => Profile.expand environment path
  | none => Profile.belowHome environment [".aws", "credentials"]

/-- The credentials that the options of a profile give. -/
def ofOptions (profile : String) (path : FilePath) (found : Option (FieldMap String)) : Except Failure Credentials :=
  match found with
  | none => .error (noCredentials ("Profile " ++ profile ++ " not found in " ++ path.text ++ "."))
  | some options =>
    let value? (name : String) : Option String := nonempty? (options.get? name)
    match value? "aws_access_key_id", value? "aws_secret_access_key" with
    | some key, some secret =>
      .ok (Credentials.ofTexts key secret (value? "aws_session_token") (value? "aws_account_id"))
    | _, _ => .error <| noCredentials <|
      "Profile " ++ profile ++ " in " ++ path.text ++ " is missing aws_access_key_id or aws_secret_access_key."

end SharedResolver

/-- Gives the credentials of a profile. -/
def Resolver.shared {σ : Type} (host : Host σ) (profile file : Option String) : Resolver σ where
  name := "ProfileCredentialsResolver"
  identity _ := do
    let environment ← Program.read host.environment
    let profile := SharedResolver.profileName profile environment
    let path ← Program.ofExcept (SharedResolver.path file environment)
    let found ← Program.onThread fun s => Profile.read? (host.files s) path profile
    Program.ofExcept ((SharedResolver.ofOptions profile path found).map Identity.credentials)

end SignedCall
