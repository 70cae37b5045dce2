import SignedCall.Configuration.Field
import SignedCall.Configuration.Profile

/-!
# Sources of settings

What the environment and the two files say, before any of it is read as a setting. The profile and the path of the credentials
file may themselves be given by the program or by the environment.
-/

namespace SignedCall

/-- The values that the sources hold, each under that source's own names. -/
structure SettingSources where
  environment : FieldMap Json
  configFile : FieldMap Json
  credentialsFile : FieldMap Json

namespace SettingSources

/-- The failure to take a value that is no text for a path. -/
def notAPath (value : Json) : Failure :=
  Failure.inner .type ("expected str, bytes or os.PathLike object, not " ++ value.typeName)

/-- The first of two values that counts as true; the second one, if none does. -/
def firstTruthy (a b : Json) : Json := if a.isTruthy then a else b

/-- Texts as values. -/
def ofTexts (m : FieldMap String) : FieldMap Json := m.mapValues Json.text

/-- The path that a value gives, or one below the home directory if there is no value. -/
def path (environment : FieldMap String) (value : Json) (default : List String) : Except Failure FilePath :=
  if !value.isTruthy then Profile.belowHome environment default
  else match value with
    | .text s => Profile.expand environment s
    | j => .error (notAPath j)

/-- The options of a section of a file that need not exist. -/
def optionsIn (files : Files) (path : FilePath) (name : Json) : Except Failure (FieldMap Json) :=
  match files.status path with
  | .missing | .behindFile => .ok FieldMap.empty
  | status => do
    let ini ← match status with
      | .file content => (Ini.read content).mapError Ini.Fault.failure
      | _ => .ok ⟨FieldMap.empty, FieldMap.empty⟩
    match name with
    | .text name => return (ini.options? name).elim FieldMap.empty ofTexts
    | .array _ | .object _ => throw (Failure.inner .type ("unhashable type: '" ++ name.typeName ++ "'"))
    | _ => return FieldMap.empty

/-- The profile that is read, if one is named. -/
def profileOf (given environment : FieldMap Json) : Json :=
  firstTruthy ((given.get? Setting.profile.name).getD .null) ((environment.get? Profile.variableName).getD .null)

/-- What the configuration file says for a profile. -/
def readConfigFile (files : Files) (home : FieldMap String) (environment : FieldMap Json) (profile : Json) :
    Except Failure (FieldMap Json) := do
  let path ← path home ((environment.get? Profile.configFileVariable).getD .null) [".aws", "config"]
  let name := firstTruthy profile (.text Profile.defaultName)
  optionsIn files path (match name with
    | .text "default" => name
    | _ => .text ("profile " ++ name.display))

/-- What the credentials file says for a profile. -/
def readCredentialsFile (files : Files) (home : FieldMap String) (given environment : FieldMap Json) (profile : Json) :
    Except Failure (FieldMap Json) := do
  let value := firstTruthy ((given.get? Setting.credentialsFile.name).getD .null)
    ((environment.get? Profile.credentialsFileVariable).getD .null)
  let path ← path home value [".aws", "credentials"]
  optionsIn files path (firstTruthy profile (.text Profile.defaultName))

/-- All sources; those that are handed over take the place of those that would be read. -/
def read (files : Files) (processEnvironment : FieldMap String) (given : FieldMap Json)
    (environment configFile credentialsFile : Option (FieldMap Json)) : Except Failure SettingSources := do
  let environment := environment.getD (ofTexts processEnvironment)
  let profile := profileOf given environment
  let configFile ← match configFile with
    | some values => .ok values
    | none => readConfigFile files processEnvironment environment profile
  let credentialsFile ← match credentialsFile with
    | some values => .ok values
    | none => readCredentialsFile files processEnvironment given environment profile
  return { environment, configFile, credentialsFile }

end SettingSources

end SignedCall
