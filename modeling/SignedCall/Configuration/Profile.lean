import SignedCall.Failure
import SignedCall.Files
import SignedCall.Ini

/-!
# Profiles

Sections of the credentials file, by the name of a profile.
-/

namespace SignedCall

/-- The failure of a call for the sake of a file. -/
def Ini.Fault.failure : Ini.Fault → Failure
  | .undecodable fault => Failure.inner .decoding fault.message
  | .missingSection => Failure.inner .missingSection "File contains no section headers."
  | .duplicateSection name => Failure.inner .duplicateSection ("section " ++ Text.quoted name ++ " already exists")
  | .duplicateOption sectionName name => Failure.inner .duplicateOption <|
    "option " ++ Text.quoted name ++ " in section " ++ Text.quoted sectionName ++ " already exists"
  | .badLine => Failure.inner .parsing "Source contains parsing errors"

namespace Profile

/-- The environment variable that names the profile. -/
def variableName : String := "AWS_PROFILE"

/-- The environment variable that names the credentials file. -/
def credentialsFileVariable : String := "AWS_SHARED_CREDENTIALS_FILE"

/-- The environment variable that names the configuration file. -/
def configFileVariable : String := "AWS_CONFIG_FILE"

/-- The environment variable that names the home directory. -/
def homeVariable : String := "HOME"

/-- The profile unless another is named. -/
def defaultName : String := "default"

/-- The failure to find a home directory. -/
def noHome : Failure := Failure.inner .runtime "Could not determine home directory."

/-- A path below the home directory. -/
def belowHome (environment : FieldMap String) (parts : List String) : Except Failure FilePath :=
  match FilePath.home? (environment.get? homeVariable) with
  | some home => .ok (home.append parts)
  | none => .error noHome

/-- The path of a text, with the home directory in place of a tilde. -/
def expand (environment : FieldMap String) (path : String) : Except Failure FilePath :=
  match (FilePath.ofText path).expandHome? (environment.get? homeVariable) with
  | some path => .ok path
  | none => .error noHome

/-- The failure to read a file whose form is wrong. -/
def unparsable (path : FilePath) (fault : Ini.Fault) : Failure :=
  match fault with
  | .undecodable _ => fault.failure
  | _ => Failure.causedBy .credentials ("Unable to parse " ++ path.text ++ ".") fault.failure

/-- The options of a profile in a file; none if there is no such file or no such profile in it. -/
def read? (files : Files) (path : FilePath) (name : String) : Except Failure (Option (FieldMap String)) :=
  match files.content? path with
  | none => .ok none
  | some content =>
    match Ini.read content with
    | .ok ini => .ok (ini.options? name)
    | .error fault => .error (unparsable path fault)

end Profile

end SignedCall
