import SignedCall.Failure
import SignedCall.Json.Inspect
import SignedCall.Text.Digit
import SignedCall.Text.Case

/-!
# Settings

The fields of a configuration: under which names their values stand in each source, how a text becomes a value, and which
values are allowed.
-/

namespace SignedCall

/-- The fields of a configuration. -/
inductive Setting where
  | accessKeyId
  | secretAccessKey
  | sessionToken
  | profile
  | credentialsFile
  | maxAttempts
  | reuseLastProvider
  | backgroundRefresh
  | metadataDisabled
  | metadataEndpoint
  | metadataMode
  deriving DecidableEq, Repr

/-- Where a value comes from. -/
inductive SettingSource where
  | constructor
  | environment
  | configFile
  | credentialsFile
  | default
  | inCode
  deriving DecidableEq, Repr

/-- A value with its source. -/
structure SettingValue where
  value : Json
  source : SettingSource
  deriving Repr

/-- Why a value is refused. -/
inductive SettingFault where
  | notAnInteger (setting : Setting) (text : String)
  | notABoolean (setting : Setting) (text : String)
  | wrongType (setting : Setting) (expected actual : String)
  | tooSmall (setting : Setting) (value : Json)
  | unknownMode (setting : Setting) (value : Json)
  deriving Repr

/-- The word for a source. -/
def SettingSource.name : SettingSource → String
  | .constructor => "constructor"
  | .environment => "environment"
  | .configFile => "config_file"
  | .credentialsFile => "credentials_file"
  | .default => "default"
  | .inCode => "in_code_update"

/-- Whether the source is the program itself. -/
def SettingSource.isExplicit : SettingSource → Bool
  | .constructor | .inCode => true
  | _ => false

/-- A value as messages show it: without the value itself. -/
def SettingValue.inspect (v : SettingValue) : String := "ConfigValue(source='" ++ v.source.name ++ "')"

namespace Setting

/-- All settings, in the order in which they are resolved. -/
def all : List Setting :=
  [.accessKeyId, .secretAccessKey, .sessionToken, .profile, .credentialsFile, .maxAttempts, .reuseLastProvider,
    .backgroundRefresh, .metadataDisabled, .metadataEndpoint, .metadataMode]

/-- The name of a setting. -/
def name : Setting → String
  | .accessKeyId => "aws_access_key_id"
  | .secretAccessKey => "aws_secret_access_key"
  | .sessionToken => "aws_session_token"
  | .profile => "profile"
  | .credentialsFile => "shared_credentials_file"
  | .maxAttempts => "max_attempts"
  | .reuseLastProvider => "reuse_last_provider_enabled"
  | .backgroundRefresh => "async_credential_update_enabled"
  | .metadataDisabled => "ec2_metadata_disabled"
  | .metadataEndpoint => "ec2_metadata_service_endpoint"
  | .metadataMode => "ec2_metadata_service_endpoint_mode"

/-- The setting with a name. -/
def ofName? (name : String) : Option Setting := all.find? (·.name == name)

/-- The environment variable of a setting, if it has one. -/
def environmentName? : Setting → Option String
  | .accessKeyId => some "AWS_ACCESS_KEY_ID"
  | .secretAccessKey => some "AWS_SECRET_ACCESS_KEY"
  | .sessionToken => some "AWS_SESSION_TOKEN"
  | .profile => some "AWS_PROFILE"
  | .credentialsFile => some "AWS_SHARED_CREDENTIALS_FILE"
  | .maxAttempts => some "AWS_MAX_ATTEMPTS"
  | .metadataDisabled => some "AWS_EC2_METADATA_DISABLED"
  | .metadataEndpoint => some "AWS_EC2_METADATA_SERVICE_ENDPOINT"
  | .metadataMode => some "AWS_EC2_METADATA_SERVICE_ENDPOINT_MODE"
  | .reuseLastProvider | .backgroundRefresh => none

/-- The option of a setting in the files, if it has one. -/
def optionName? : Setting → Option String
  | .accessKeyId => some "aws_access_key_id"
  | .secretAccessKey => some "aws_secret_access_key"
  | .sessionToken => some "aws_session_token"
  | .maxAttempts => some "max_attempts"
  | .metadataEndpoint => some "ec2_metadata_service_endpoint"
  | .metadataMode => some "ec2_metadata_service_endpoint_mode"
  | _ => none

/-- The value of a setting that no source sets. -/
def default : Setting → Json
  | .maxAttempts => .number (.whole 4)
  | .reuseLastProvider => .bool true
  | .backgroundRefresh | .metadataDisabled => .bool false
  | .metadataMode => .text "IPv4"
  | _ => .null

/-- The truth value that a text names, in any letter case. -/
def readBool? (s : String) : Option Bool :=
  match Text.lower (Text.strip s) with
  | "true" => some true
  | "false" => some false
  | _ => none

/-- The value that a given value stands for: texts are read where the setting is a number or a truth value. -/
def convert (setting : Setting) (value : Json) : Except SettingFault Json :=
  match setting, value with
  | .maxAttempts, .text s =>
    match Text.readInt? s with
    | some n => .ok (.number (.whole n))
    | none => .error (.notAnInteger .maxAttempts s)
  | .metadataDisabled, .text s =>
    match readBool? s with
    | some b => .ok (.bool b)
    | none => .error (.notABoolean .metadataDisabled s)
  | _, value => .ok value

/-- Checks a number of attempts: a whole number, at least one. -/
def checkAttempts (value : Json) : Except SettingFault Unit :=
  match value with
  | .number (.whole n) => if n < 1 then .error (.tooSmall .maxAttempts value) else .ok ()
  | _ => .error (.wrongType .maxAttempts "int" value.typeName)

/-- Checks an endpoint mode. -/
def checkMode (value : Json) : Except SettingFault Unit :=
  match value with
  | .text "IPv4" | .text "IPv6" => .ok ()
  | _ => .error (.unknownMode .metadataMode value)

/-- Checks that a value is a truth value. -/
def checkBool (setting : Setting) (value : Json) : Except SettingFault Unit :=
  match value with
  | .bool _ => .ok ()
  | _ => .error (.wrongType setting "bool" value.typeName)

/-- Checks that a value is a text or null. -/
def checkText (setting : Setting) (value : Json) : Except SettingFault Unit :=
  match value with
  | .text _ | .null => .ok ()
  | _ => .error (.wrongType setting "str | None" value.typeName)

/-- Checks a value of a setting. -/
def check (setting : Setting) (value : Json) : Except SettingFault Unit :=
  match setting with
  | .maxAttempts => checkAttempts value
  | .metadataMode => checkMode value
  | .reuseLastProvider | .backgroundRefresh | .metadataDisabled => checkBool setting value
  | _ => checkText setting value

end Setting

/-- The failure of a call for the sake of a refused value. -/
def SettingFault.failure : SettingFault → Failure
  | .notAnInteger setting text =>
    Failure.causedBy .configuration (setting.name ++ " must be an integer, got " ++ Text.quoted text)
      (Failure.inner .value ("invalid literal for int() with base 10: " ++ Text.quoted text))
  | .notABoolean setting text =>
    Failure.stated .configuration (setting.name ++ " must be true or false, got " ++ Text.quoted text)
  | .wrongType setting expected actual =>
    Failure.stated .type (setting.name ++ " must be " ++ expected ++ ", got " ++ actual)
  | .tooSmall setting value =>
    Failure.stated .configuration (setting.name ++ " must be at least 1, got " ++ value.inspect)
  | .unknownMode setting value =>
    Failure.stated .configuration (setting.name ++ " must be IPv4 or IPv6, got " ++ value.inspect)

end SignedCall
