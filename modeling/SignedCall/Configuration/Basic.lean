import SignedCall.Configuration.Sources
import SignedCall.Retry.Policy

/-!
# Configurations

Settings, each resolved from the first source that sets it: the program, the environment, the configuration file, the
credentials file, the default. A configuration is resolved once, and only then read; the program may update it at any time.
-/

namespace SignedCall

/-- A configuration: what the program gave, the values so far, and whether they were resolved. -/
structure Configuration where
  given : FieldMap Json
  values : Setting → Option SettingValue := fun _ => none
  resolved : Bool := false

/-- Why a configuration cannot be used as asked. -/
inductive ConfigurationFault where
  | resolvedAlready
  | notResolved
  | setting (fault : SettingFault)
  | sources (failure : Failure)

/-- The failure of a call for the sake of a fault. -/
def ConfigurationFault.failure : ConfigurationFault → Failure
  | .resolvedAlready => Failure.stated .runtime
    "Config has already been resolved. Multiple calls to resolve() are not allowed."
  | .notResolved => Failure.stated .runtime "Config must be resolved before accessing values"
  | .setting fault => fault.failure
  | .sources failure => failure

namespace Configuration

/-- A configuration of what the program gives; every name has to be that of a setting. -/
def make (given : FieldMap Json) : Except Failure Configuration :=
  match given.entries.find? fun e => (Setting.ofName? e.1).isNone with
  | some (name, _) => .error (Failure.inner .type ("unexpected setting " ++ Text.quoted name))
  | none => .ok { given }

/-- The value of a setting as the first source gives it. -/
def pick (given : FieldMap Json) (sources : SettingSources) (setting : Setting) : SettingValue :=
  let inEnvironment := setting.environmentName?.bind sources.environment.get?
  let inConfigFile := setting.optionName?.bind sources.configFile.get?
  let inCredentialsFile := setting.optionName?.bind sources.credentialsFile.get?
  match given.get? setting.name, inEnvironment, inConfigFile, inCredentialsFile with
  | some value, _, _, _ => ⟨value, .constructor⟩
  | none, some value, _, _ => ⟨value, .environment⟩
  | none, none, some value, _ => ⟨value, .configFile⟩
  | none, none, none, some value => ⟨value, .credentialsFile⟩
  | none, none, none, none => ⟨setting.default, .default⟩

/-- The value of a setting, converted and checked. -/
def resolveSetting (given : FieldMap Json) (sources : SettingSources) (setting : Setting) :
    Except SettingFault SettingValue := do
  let picked := pick given sources setting
  let value ← setting.convert picked.value
  setting.check value
  return { picked with value }

/-- A configuration with a value put in the place of a setting. -/
def put (c : Configuration) (setting : Setting) (value : SettingValue) : Configuration :=
  { c with values := fun s => if s = setting then some value else c.values s }

/-- Resolves settings one after the other, up to the first that is refused. -/
def resolveAll (sources : SettingSources) : List Setting → Configuration → Configuration × Except SettingFault Unit
  | [], c => (c, .ok ())
  | setting :: rest, c =>
    match resolveSetting c.given sources setting with
    | .ok value => resolveAll sources rest (c.put setting value)
    | .error fault => (c, .error fault)

/-- Resolves a configuration from its sources. What was put in place before a refused setting stays there, out of sight. -/
def resolve (c : Configuration) (sources : Except Failure SettingSources) :
    Configuration × Except ConfigurationFault Unit :=
  if c.resolved then (c, .error .resolvedAlready)
  else match sources with
    | .error failure => (c, .error (.sources failure))
    | .ok sources =>
      match resolveAll sources Setting.all c with
      | (c, .ok _) => ({ c with resolved := true }, .ok ())
      | (c, .error fault) => (c, .error (.setting fault))

/-- The value of a setting. -/
def get (c : Configuration) (setting : Setting) : Except ConfigurationFault SettingValue :=
  if c.resolved then .ok ((c.values setting).getD ⟨setting.default, .default⟩) else .error .notResolved

/-- Checks an update by the program: only the number of attempts and the endpoint mode are looked at. -/
def checkUpdate (setting : Setting) (value : Json) : Except SettingFault Unit :=
  match setting with
  | .maxAttempts => Setting.checkAttempts value
  | .metadataMode => Setting.checkMode value
  | _ => .ok ()

/-- An update by the program. -/
def set (c : Configuration) (setting : Setting) (value : Json) : Except SettingFault Configuration := do
  checkUpdate setting value
  return c.put setting ⟨value, .inCode⟩

/-- The settings that make an identity, with their names as properties of a call. -/
def identitySettings : List (Setting × String) :=
  [(.accessKeyId, "access_key_id"), (.secretAccessKey, "secret_access_key"), (.sessionToken, "session_token")]

/-- The parts of an identity that the program itself gave. -/
def identityProperties (c : Configuration) : Except ConfigurationFault (FieldMap Json) :=
  identitySettings.foldlM (fun properties (setting, name) => do
    let v ← c.get setting
    return if v.source.isExplicit then properties.insert name v.value else properties) FieldMap.empty

/-- The number of attempts. -/
def attempts (c : Configuration) : Except ConfigurationFault Int := do
  match (← c.get .maxAttempts).value with
  | .number (.whole n) => return n
  | _ => return 0

/-- A policy with the number of attempts. -/
def retryPolicy (c : Configuration) : Except Failure RetryPolicy := do
  let attempts ← c.attempts.mapError ConfigurationFault.failure
  return { retries := ← RetryPolicy.checkRetries (attempts - 1) }

end Configuration

end SignedCall
