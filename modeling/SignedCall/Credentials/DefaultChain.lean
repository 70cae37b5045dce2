import SignedCall.Configuration.Basic
import SignedCall.Credentials.Chain
import SignedCall.Credentials.Container
import SignedCall.Credentials.Environment
import SignedCall.Credentials.Instance
import SignedCall.Credentials.Shared
import SignedCall.Credentials.Static

/-!
# The default chain

The places where credentials are looked for unless told otherwise: what the program itself gave, the environment, the shared
credentials file, the container and the machine.
-/

namespace SignedCall.DefaultChain

/-- What the default chain keeps between calls. -/
structure State where
  container : RefreshState := {}
  machine : RefreshState := {}
  token : Option SessionToken := none
  lastUsed : Option Nat := none

/-- The part of the container. -/
def containerSlot : Slot State RefreshState where
  get := State.container
  set x s := { s with container := x }
  get_set _ _ := rfl
  set_get _ := rfl
  set_set _ _ _ := rfl

/-- The part of the machine. -/
def machineSlot : Slot State RefreshState where
  get := State.machine
  set x s := { s with machine := x }
  get_set _ _ := rfl
  set_get _ := rfl
  set_set _ _ _ := rfl

/-- The session token. -/
def tokenSlot : Slot State (Option SessionToken) where
  get := State.token
  set x s := { s with token := x }
  get_set _ _ := rfl
  set_get _ := rfl
  set_set _ _ _ := rfl

/-- The position that is remembered. -/
def lastUsedSlot : Slot State (Option Nat) where
  get := State.lastUsed
  set x s := { s with lastUsed := x }
  get_set _ _ := rfl
  set_get _ := rfl
  set_set _ _ _ := rfl

/-- The lock under which credentials of the container are fetched. -/
def containerLock : LockId := 0

/-- The lock under which credentials of the machine are fetched. -/
def machineLock : LockId := 1

/-- The lock under which a session token is fetched. -/
def tokenLock : LockId := 2

/-- What the chain is made from. -/
structure Settings where
  given : Option Credentials := none
  profile : Option String := none
  credentialsFile : Option String := none
  metadata : MetadataConfig := MetadataConfig.standard
  metadataDisabled : Bool := false
  reuses : Bool := true
  prefetches : Bool := false

/-- The settings that a configuration gives. The credentials are those that the program itself gave. -/
def Settings.ofConfiguration (c : Configuration) : Except Failure Settings := do
  let value (setting : Setting) : Except Failure Json :=
    ((c.get setting).map SettingValue.value).mapError ConfigurationFault.failure
  let reuses ← value .reuseLastProvider
  let prefetches ← value .backgroundRefresh
  let properties ← c.identityProperties.mapError ConfigurationFault.failure
  let profile ← value .profile
  let credentialsFile ← value .credentialsFile
  let endpoint ← value .metadataEndpoint
  let mode ← value .metadataMode
  let metadata ← (MetadataConfig.make none endpoint.text? mode MetadataConfig.maxLifetime none).mapError
    MetadataConfigFault.failure
  let disabled ← value .metadataDisabled
  return { given := StaticResolver.ofProperties? properties, profile := profile.text?, credentialsFile := credentialsFile.text?
           metadata, metadataDisabled := disabled.isTruthy, reuses := reuses.isTruthy, prefetches := prefetches.isTruthy }

variable {σ : Type}

/-- What reads metadata of the machine. -/
def metadataClient (host : Host σ) (slot : Slot σ State) (settings : Settings) : MetadataClient σ :=
  { host, config := settings.metadata, slot := slot.comp tokenSlot, lock := tokenLock }

/-- The resolvers of the default chain. -/
def resolvers (host : Host σ) (slot : Slot σ State) (settings : Settings) : List (Resolver σ) :=
  [Resolver.static (settings.given.map Identity.credentials), Resolver.environment host,
    Resolver.shared host settings.profile settings.credentialsFile,
    Resolver.ofContainer host {} (slot.comp containerSlot) containerLock settings.prefetches] ++
  (if settings.metadataDisabled then []
   else [Resolver.ofInstance (metadataClient host slot settings) (slot.comp machineSlot) machineLock settings.prefetches])

/-- The chain of defaults always has a resolver to ask. -/
theorem resolvers_ne_nil (host : Host σ) (slot : Slot σ State) (settings : Settings) :
    resolvers host slot settings ≠ [] := by
  simp [resolvers]

/-- The default chain. -/
def chain (host : Host σ) (slot : Slot σ State) (settings : Settings) : Chain σ :=
  { resolvers := resolvers host slot settings, lastUsed := slot.comp lastUsedSlot, reuses := settings.reuses
    resolvers_ne_nil := resolvers_ne_nil host slot settings }

end SignedCall.DefaultChain
