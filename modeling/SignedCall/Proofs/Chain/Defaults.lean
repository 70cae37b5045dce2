import Mathlib
import SignedCall.Proofs.Chain.Alike
import SignedCall.Proofs.Configuration.Unset
import SignedCall.Proofs.Credentials.Frame
import SignedCall.Proofs.Rehearsal
import SignedCall.Proofs.Text.Blank

/-!
# The default chain with and without a configuration

A configuration to which the program gives nothing reads from the environment the profile, the credentials file and the switch of the
metadata service, and hands them to the default chain, which would have read them there itself. The profile is then the same; the file
is the same unless its variable is empty, and the switch unless a true value has blanks around it (`path_of_environment_iff`,
`metadataDisabled_iff`). Where both are the same the chain of the configuration answers like the one without, call for call
(`unset_configuration_changes_nothing`); where they are not it need not (`unset_configuration_changes_nothing_always_false`).
-/

namespace SignedCall

variable {σ : Type} {w : Surroundings σ} {environment : FieldMap String}

/-! ## Where the resolvers look -/

/-- The profile of the environment is read whether it is asked for or not. -/
theorem SharedResolver.profileName_of_environment (environment : FieldMap String) :
    profileName (environment.get? Profile.variableName) environment = profileName none environment := by
  have hor : ∀ name : Option String, (nonempty? name).or (nonempty? name) = (nonempty? none).or (nonempty? name) := by
    intro name
    cases nonempty? name <;> rfl
  rw [profileName, profileName, hor]

/-- The file of the environment is read whether it is asked for or not, unless its variable is empty: to ask for that is to ask for
the directory one is in. -/
theorem SharedResolver.path_of_environment_iff (environment : FieldMap String) :
    path (environment.get? Profile.credentialsFileVariable) environment = path none environment ↔
      environment.get? Profile.credentialsFileVariable ≠ some "" := by
  unfold path
  cases environment.get? Profile.credentialsFileVariable with
  | none => exact ⟨fun _ => nofun, fun _ => rfl⟩
  | some name =>
    by_cases hname : name = ""
    · subst hname
      have hasked : Profile.expand environment "" = .ok ⟨"", []⟩ := rfl
      have hbelow : Profile.belowHome environment [".aws", "credentials"] ≠ .ok ⟨"", []⟩ := by
        unfold Profile.belowHome
        split
        · simp [FilePath.append]
        · exact nofun
      exact ⟨fun h => absurd (h.symm.trans hasked) hbelow, fun h => absurd rfl h⟩
    · have hfound : nonempty? (some name) = some name := Option.filter_eq_some_iff.2 ⟨rfl, by simpa using hname⟩
      rw [hfound]
      exact ⟨fun _ h => hname (Option.some.inj h), fun _ => rfl⟩

namespace Setting

/-- A switch is on if its text, without blanks around it and in lower case, is the word for it. -/
theorem readBool?_eq_true_iff {s : String} : readBool? s = some true ↔ Text.lower (Text.strip s) = "true" := by
  unfold readBool?
  split
  next h => exact ⟨fun _ => h, fun _ => rfl⟩
  next h => exact ⟨nofun, fun htrue => absurd (h.symm.trans htrue) (by decide)⟩
  next h _ => exact ⟨nofun, fun htrue => absurd htrue h⟩

/-- A text that is true without being stripped is stripped already. -/
theorem strip_of_lower_eq_true {s : String} (h : Text.lower s = "true") : Text.strip s = s := by
  have hletters : ("true".toList.all fun c => !Text.isBlank c) = true := by decide
  refine Text.strip_of_lower fun c hc => ?_
  rw [h] at hc
  simpa using List.all_eq_true.1 hletters c hc

end Setting

/-- A call of a resolver that keeps nothing yet fails as its fetch does. -/
theorem Refreshing.identity_runIn_of_failed {r : Refreshing σ} {s : σ} {f : Failure} (hcached : (r.slot.get s).cached = none)
    (hlock : w.during (.lock r.lock) s = s) (hfetch : r.fetch.runIn w s = (.failed f, s)) :
    r.identity.runIn w s = (.failed f, s) := by
  have hnone : r.cached.runIn w s = (.value none, s) := Prod.ext (congrArg Outcome.value hcached) rfl
  have hkeep : r.fetchAndKeep.runIn w s = (.failed f, s) := by
    refine (Program.runIn_bind r.fetch _ s).trans ?_
    rw [hfetch]
    rfl
  have hrefresh : r.refresh.runIn w s = (.failed f, s) := by
    refine (Program.runIn_withLock r.lock _ s).trans ?_
    rw [hlock]
    refine (Program.runIn_bind r.cached _ s).trans ?_
    rw [hnone]
    exact hkeep
  refine (Program.runIn_bind r.cached _ s).trans ?_
  rw [hnone]
  exact hrefresh

namespace DefaultChain

/-- The metadata service is off for the configuration exactly if it is off for the resolver that asks it, unless the variable is true
only once blanks around it are stripped. -/
theorem metadataDisabled_iff (environment : FieldMap String) :
    (Settings.ofEnvironment environment).metadataDisabled = Instance.isDisabled environment ↔
      ∀ v, environment.get? Instance.disabledVariable = some v → Setting.readBool? v = some true → Text.strip v = v := by
  unfold Settings.ofEnvironment Instance.isDisabled
  cases environment.get? Instance.disabledVariable with
  | none => exact ⟨fun _ _ h => (nomatch h), fun _ => rfl⟩
  | some v =>
    simp only [Option.bind_some, Option.getD_some, Option.some.injEq, forall_eq']
    by_cases htrue : Setting.readBool? v = some true
    · rw [htrue, Option.getD_some, eq_comm, decide_eq_true_eq]
      refine ⟨fun h _ => Setting.strip_of_lower_eq_true h, fun h => ?_⟩
      rw [← h rfl]
      exact Setting.readBool?_eq_true_iff.1 htrue
    · have hfalse : (Setting.readBool? v).getD false = false := by
        cases hread : Setting.readBool? v with
        | none => rfl
        | some b => cases b with
          | false => rfl
          | true => exact absurd hread htrue
      have hlower : Text.lower v ≠ "true" := fun h =>
        htrue (Setting.readBool?_eq_true_iff.2 ((Setting.strip_of_lower_eq_true h).symm ▸ h))
      rw [hfalse, decide_eq_false hlower]
      exact ⟨fun _ h => absurd h htrue, fun _ => rfl⟩

/-! ## Calls of both chains -/

/-- A change of the state that leaves alone the environment and what the chain keeps. -/
def Harmless (host : Host σ) (slot : Slot σ State) (f : σ → σ) : Prop :=
  ∀ s, host.environment (f s) = host.environment s ∧ slot.get (f s) = slot.get s

/-- Nobody but the chain changes what it keeps, nobody at all changes the environment, and no lock is held by anybody else. -/
structure Undisturbed (w : Surroundings σ) (host : Host σ) (slot : Slot σ State) : Prop where
  others : ∀ wait, Harmless host slot (w.during wait)
  locks : ∀ l s, w.during (.lock l) s = s
  apart : slot.Apart host.environment
  leaves : host.Leaves fun s => (host.environment s, slot.get s)

/-- What is true of the state between the steps of a call: the environment is what it was, only one of the first resolvers is
remembered, and nothing is kept of a machine whose metadata service is off. -/
structure Kept (environment : FieldMap String) (host : Host σ) (slot : Slot σ State) (n : Nat) (s : σ) : Prop where
  environment_eq : host.environment s = environment
  within : ∀ position, (slot.get s).lastUsed = some position → position < n
  machine : Instance.isDisabled environment = true → (slot.get s).machine.cached = none

variable {host : Host σ} {slot : Slot σ State} {n : Nat} {s s' : σ}

/-- What is kept stays so where the environment, what is remembered and what is kept of the machine stay the same. -/
theorem Kept.of_eq (h : Kept environment host slot n s) (henvironment : host.environment s' = host.environment s)
    (hlast : (slot.get s').lastUsed = (slot.get s).lastUsed)
    (hmachine : Instance.isDisabled environment = true → (slot.get s').machine.cached = (slot.get s).machine.cached) :
    Kept environment host slot n s' where
  environment_eq := henvironment.trans h.environment_eq
  within position hposition := h.within position (hlast ▸ hposition)
  machine hdisabled := (hmachine hdisabled).trans (h.machine hdisabled)

/-- A harmless change leaves it true. -/
theorem Kept.harmless (h : Kept environment host slot n s) {f : σ → σ} (hf : Harmless host slot f) :
    Kept environment host slot n (f s) :=
  h.of_eq (hf s).1 (congrArg State.lastUsed (hf s).2) fun _ => congrArg (fun state => state.machine.cached) (hf s).2

namespace Undisturbed

variable {τ υ : Type} (hu : Undisturbed w host slot)
include hu

/-- A part of what the chain keeps stands apart from the environment, and from all else that the chain keeps. -/
theorem comp_apart {inner : Slot State τ} {part : State → υ} (h : inner.Apart part) :
    (slot.comp inner).Apart fun s => (host.environment s, part (slot.get s)) := by
  intro x s
  have hpart : part (slot.get ((slot.comp inner).set x s)) = part (slot.get s) :=
    (congrArg part (slot.get_set _ s)).trans (h x (slot.get s))
  exact Prod.ext (hu.apart _ s) hpart

/-- A call of a resolver leaves alone the environment and what its fetch and its slot leave alone. -/
theorem identity_keeps {r : Refreshing σ} {part : State → υ}
    (hslot : r.slot.Apart fun s => (host.environment s, part (slot.get s)))
    (hfetch : r.fetch.Keeps fun s => (host.environment s, part (slot.get s))) (s : σ) :
    host.environment (r.identity.runIn w s).2 = host.environment s ∧
      part (slot.get (r.identity.runIn w s).2) = part (slot.get s) := by
  have hothers : ∀ wait s, (host.environment (w.during wait s), part (slot.get (w.during wait s))) =
      (host.environment s, part (slot.get s)) :=
    fun wait s => Prod.ext (hu.others wait s).1 (congrArg part (hu.others wait s).2)
  exact Prod.ext_iff.1 ((Refreshing.identity_keeps hslot hfetch).runIn hothers s)

/-- The resolver of the container leaves the state as it is between calls. -/
theorem container_kept (properties : Properties) (h : Kept environment host slot n s) :
    Kept environment host slot n
      (((Resolver.ofContainer host {} (slot.comp containerSlot) containerLock false).identity properties).runIn w s).2 := by
  let part (state : State) := (state.lastUsed, state.machine.cached)
  have hslot : (slot.comp containerSlot).Apart fun s => (host.environment s, part (slot.get s)) := hu.comp_apart fun _ _ => rfl
  have hfetch : (Container.fetch host {}).Keeps fun s => (host.environment s, part (slot.get s)) :=
    Container.fetch_keeps (hu.leaves.map fun x => (x.1, part x.2)) {}
  obtain ⟨henvironment, hpart⟩ :=
    hu.identity_keeps (r := .ofContainer host {} (slot.comp containerSlot) containerLock false) hslot hfetch s
  obtain ⟨hlast, hmachine⟩ := Prod.ext_iff.1 hpart
  exact h.of_eq henvironment hlast fun _ => hmachine

/-- So does the resolver of the machine while the metadata service is on. -/
theorem machine_kept (henabled : Instance.isDisabled environment = false) (settings : Settings) (properties : Properties)
    (h : Kept environment host slot n s) :
    Kept environment host slot n
      (((Resolver.ofInstance (metadataClient host slot settings) (slot.comp machineSlot) machineLock false).identity
        properties).runIn w s).2 := by
  have hslot : (slot.comp machineSlot).Apart fun s => (host.environment s, (slot.get s).lastUsed) := hu.comp_apart fun _ _ => rfl
  have htoken : (slot.comp tokenSlot).Apart fun s => (host.environment s, (slot.get s).lastUsed) := hu.comp_apart fun _ _ => rfl
  have hfetch : (Instance.fetch (metadataClient host slot settings)).Keeps fun s => (host.environment s, (slot.get s).lastUsed) :=
    Instance.fetch_keeps (hu.leaves.map fun x => (x.1, x.2.lastUsed)) htoken
  obtain ⟨henvironment, hlast⟩ := hu.identity_keeps
    (r := .ofInstance (metadataClient host slot settings) (slot.comp machineSlot) machineLock false) hslot hfetch s
  exact h.of_eq henvironment hlast fun hdisabled => absurd hdisabled (by simp [henabled])

/-- While it is off, that resolver fails without a trace. -/
theorem machine_fails (hdisabled : Instance.isDisabled environment = true) (settings : Settings) (properties : Properties) :
    ((Resolver.ofInstance (metadataClient host slot settings) (slot.comp machineSlot) machineLock false).identity
      properties).FailsIn w (Kept environment host slot n) := by
  intro s h
  have hoff : Instance.isDisabled (host.environment s) = true := h.environment_eq ▸ hdisabled
  have hfetch : (Instance.fetch (metadataClient host slot settings)).runIn w s = (.failed Instance.disabled, s) := by
    refine (Program.runIn_bind (Program.read host.environment) _ s).trans ?_
    have hread : (Program.read host.environment).runIn w s = (.value (host.environment s), s) := rfl
    rw [hread]
    dsimp only [Program.onValue]
    rw [if_pos hoff]
    rfl
  exact ⟨Instance.disabled, Refreshing.identity_runIn_of_failed (h.machine hdisabled) (hu.locks _ s) hfetch⟩

/-- If the file is the same, the resolvers before that of the machine do the same with the settings of the environment as without. -/
theorem resolvers_alike (n : Nat)
    (hfile : SharedResolver.path (environment.get? Profile.credentialsFileVariable) environment =
      SharedResolver.path none environment) :
    List.Forall₂ (fun r r' => ∀ properties,
        (r.identity properties).AlikeIn w (Kept environment host slot n) (r'.identity properties))
      [Resolver.static none, Resolver.environment host,
        Resolver.shared host (environment.get? Profile.variableName) (environment.get? Profile.credentialsFileVariable),
        Resolver.ofContainer host {} (slot.comp containerSlot) containerLock false]
      [Resolver.static none, Resolver.environment host, Resolver.shared host none none,
        Resolver.ofContainer host {} (slot.comp containerSlot) containerLock false] := by
  refine .cons (fun properties => .refl fun s hs => ?_) <| .cons (fun properties => .refl fun s hs => ?_) <|
    .cons (fun properties s hs => ?_) <| .cons (fun properties => .refl fun s hs => hu.container_kept properties hs) .nil
  · rw [Resolver.static, Program.runIn_ofExcept]
    exact hs
  · rw [environment_runIn]
    exact hs
  · rw [shared_runIn, shared_runIn, hs.environment_eq, hfile, SharedResolver.profileName_of_environment]
    refine ⟨rfl, ?_⟩
    cases SharedResolver.path none environment with
    | error f => exact hs
    | ok path => exact hs.harmless (hu.others .turn)

/-- What is remembered may be any of the first resolvers, or none. -/
theorem remember_kept {remembered : Option Nat} (hremembered : ∀ position, remembered = some position → position < n)
    (hs : Kept environment host slot n s) : Kept environment host slot n ((slot.comp lastUsedSlot).set remembered s) := by
  have hstate : slot.get ((slot.comp lastUsedSlot).set remembered s) = { slot.get s with lastUsed := remembered } :=
    slot.get_set _ s
  refine ⟨(hu.apart _ s).trans hs.environment_eq, fun position hposition => ?_, fun hdisabled => ?_⟩
  · rw [hstate] at hposition
    exact hremembered position hposition
  · rw [hstate]
    exact hs.machine hdisabled

/-- With the same file and the same switch, the chain without a configuration goes on with the chain of the environment's settings: its
resolvers do the same, but that there is one for the machine also while the metadata service is off. -/
theorem continued
    (hfile : SharedResolver.path (environment.get? Profile.credentialsFileVariable) environment =
      SharedResolver.path none environment)
    (hswitch : (Settings.ofEnvironment environment).metadataDisabled = Instance.isDisabled environment) :
    Chain.Continued w (Kept environment host slot (resolvers host slot (Settings.ofEnvironment environment)).length)
      (chain host slot (Settings.ofEnvironment environment)) (chain host slot {}) where
  lastUsed := rfl
  reuses := rfl
  resolvers := by
    generalize (resolvers host slot (Settings.ofEnvironment environment)).length = n
    have hbegun := hu.resolvers_alike n hfile
    dsimp only [chain]
    unfold resolvers
    rw [hswitch]
    cases henabled : Instance.isDisabled environment with
    | true =>
      refine ⟨_, _, rfl, hbegun, fun r hr properties => ?_⟩
      rw [List.mem_singleton.1 hr]
      exact hu.machine_fails henabled {} properties
    | false =>
      refine ⟨_, [], (List.append_nil _).symm, List.rel_append hbegun (.cons (fun properties => ?_) .nil), nofun⟩
      exact .refl fun s hs => hu.machine_kept henabled {} properties hs
  remembers position s hlt hs := hu.remember_kept (fun _ h => Option.some.inj h ▸ hlt) hs
  forgets s hs := hu.remember_kept nofun hs
  within position s hs hposition := hs.within position hposition

end Undisturbed

/-- Take a configuration that is resolved where the program gives nothing and no source says anything about the endpoint of the
metadata service and its mode. The default chain of that configuration and the one without a configuration look for the same profile.
They look at the same file exactly if its variable is not empty, and agree about the metadata service being off exactly if no true
value of the variable that says so has blanks around it. If both is so, then calls one after the other, from the first one on, are
answered alike and lead to the same state: each call gives the same identity with both chains, or fails with the failure of all
resolvers, unless the host itself cancels it with both. -/
theorem unset_configuration_changes_nothing {files : Files} {c : Configuration}
    (h : (SettingWorld.plain environment files).Resolves c)
    (hendpoint : (SettingWorld.plain environment files).Unset .metadataEndpoint)
    (hmode : (SettingWorld.plain environment files).Unset .metadataMode) :
    ∃ settings, Settings.ofConfiguration c = .ok settings ∧
      SharedResolver.profileName settings.profile environment = SharedResolver.profileName none environment ∧
      (SharedResolver.path settings.credentialsFile environment = SharedResolver.path none environment ↔
        environment.get? Profile.credentialsFileVariable ≠ some "") ∧
      (settings.metadataDisabled = Instance.isDisabled environment ↔
        ∀ v, environment.get? Instance.disabledVariable = some v → Setting.readBool? v = some true → Text.strip v = v) ∧
      ∀ (σ : Type) (w : Surroundings σ) (host : Host σ) (slot : Slot σ State), Undisturbed w host slot →
        environment.get? Profile.credentialsFileVariable ≠ some "" →
        (∀ v, environment.get? Instance.disabledVariable = some v → Setting.readBool? v = some true → Text.strip v = v) →
        ∀ (calls : List (Asking σ)) (s : σ), (∀ call ∈ calls, Harmless host slot call.before) →
          host.environment s = environment → slot.get s = {} →
          List.Forall₂ AnswersAlike ((chain host slot settings).resolver.answers w calls s).1
              ((chain host slot {}).resolver.answers w calls s).1 ∧
            ((chain host slot settings).resolver.answers w calls s).2 = ((chain host slot {}).resolver.answers w calls s).2 := by
  refine ⟨_, ofConfiguration_plain h hendpoint hmode, SharedResolver.profileName_of_environment environment,
    SharedResolver.path_of_environment_iff environment, metadataDisabled_iff environment, ?_⟩
  intro σ w host slot hu hfile hswitch calls s hcalls henvironment hfresh
  have hcontinued := hu.continued ((SharedResolver.path_of_environment_iff environment).2 hfile)
    ((metadataDisabled_iff environment).2 hswitch)
  refine hcontinued.answers_alike (fun call hcall s hs => hs.harmless (hcalls call hcall)) ⟨henvironment, ?_, ?_⟩
  · rw [hfresh]
    exact nofun
  · rw [hfresh]
    exact fun _ => rfl

/-! ## Rehearsals -/

/-- Nobody disturbs a rehearsal. -/
theorem rehearsal_undisturbed :
    Undisturbed Surroundings.quiet (Rehearsal.host (Slot.fst : Slot (Rehearsal × State) Rehearsal)) Slot.snd where
  others _ _ := ⟨rfl, rfl⟩
  locks _ _ := rfl
  apart _ _ := rfl
  leaves :=
    { draws := fun _ _ => rfl
      send := ScriptedService.send_keeps fun _ _ => rfl
      sendWithin := ScriptedService.sendWithin_keeps fun _ _ => rfl
      sleep := fun _ => Rehearsal.sleep_keeps fun _ => rfl }

/-- The credentials file of a home directory. -/
def keysPath : FilePath := ⟨"", ["home", ".aws", "credentials"]⟩

/-- The options of a profile in it. -/
def keysOptions : FieldMap String := FieldMap.ofList [("aws_access_key_id", "key"), ("aws_secret_access_key", "secret")]

/-- The file as it is read: with nothing but the default profile. -/
def keysIni : Ini := ⟨FieldMap.empty, FieldMap.ofList [("default", keysOptions)]⟩

/-- The variables lead to the default profile in a home directory with that file and no other. -/
structure AtHome (environment : FieldMap String) (files : Files) : Prop where
  home : environment.get? Profile.homeVariable = some "home"
  profile : environment.get? Profile.variableName = none
  configFile : environment.get? Profile.configFileVariable = none
  credentialsFile : nonempty? (environment.get? Profile.credentialsFileVariable) = none
  noConfig : files.status ⟨"", ["home", ".aws", "config"]⟩ = .missing
  keys : ∃ content, files.status keysPath = .file content ∧ Ini.read content = .ok keysIni

namespace AtHome

variable {files : Files} (h : AtHome environment files)
include h

/-- A path below the home directory begins there. -/
theorem belowHome (parts : List String) : Profile.belowHome environment parts = .ok ⟨"", "home" :: parts⟩ := by
  have hhome : FilePath.home? (some "home") = some ⟨"", ["home"]⟩ := by decide +kernel
  rw [Profile.belowHome, h.home, hhome]
  rfl

/-- A path that is not given lies below the home directory. -/
theorem path {value : Json} (hvalue : value.isTruthy = false) (parts : List String) :
    SettingSources.path environment value parts = .ok ⟨"", "home" :: parts⟩ := by
  unfold SettingSources.path
  rw [hvalue]
  exact h.belowHome parts

/-- There is no configuration file, and the credentials file holds the default profile. -/
theorem sources : (SettingWorld.plain environment files).sources =
    .ok ⟨SettingSources.ofTexts environment, FieldMap.empty, SettingSources.ofTexts keysOptions⟩ := by
  have hentry : ∀ name, (SettingSources.ofTexts environment).get? name = (environment.get? name).map Json.text :=
    FieldMap.get?_mapValues environment Json.text
  have hprofile : SettingSources.profileOf FieldMap.empty (SettingSources.ofTexts environment) = .null := by
    rw [SettingSources.profileOf, hentry, h.profile]
    rfl
  have hconfig : SettingSources.readConfigFile files environment (SettingSources.ofTexts environment) .null =
      .ok FieldMap.empty := by
    rw [SettingSources.readConfigFile, hentry, h.configFile]
    refine (congrArg (· >>= _) (h.path rfl [".aws", "config"])).trans ?_
    dsimp only [bind, Except.bind]
    rw [SettingSources.optionsIn, h.noConfig]
  have hcredentials : SettingSources.readCredentialsFile files environment FieldMap.empty (SettingSources.ofTexts environment)
      .null = .ok (SettingSources.ofTexts keysOptions) := by
    have hfile : (((environment.get? Profile.credentialsFileVariable).map Json.text).getD .null).isTruthy = false := by
      have hempty := Option.filter_eq_none_iff.1 h.credentialsFile
      cases hname : environment.get? Profile.credentialsFileVariable with
      | none => rfl
      | some name =>
        have hname : name = "" := by simpa using hempty name hname
        rw [hname]
        rfl
    obtain ⟨content, hstatus, hread⟩ := h.keys
    rw [SettingSources.readCredentialsFile, hentry]
    refine (congrArg (· >>= _) (h.path hfile [".aws", "credentials"])).trans ?_
    change SettingSources.optionsIn files keysPath (.text "default") = _
    rw [SettingSources.optionsIn, hstatus]
    dsimp only
    rw [hread]
    rfl
  calc (SettingWorld.plain environment files).sources
    _ = (do
          let configFile ← SettingSources.readConfigFile files environment (SettingSources.ofTexts environment)
            (SettingSources.profileOf FieldMap.empty (SettingSources.ofTexts environment))
          let credentialsFile ← SettingSources.readCredentialsFile files environment FieldMap.empty
            (SettingSources.ofTexts environment) (SettingSources.profileOf FieldMap.empty (SettingSources.ofTexts environment))
          return ⟨SettingSources.ofTexts environment, configFile, credentialsFile⟩) := SettingWorld.sources_eq _
    _ = .ok ⟨SettingSources.ofTexts environment, FieldMap.empty, SettingSources.ofTexts keysOptions⟩ := by
      rw [hprofile, hconfig, hcredentials]
      rfl

/-- So a setting without a variable and an option in it is set nowhere. -/
theorem unset {setting : Setting} (hvariable : setting.environmentName?.bind environment.get? = none)
    (hoption : setting.optionName?.bind keysOptions.get? = none) : (SettingWorld.plain environment files).Unset setting := by
  intro sources hsources source hsource
  cases hsources.symm.trans h.sources
  have hentry : ∀ (m : FieldMap String) (name? : Option String), name?.bind m.get? = none →
      name?.bind (SettingSources.ofTexts m).get? = none := by
    intro m name? hnone
    cases name? with
    | none => rfl
    | some name =>
      have hname : m.get? name = none := hnone
      rw [Option.bind_some, SettingSources.ofTexts, FieldMap.get?_mapValues, hname]
      rfl
  cases source with
  | constructor => rfl
  | environment => exact hentry environment _ hvariable
  | configFile => cases hname : setting.optionName? <;> simp [Configuration.entry?, Setting.key?, Configuration.held, hname]
  | credentialsFile => exact hentry keysOptions _ hoption
  | default => exact absurd rfl hsource
  | inCode => rfl

/-- The default profile gives its credentials, if no other file is asked for. -/
theorem shared_runIn {host : Host σ} {s : σ} (henvironment : host.environment s = environment)
    (hfiles : host.files s = files) (properties : Properties) :
    ((Resolver.shared host none none).identity properties).runIn Surroundings.quiet s =
      (.value (.credentials (Credentials.ofTexts "key" "secret" none none)), s) := by
  have hpath : SharedResolver.path none environment = .ok keysPath := by
    unfold SharedResolver.path
    rw [h.credentialsFile]
    exact h.belowHome [".aws", "credentials"]
  have hname : SharedResolver.profileName none environment = "default" := by
    rw [SharedResolver.profileName, h.profile]
    rfl
  have hread : Profile.read? files keysPath "default" = .ok (some keysOptions) := by
    obtain ⟨content, hstatus, hread⟩ := h.keys
    rw [Profile.read?, Files.content?, hstatus]
    dsimp only
    rw [hread]
    rfl
  have hresolve : SharedResolver.resolve files "default" keysPath =
      .ok (.credentials (Credentials.ofTexts "key" "secret" none none)) := by
    rw [SharedResolver.resolve, hread]
    rfl
  have hquiet : Surroundings.quiet.during .turn s = s := rfl
  rw [SignedCall.shared_runIn, henvironment, hpath]
  dsimp only
  rw [hquiet, hname, hfiles, hresolve]
  rfl

/-- The configuration of such a world resolves if its variables can be read. -/
theorem resolves
    (hread : (Configuration.resolve { given := FieldMap.empty }
      (.ok ⟨SettingSources.ofTexts environment, FieldMap.empty, SettingSources.ofTexts keysOptions⟩)).2 = .ok ()) :
    (SettingWorld.plain environment files).Resolves (SettingWorld.plain environment files).outcome := by
  refine ⟨_, rfl, Prod.ext rfl ?_⟩
  rw [h.sources]
  exact hread

end AtHome

/-- A home directory with a credentials file. -/
def homeFiles : Files :=
  ⟨[("home/.aws/credentials",
    .file (Text.Utf8.encode "[default]\naws_access_key_id=key\naws_secret_access_key=secret\n"))], by decide⟩

/-- An environment with that directory, where the metadata service is off. -/
def homely : FieldMap String := FieldMap.ofList [(Profile.homeVariable, "home"), (Instance.disabledVariable, "TRUE")]

/-- The same environment with an empty variable for the credentials file. -/
def pathless : FieldMap String := homely.insert Profile.credentialsFileVariable ""

/-- Variables that name the home directory and nothing else lead to its credentials file. -/
theorem atHome_of_variables {environment : FieldMap String} (hhome : environment.get? Profile.homeVariable = some "home")
    (hprofile : environment.get? Profile.variableName = none) (hconfig : environment.get? Profile.configFileVariable = none)
    (hfile : nonempty? (environment.get? Profile.credentialsFileVariable) = none) : AtHome environment homeFiles where
  home := hhome
  profile := hprofile
  configFile := hconfig
  credentialsFile := hfile
  noConfig := by decide +kernel
  keys := ⟨Text.Utf8.encode "[default]\naws_access_key_id=key\naws_secret_access_key=secret\n", by cbv, by cbv⟩

/-- The environment leads to the credentials file of the home directory. -/
theorem atHome_homely : AtHome homely homeFiles := atHome_of_variables rfl rfl rfl rfl

/-- An empty variable for the credentials file leads to the same file. -/
theorem atHome_pathless : AtHome pathless homeFiles := atHome_of_variables rfl rfl rfl rfl

/-- A configuration to which nothing is given resolves in that environment. -/
theorem resolves_homely : (SettingWorld.plain homely homeFiles).Resolves (SettingWorld.plain homely homeFiles).outcome :=
  atHome_homely.resolves rfl

/-- It resolves with the empty variable, too. -/
theorem resolves_pathless : (SettingWorld.plain pathless homeFiles).Resolves (SettingWorld.plain pathless homeFiles).outcome :=
  atHome_pathless.resolves rfl

/-- A rehearsal in that directory, before the first call. -/
def opening (environment : FieldMap String) : Rehearsal × State :=
  ({ now := Rehearsal.start, environment, files := homeFiles }, {})

/-- The chain of some settings in a rehearsal. -/
def rehearsedChain (settings : Settings) : Chain (Rehearsal × State) := chain (Rehearsal.host Slot.fst) Slot.snd settings

/-- In that environment the chain of the configuration answers two calls like the one without. -/
theorem unset_configuration_changes_nothing_homely :
    (SettingWorld.plain homely homeFiles).Resolves (SettingWorld.plain homely homeFiles).outcome ∧
      (SettingWorld.plain homely homeFiles).Unset .metadataEndpoint ∧
      (SettingWorld.plain homely homeFiles).Unset .metadataMode ∧
      ∃ settings, Settings.ofConfiguration (SettingWorld.plain homely homeFiles).outcome = .ok settings ∧
        List.Forall₂ AnswersAlike
          ((rehearsedChain settings).resolver.answers Surroundings.quiet [{}, {}] (opening homely)).1
          ((rehearsedChain {}).resolver.answers Surroundings.quiet [{}, {}] (opening homely)).1 := by
  have hendpoint : (SettingWorld.plain homely homeFiles).Unset .metadataEndpoint := atHome_homely.unset rfl rfl
  have hmode : (SettingWorld.plain homely homeFiles).Unset .metadataMode := atHome_homely.unset rfl rfl
  obtain ⟨settings, hsettings, -, -, -, halike⟩ := unset_configuration_changes_nothing resolves_homely hendpoint hmode
  have hswitch : ∀ v, homely.get? Instance.disabledVariable = some v → Setting.readBool? v = some true → Text.strip v = v := by
    intro v hv _
    cases hv
    decide +kernel
  have hcalls : ∀ call ∈ [({} : Asking (Rehearsal × State)), {}], Harmless (Rehearsal.host Slot.fst) Slot.snd call.before := by
    intro call hcall
    rcases List.mem_cons.1 hcall with rfl | hcall
    · exact fun _ => ⟨rfl, rfl⟩
    · rw [List.mem_singleton.1 hcall]
      exact fun _ => ⟨rfl, rfl⟩
  exact ⟨resolves_homely, hendpoint, hmode, settings, hsettings,
    (halike _ _ _ _ rehearsal_undisturbed (by decide) hswitch _ (opening homely) hcalls rfl rfl).1⟩

/-- Neither the caller nor the variables give credentials there. -/
theorem nothing_given :
    ((Resolver.static none).identity FieldMap.empty).runIn Surroundings.quiet (opening pathless) =
        (.failed StaticResolver.unconfigured, opening pathless) ∧
      ((Resolver.environment (Rehearsal.host Slot.fst)).identity FieldMap.empty).runIn Surroundings.quiet (opening pathless) =
        (.failed EnvironmentResolver.incomplete, opening pathless) := by
  refine ⟨rfl, ?_⟩
  rw [environment_runIn]
  exact Prod.ext (rfl : Outcome.of ((EnvironmentResolver.resolve pathless).map Identity.credentials) = _) rfl

/-- The chain without a configuration finds the default profile. -/
theorem profile_found :
    (((rehearsedChain {}).identity FieldMap.empty).runIn Surroundings.quiet (opening pathless)).1 =
      .value (.credentials (Credentials.ofTexts "key" "secret" none none)) := by
  rw [Chain.identity_runIn]
  change (((rehearsedChain {}).walk FieldMap.empty (Resolver.static none :: Resolver.environment _ ::
    Resolver.shared _ none none :: _) 0 []).runIn _ _).1 = _
  rw [Chain.walk_runIn, nothing_given.1]
  dsimp only
  rw [Chain.walk_runIn, nothing_given.2]
  dsimp only
  rw [Chain.walk_runIn, atHome_pathless.shared_runIn rfl rfl]

/-- The chain with the settings of the environment looks for it where it is not. -/
theorem profile_missed :
    ∃ f, (((rehearsedChain (Settings.ofEnvironment pathless)).identity FieldMap.empty).runIn Surroundings.quiet
      (opening pathless)).1 = .failed f := by
  have hshared : ∃ f, ((Resolver.shared (Rehearsal.host Slot.fst) (pathless.get? Profile.variableName)
      (pathless.get? Profile.credentialsFileVariable)).identity FieldMap.empty).runIn Surroundings.quiet (opening pathless) =
        (.failed f, opening pathless) := by
    have hhere : homeFiles.status ⟨"", []⟩ = .directory := by decide +kernel
    have hread : ∀ name, SharedResolver.resolve homeFiles name ⟨"", []⟩ =
        (SharedResolver.ofOptions name ⟨"", []⟩ none).map Identity.credentials := by
      intro name
      rw [SharedResolver.resolve, Profile.read?, Files.content?, hhere]
      rfl
    have hpath : SharedResolver.path (pathless.get? Profile.credentialsFileVariable) pathless = .ok ⟨"", []⟩ := rfl
    have henvironment : (Rehearsal.host (Slot.fst : Slot (Rehearsal × State) Rehearsal)).environment (opening pathless) =
        pathless := rfl
    have hfiles : (Rehearsal.host (Slot.fst : Slot (Rehearsal × State) Rehearsal)).files
        (Surroundings.quiet.during .turn (opening pathless)) = homeFiles := rfl
    rw [shared_runIn, henvironment, hpath]
    dsimp only
    rw [hfiles, hread]
    exact ⟨_, rfl⟩
  have hcontainer : ∃ f, ((Resolver.ofContainer (Rehearsal.host Slot.fst) {} (Slot.snd.comp containerSlot) containerLock
      false).identity FieldMap.empty).runIn Surroundings.quiet (opening pathless) = (.failed f, opening pathless) :=
    ⟨_, Refreshing.identity_runIn_of_failed rfl rfl rfl⟩
  have hfails : ∀ r ∈ (rehearsedChain (Settings.ofEnvironment pathless)).resolvers,
      (r.identity FieldMap.empty).FailsIn Surroundings.quiet fun s => s = opening pathless := by
    have hoff : (Settings.ofEnvironment pathless).metadataDisabled = true := by decide +kernel
    rintro r hr _ rfl
    dsimp only [rehearsedChain, chain] at hr
    rw [resolvers, hoff, if_pos rfl, List.append_nil] at hr
    simp only [List.mem_cons, List.not_mem_nil, or_false] at hr
    obtain rfl | rfl | rfl | rfl := hr
    · exact ⟨_, nothing_given.1⟩
    · exact ⟨_, nothing_given.2⟩
    · exact hshared
    · exact hcontainer
  obtain ⟨f, -, hf⟩ := (rehearsedChain (Settings.ofEnvironment pathless)).walk_failing hfails 0 [] rfl
  rw [Chain.identity_runIn]
  exact ⟨f, congrArg Prod.fst hf⟩

/-- An empty variable for the credentials file is a path to the configuration, and no path to the chain without one. -/
theorem unset_configuration_changes_nothing_always_false :
    ¬∀ (environment : FieldMap String) (files : Files) (c : Configuration) (settings : Settings),
        (SettingWorld.plain environment files).Resolves c → (SettingWorld.plain environment files).Unset .metadataEndpoint →
        (SettingWorld.plain environment files).Unset .metadataMode → Settings.ofConfiguration c = .ok settings →
        ∀ (properties : Properties) (s : Rehearsal × State), s.1.environment = environment → s.1.files = files → s.2 = {} →
          AnswersAlike (((rehearsedChain settings).identity properties).runIn Surroundings.quiet s).1
            (((rehearsedChain {}).identity properties).runIn Surroundings.quiet s).1 := by
  intro hall
  have hendpoint : (SettingWorld.plain pathless homeFiles).Unset .metadataEndpoint := atHome_pathless.unset rfl rfl
  have hmode : (SettingWorld.plain pathless homeFiles).Unset .metadataMode := atHome_pathless.unset rfl rfl
  have halike := hall _ _ _ _ resolves_pathless hendpoint hmode (ofConfiguration_plain resolves_pathless hendpoint hmode)
    FieldMap.empty (opening pathless) rfl rfl rfl
  obtain ⟨f, hmissed⟩ := profile_missed
  rw [hmissed, profile_found] at halike
  cases halike

end DefaultChain

end SignedCall
