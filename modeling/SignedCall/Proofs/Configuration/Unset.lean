import SignedCall.Credentials.DefaultChain
import SignedCall.Proofs.Configuration.Worlds

/-!
# Configurations to which the program gives nothing

A setting that no source sets has its default, and a setting that only the environment may set has what its variable says. So the
default chain of a configuration to which the program gave nothing, and of which no source sets the endpoint of the metadata service
or its mode, is made from three variables. Main statements: `get_of_unset`, `get_of_variable` and `ofConfiguration_plain`.
-/

namespace SignedCall

/-- The default of a setting is read as itself. -/
theorem Setting.convert_default (setting : Setting) : setting.convert setting.default = .ok setting.default := by
  cases setting <;> rfl

namespace SettingWorld

/-- What a configuration is resolved from if the program gives nothing to it. -/
def plain (environment : FieldMap String) (files : Files) : SettingWorld where
  given := FieldMap.empty
  files
  process := environment

/-- No source sets a setting. -/
def Unset (w : SettingWorld) (setting : Setting) : Prop :=
  ∀ sources, w.sources = .ok sources → ∀ source, source ≠ .default → Configuration.entry? w.given sources setting source = none

variable {w : SettingWorld} {c : Configuration} {setting : Setting} {environment : FieldMap String} {files : Files}

/-- The value of a setting, given which source decides about it. -/
theorem Resolves.get_of_decides (h : w.Resolves c) (source : SettingSource) (entry : Json)
    (hdecides : ∀ sources, w.sources = .ok sources → Configuration.Decides w.given sources setting source entry) :
    ∃ value, c.get setting = .ok ⟨value, source⟩ ∧ setting.convert entry = .ok value := by
  obtain ⟨sources, hsources, hfrom⟩ := h.resolvedFrom
  obtain ⟨v, hresolve, hget⟩ := hfrom.value setting
  obtain ⟨hsource, hconvert, -⟩ := Configuration.resolveSetting_ok hresolve
  obtain ⟨hpicked, hentry⟩ := (Configuration.pick_decides w.given sources setting).unique (hdecides sources hsources)
  rw [hentry] at hconvert
  rw [← hpicked, hsource]
  exact ⟨v.value, hget, hconvert⟩

/-- A setting that no source sets has its default. -/
theorem Resolves.get_of_unset (h : w.Resolves c) (hunset : w.Unset setting) : c.get setting = .ok ⟨setting.default, .default⟩ := by
  obtain ⟨value, hget, hconvert⟩ := h.get_of_decides .default setting.default fun sources hsources =>
    ⟨rfl, fun earlier hlt => hunset sources hsources earlier fun heq => absurd hlt (heq ▸ Nat.lt_irrefl _)⟩
  rw [Setting.convert_default] at hconvert
  cases hconvert
  exact hget

/-- What the sources say if the program gives nothing: for settings without an option, nothing but what the variable says. -/
theorem entry_plain (hoption : setting.optionName? = none) {sources : SettingSources}
    (hsources : (plain environment files).sources = .ok sources) {source : SettingSource} (hsource : source ≠ .default) :
    Configuration.entry? FieldMap.empty sources setting source =
      if source = .environment then (setting.environmentName?.bind environment.get?).map Json.text else none := by
  have hvariable : sources.environment = SettingSources.ofTexts environment := (sources_ok hsources).1
  cases source with
  | constructor => rfl
  | environment =>
    have hheld : Configuration.entry? FieldMap.empty sources setting .environment =
        setting.environmentName?.bind sources.environment.get? := rfl
    rw [hheld, hvariable, if_pos rfl, Option.map_bind]
    congr
    exact funext fun name => FieldMap.get?_mapValues environment Json.text name
  | configFile => simp [Configuration.entry?, Setting.key?, hoption]
  | credentialsFile => simp [Configuration.entry?, Setting.key?, hoption]
  | default => exact absurd rfl hsource
  | inCode => rfl

/-- A setting that only its variable may set has what that says, or its default. -/
theorem Resolves.get_of_variable (h : (plain environment files).Resolves c) (setting : Setting)
    (hoption : setting.optionName? = none) :
    ∃ v, c.get setting = .ok v ∧
      setting.convert ((setting.environmentName?.bind environment.get?).elim setting.default Json.text) = .ok v.value := by
  cases hfound : setting.environmentName?.bind environment.get? with
  | none =>
    refine ⟨_, h.get_of_unset fun sources hsources source hsource => ?_, Setting.convert_default setting⟩
    refine (entry_plain hoption hsources hsource).trans ?_
    rw [hfound]
    exact ite_self none
  | some s =>
    have hdecides : ∀ sources, (plain environment files).sources = .ok sources →
        Configuration.Decides FieldMap.empty sources setting .environment (.text s) := by
      intro sources hsources
      have hne : SettingSource.environment ≠ .default := by decide
      have hentry := entry_plain hoption hsources hne
      rw [hfound] at hentry
      refine ⟨hentry, fun earlier hlt => ?_⟩
      obtain rfl : earlier = .constructor := SettingSource.eq_of_rank_eq (Nat.lt_one_iff.1 hlt)
      rfl
    obtain ⟨value, hget, hconvert⟩ := h.get_of_decides .environment (.text s) hdecides
    exact ⟨_, hget, hconvert⟩

/-- No value comes from the program itself. -/
theorem Resolves.not_explicit (h : (plain environment files).Resolves c) (setting : Setting) :
    ∃ v, c.get setting = .ok v ∧ v.source.isExplicit = false := by
  obtain ⟨sources, -, hfrom⟩ := h.resolvedFrom
  obtain ⟨v, hresolve, hget⟩ := hfrom.value setting
  have hfound := (Configuration.pick_decides (plain environment files).given sources setting).found
  rw [(Configuration.resolveSetting_ok hresolve).1] at hfound
  refine ⟨v, hget, ?_⟩
  cases hsource : v.source with
  | constructor => rw [hsource] at hfound; cases hfound
  | inCode => rw [hsource] at hfound; cases hfound
  | environment => rfl
  | configFile => rfl
  | credentialsFile => rfl
  | default => rfl

/-- So no part of an identity does. -/
theorem Resolves.identityProperties (h : (plain environment files).Resolves c) :
    c.identityProperties = .ok FieldMap.empty := by
  unfold Configuration.identityProperties
  generalize Configuration.identitySettings = settings
  induction settings with
  | nil => rfl
  | cons first rest ih =>
    obtain ⟨setting, name⟩ := first
    obtain ⟨v, hget, hexplicit⟩ := h.not_explicit setting
    rw [List.foldlM_cons]
    dsimp only
    rw [hget]
    dsimp only [bind, Except.bind, pure, Except.pure]
    rw [hexplicit]
    exact ih

end SettingWorld

namespace DefaultChain

/-- The settings that the variables of an environment make. -/
def Settings.ofEnvironment (environment : FieldMap String) : Settings where
  profile := environment.get? Profile.variableName
  credentialsFile := environment.get? Profile.credentialsFileVariable
  metadataDisabled := ((environment.get? Instance.disabledVariable).bind Setting.readBool?).getD false

variable {environment : FieldMap String} {files : Files} {c : Configuration}

/-- A text or nothing, read back from a value. -/
theorem text?_elim (s : Option String) : (s.elim Json.null Json.text).text? = s := by
  cases s <;> rfl

/-- Whether a variable that is read as a truth value says that the metadata service is off. -/
theorem disabled_isTruthy {s : Option String} {value : Json}
    (h : Setting.convert .metadataDisabled (s.elim (Setting.default .metadataDisabled) Json.text) = .ok value) :
    value.isTruthy = (s.bind Setting.readBool?).getD false := by
  cases s with
  | none => cases h; rfl
  | some s =>
    simp only [Option.elim, Setting.convert] at h
    cases hread : Setting.readBool? s with
    | none => rw [hread] at h; cases h
    | some b =>
      rw [hread] at h
      cases h
      rw [Option.bind_some, hread]
      rfl

/-- A configuration to which the program gave nothing makes the settings of the environment, if no source says anything about the
endpoint of the metadata service and its mode. -/
theorem ofConfiguration_plain (h : (SettingWorld.plain environment files).Resolves c)
    (hendpoint : (SettingWorld.plain environment files).Unset .metadataEndpoint)
    (hmode : (SettingWorld.plain environment files).Unset .metadataMode) :
    Settings.ofConfiguration c = .ok (Settings.ofEnvironment environment) := by
  obtain ⟨reuses, hreuses, hvalue⟩ := h.get_of_variable .reuseLastProvider rfl
  have hreusesValue : reuses.value = .bool true := (Except.ok.inj hvalue).symm
  obtain ⟨prefetches, hprefetches, hvalue⟩ := h.get_of_variable .backgroundRefresh rfl
  have hprefetchesValue : prefetches.value = .bool false := (Except.ok.inj hvalue).symm
  obtain ⟨profile, hprofile, hvalue⟩ := h.get_of_variable .profile rfl
  have hprofileValue : profile.value.text? = environment.get? Profile.variableName := by
    rw [← Except.ok.inj hvalue]
    exact text?_elim _
  obtain ⟨file, hfile, hvalue⟩ := h.get_of_variable .credentialsFile rfl
  have hfileValue : file.value.text? = environment.get? Profile.credentialsFileVariable := by
    rw [← Except.ok.inj hvalue]
    exact text?_elim _
  obtain ⟨disabled, hdisabled, hvalue⟩ := h.get_of_variable .metadataDisabled rfl
  have hdisabledValue : disabled.value.isTruthy =
      ((environment.get? Instance.disabledVariable).bind Setting.readBool?).getD false := disabled_isTruthy hvalue
  calc Settings.ofConfiguration c
    _ = .ok { given := none, profile := profile.value.text?, credentialsFile := file.value.text?
              metadata := MetadataConfig.standard, metadataDisabled := disabled.value.isTruthy
              reuses := reuses.value.isTruthy, prefetches := prefetches.value.isTruthy } := by
      simp only [Settings.ofConfiguration, hreuses, hprefetches, hprofile, hfile, hdisabled, h.get_of_unset hendpoint,
        h.get_of_unset hmode, h.identityProperties]
      rfl
    _ = .ok (Settings.ofEnvironment environment) := by
      rw [hreusesValue, hprefetchesValue, hprofileValue, hfileValue, hdisabledValue]
      rfl

end DefaultChain

end SignedCall
