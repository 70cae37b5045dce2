import SignedCall.Proofs.Configuration.Precedence

/-!
# Configurations of two worlds

What a configuration is resolved from: what the program gives, the environment of the process, the files, and the sources that
are handed over in place of these. A setting has the same value and the same source in two such worlds if they agree in the
setting's own entries down to the source that decides, and also if they differ only in entries of other settings (`Beside`).
The profile and the place of the credentials file are no such entries, and neither is the place of the configuration file: they
select the sections that are read at all.

Main statements: `besides_of_read` (sources read in two worlds that differ beside a setting differ only beside it) and
`first_source_decides`.
-/

namespace SignedCall

/-- Two holdings of a source that differ at most in the entries of settings other than one, and in none that selects what is
read. -/
def Beside (setting : Setting) (source : SettingSource) (held held' : FieldMap Json) : Prop :=
  ∀ name, (∃ other : Setting, other ≠ setting ∧ other.selects = false ∧ other.key? source = some name) ∨
    held.get? name = held'.get? name

namespace Beside

variable {setting : Setting} {source : SettingSource} {held held' : FieldMap Json} {name : String}

/-- Every holding differs from itself in nothing. -/
theorem refl (setting : Setting) (source : SettingSource) (held : FieldMap Json) : Beside setting source held held :=
  fun _ => .inr rfl

/-- An entry of another setting that selects nothing may be put in. -/
theorem insert (other : Setting) (hne : other ≠ setting) (hselects : other.selects = false)
    (hkey : other.key? source = some name) (held : FieldMap Json) (value : Json) :
    Beside setting source held (held.insert name value) := by
  intro name'
  by_cases h : name' = name
  · exact .inl ⟨other, hne, hselects, h ▸ hkey⟩
  · exact .inr (by rw [FieldMap.get?_insert, if_neg h])

/-- The setting's own entry is the same. -/
theorem own (h : Beside setting source held held') (hkey : setting.key? source = some name) : held.get? name = held'.get? name := by
  rcases h name with ⟨other, hne, -, hother⟩ | heq
  · exact absurd (Setting.eq_of_key? hother hkey) hne
  · exact heq

/-- The entries of the settings that select what is read are the same. -/
theorem selecting (h : Beside setting source held held') {selecting : Setting} (hselects : selecting.selects = true)
    (hkey : selecting.key? source = some name) : held.get? name = held'.get? name := by
  rcases h name with ⟨other, -, hother, hkey'⟩ | heq
  · rw [Setting.eq_of_key? hkey' hkey, hselects] at hother; cases hother
  · exact heq

/-- An entry that belongs to no setting is the same. -/
theorem unclaimed (h : Beside setting source held held') (hkey : ∀ other : Setting, other.key? source ≠ some name) :
    held.get? name = held'.get? name := by
  rcases h name with ⟨other, -, -, hother⟩ | heq
  · exact absurd hother (hkey other)
  · exact heq

end Beside

namespace Profile

variable {environment environment' : FieldMap String}

/-- A place below the home directory depends on nothing but the home directory. -/
theorem belowHome_congr (h : environment.get? homeVariable = environment'.get? homeVariable) (parts : List String) :
    belowHome environment parts = belowHome environment' parts := by
  rw [belowHome, belowHome, h]

/-- What a path stands for depends on nothing but the home directory. -/
theorem expand_congr (h : environment.get? homeVariable = environment'.get? homeVariable) (path : String) :
    expand environment path = expand environment' path := by
  rw [expand, expand, h]

end Profile

namespace SettingSources

variable {home home' : FieldMap String} {given given' environment environment' : FieldMap Json} {setting : Setting}

/-- The place that a value gives depends on nothing else but the home directory. -/
theorem path_congr (h : home.get? Profile.homeVariable = home'.get? Profile.homeVariable) (value : Json) (parts : List String) :
    path home value parts = path home' value parts := by
  unfold path
  rw [Profile.belowHome_congr h]
  cases value with
  | text s => simp only [Profile.expand_congr h]
  | null | bool | number | array | object => rfl

/-- The profile is the same where nothing that selects it differs. -/
theorem profileOf_eq_of_beside (hgiven : Beside setting .constructor given given')
    (henvironment : Beside setting .environment environment environment') :
    profileOf given environment = profileOf given' environment' := by
  have hown : given.get? Setting.profile.name = given'.get? Setting.profile.name := hgiven.selecting rfl rfl
  have hvariable : environment.get? Profile.variableName = environment'.get? Profile.variableName :=
    henvironment.selecting (rfl : Setting.profile.selects = true) rfl
  rw [profileOf, profileOf, hown, hvariable]

/-- Files whose sections, wherever they can be read in both, differ only beside a setting. -/
def SectionsBeside (setting : Setting) (files files' : Files) : Prop :=
  ∀ path name values values', optionsIn files path name = .ok values → optionsIn files' path name = .ok values' →
    Beside setting .configFile values values'

/-- Every section differs from itself in nothing. -/
theorem SectionsBeside.refl (setting : Setting) (files : Files) : SectionsBeside setting files files := by
  intro path name values values' h h'
  cases h.symm.trans h'
  exact Beside.refl setting .configFile values

variable {files files' : Files} {profile : Json} {values values' : FieldMap Json}

/-- The options of the configuration file differ only beside a setting where nothing that selects them differs. -/
theorem beside_of_readConfigFile (hsections : SectionsBeside setting files files')
    (hhome : home.get? Profile.homeVariable = home'.get? Profile.homeVariable)
    (henvironment : Beside setting .environment environment environment')
    (h : readConfigFile files home environment profile = .ok values)
    (h' : readConfigFile files' home' environment' profile = .ok values') : Beside setting .configFile values values' := by
  have hvariable : environment.get? Profile.configFileVariable = environment'.get? Profile.configFileVariable :=
    henvironment.unclaimed fun other => by cases other <;> decide
  simp only [readConfigFile, ← hvariable, ← path_congr hhome] at h h'
  obtain ⟨path, hpath, h⟩ := Except.bind_ok h
  obtain ⟨path', hpath', h'⟩ := Except.bind_ok h'
  cases hpath.symm.trans hpath'
  exact hsections path _ values values' h h'

/-- So do the options of the credentials file. -/
theorem beside_of_readCredentialsFile (hsections : SectionsBeside setting files files')
    (hhome : home.get? Profile.homeVariable = home'.get? Profile.homeVariable)
    (hgiven : Beside setting .constructor given given')
    (henvironment : Beside setting .environment environment environment')
    (h : readCredentialsFile files home given environment profile = .ok values)
    (h' : readCredentialsFile files' home' given' environment' profile = .ok values') :
    Beside setting .credentialsFile values values' := by
  have hown : given.get? Setting.credentialsFile.name = given'.get? Setting.credentialsFile.name := hgiven.selecting rfl rfl
  have hvariable : environment.get? Profile.credentialsFileVariable = environment'.get? Profile.credentialsFileVariable :=
    henvironment.selecting (rfl : Setting.credentialsFile.selects = true) rfl
  simp only [readCredentialsFile, ← hown, ← hvariable, ← path_congr hhome] at h h'
  obtain ⟨path, hpath, h⟩ := Except.bind_ok h
  obtain ⟨path', hpath', h'⟩ := Except.bind_ok h'
  cases hpath.symm.trans hpath'
  exact hsections path _ values values' h h'

end SettingSources

/-! ## Worlds -/

/-- What a configuration is resolved from. The sources that are handed over take the place of those that would be read. -/
structure SettingWorld where
  given : FieldMap Json
  files : Files := FieldMap.empty
  process : FieldMap String := FieldMap.empty
  environment? : Option (FieldMap Json) := none
  configFile? : Option (FieldMap Json) := none
  credentialsFile? : Option (FieldMap Json) := none

namespace SettingWorld

/-- The environment that counts. -/
def environment (w : SettingWorld) : FieldMap Json := w.environment?.getD (SettingSources.ofTexts w.process)

/-- What all sources say. -/
def sources (w : SettingWorld) : Except Failure SettingSources :=
  SettingSources.read w.files w.process w.given w.environment? w.configFile? w.credentialsFile?

/-- The configuration of what is given resolves to another one. -/
def Resolves (w : SettingWorld) (c : Configuration) : Prop :=
  ∃ made, Configuration.make w.given = .ok made ∧ made.resolve w.sources = (c, .ok ())

/-- Two worlds agree in the entries of a setting down to a source. -/
def AgreesDownTo (setting : Setting) (source : SettingSource) (w w' : SettingWorld) : Prop :=
  ∀ sources sources', w.sources = .ok sources → w'.sources = .ok sources' → ∀ earlier : SettingSource,
    earlier.rank ≤ source.rank →
      Configuration.entry? w.given sources setting earlier = Configuration.entry? w'.given sources' setting earlier

/-- Two worlds differ only in entries of settings other than one, and in none that selects what is read. -/
structure DiffersBeside (setting : Setting) (w w' : SettingWorld) : Prop where
  given : Beside setting .constructor w.given w'.given
  environment : Beside setting .environment w.environment w'.environment
  home : w.process.get? Profile.homeVariable = w'.process.get? Profile.homeVariable
  sections : SettingSources.SectionsBeside setting w.files w'.files
  configFile : Option.Rel (Beside setting .configFile) w.configFile? w'.configFile?
  credentialsFile : Option.Rel (Beside setting .credentialsFile) w.credentialsFile? w'.credentialsFile?

variable {w w' : SettingWorld} {setting : Setting} {sources sources' : SettingSources}

/-- Reading the sources takes the environment that counts, and each file from where it is handed over or from its place. -/
theorem sources_eq (w : SettingWorld) :
    w.sources = (do
      let profile := SettingSources.profileOf w.given w.environment
      let configFile ← w.configFile?.elim (SettingSources.readConfigFile w.files w.process w.environment profile) .ok
      let credentialsFile ←
        w.credentialsFile?.elim (SettingSources.readCredentialsFile w.files w.process w.given w.environment profile) .ok
      return ⟨w.environment, configFile, credentialsFile⟩) := by
  unfold SettingWorld.sources SettingSources.read
  cases w.configFile? <;> cases w.credentialsFile? <;> rfl

/-- What each part of the sources is. -/
theorem sources_ok (h : w.sources = .ok sources) :
    sources.environment = w.environment ∧
      w.configFile?.elim (SettingSources.readConfigFile w.files w.process w.environment
        (SettingSources.profileOf w.given w.environment)) .ok = .ok sources.configFile ∧
      w.credentialsFile?.elim (SettingSources.readCredentialsFile w.files w.process w.given w.environment
        (SettingSources.profileOf w.given w.environment)) .ok = .ok sources.credentialsFile := by
  rw [sources_eq] at h
  obtain ⟨configFile, hconfig, h⟩ := Except.bind_ok h
  obtain ⟨credentialsFile, hcredentials, h⟩ := Except.bind_ok h
  cases h
  exact ⟨rfl, hconfig, hcredentials⟩

/-- Sources read in two worlds that differ beside a setting differ only beside it. -/
theorem besides_of_read (hbeside : DiffersBeside setting w w') (h : w.sources = .ok sources)
    (h' : w'.sources = .ok sources') :
    Beside setting .environment sources.environment sources'.environment ∧
      Beside setting .configFile sources.configFile sources'.configFile ∧
      Beside setting .credentialsFile sources.credentialsFile sources'.credentialsFile := by
  obtain ⟨henvironment, hconfig, hcredentials⟩ := sources_ok h
  obtain ⟨henvironment', hconfig', hcredentials'⟩ := sources_ok h'
  have hprofile := SettingSources.profileOf_eq_of_beside hbeside.given hbeside.environment
  rw [← hprofile] at hconfig' hcredentials'
  refine ⟨henvironment ▸ henvironment' ▸ hbeside.environment, ?_, ?_⟩
  · have hrel := hbeside.configFile
    generalize w.configFile? = handed at hrel hconfig
    generalize w'.configFile? = handed' at hrel hconfig'
    cases hrel with
    | some hvalues => cases hconfig; cases hconfig'; exact hvalues
    | none =>
      exact SettingSources.beside_of_readConfigFile hbeside.sections hbeside.home hbeside.environment hconfig hconfig'
  · have hrel := hbeside.credentialsFile
    generalize w.credentialsFile? = handed at hrel hcredentials
    generalize w'.credentialsFile? = handed' at hrel hcredentials'
    cases hrel with
    | some hvalues => cases hcredentials; cases hcredentials'; exact hvalues
    | none =>
      exact SettingSources.beside_of_readCredentialsFile hbeside.sections hbeside.home hbeside.given hbeside.environment
        hcredentials hcredentials'

/-- Worlds that differ beside a setting agree in all its entries. -/
theorem DiffersBeside.agreesDownTo (hbeside : DiffersBeside setting w w') (source : SettingSource) :
    AgreesDownTo setting source w w' := by
  intro sources sources' h h' earlier _
  obtain ⟨henvironment, hconfig, hcredentials⟩ := besides_of_read hbeside h h'
  have hheld : ∀ held held', Beside setting earlier held held' →
      (setting.key? earlier).bind held.get? = (setting.key? earlier).bind held'.get? := by
    intro held held' hheld
    cases hkey : setting.key? earlier with
    | none => rfl
    | some name => exact hheld.own hkey
  cases earlier with
  | constructor => exact hheld _ _ hbeside.given
  | environment => exact hheld _ _ henvironment
  | configFile => exact hheld _ _ hconfig
  | credentialsFile => exact hheld _ _ hcredentials
  | default | inCode => rfl

/-- A world that resolves has sources, and its configuration is resolved from them. -/
theorem Resolves.resolvedFrom {c : Configuration} (h : w.Resolves c) :
    ∃ sources, w.sources = .ok sources ∧ Configuration.ResolvedFrom w.given sources c := by
  obtain ⟨made, hmade, hresolve⟩ := h
  cases Configuration.make_ok hmade
  exact Configuration.resolve_ok hresolve

/-- In every world that resolves, each setting has the converted entry of the first source that sets it, and keeps its value and
its source in every other world that resolves and agrees down to that source, or differs only beside the setting. -/
theorem first_source_decides {c : Configuration} (h : w.Resolves c) :
    ∃ sources, w.sources = .ok sources ∧ ∀ setting, ∃ v entry, c.get setting = .ok v ∧
      Configuration.Decides w.given sources setting v.source entry ∧ setting.convert entry = .ok v.value ∧
      ∀ w' c', w'.Resolves c' → AgreesDownTo setting v.source w w' ∨ DiffersBeside setting w w' →
        c'.get setting = .ok v := by
  obtain ⟨sources, hsources, hfrom⟩ := h.resolvedFrom
  refine ⟨sources, hsources, fun setting => ?_⟩
  obtain ⟨v, hresolve, hget⟩ := hfrom.value setting
  obtain ⟨hsource, hconvert, -⟩ := Configuration.resolveSetting_ok hresolve
  have hdecides := Configuration.pick_decides w.given sources setting
  rw [hsource] at hdecides
  refine ⟨v, _, hget, hdecides, hconvert, fun w' c' h' hagree => ?_⟩
  obtain ⟨sources', hsources', hfrom'⟩ := h'.resolvedFrom
  have hdown : AgreesDownTo setting v.source w w' := hagree.elim id fun hbeside => hbeside.agreesDownTo v.source
  obtain ⟨v', hresolve', hget'⟩ := hfrom'.value setting
  have hsame := Configuration.resolveSetting_eq_of_agree hresolve (hdown sources sources' hsources hsources')
  cases hsame.symm.trans hresolve'
  exact hget'

/-- What the configuration of what is given resolves to, if it does. -/
def outcome (w : SettingWorld) : Configuration := (Configuration.resolve { given := w.given } w.sources).1

/-- A world without files, with a profile and a number of attempts in the environment. -/
def sample : SettingWorld where
  given := FieldMap.ofList [(Setting.metadataDisabled.name, .bool true)]
  process := FieldMap.ofList [("HOME", "home"), ("AWS_PROFILE", "dev"), ("AWS_MAX_ATTEMPTS", "7")]

/-- The same world with a key in the environment and a token from the program. -/
def neighbour : SettingWorld where
  given := sample.given.insert "aws_session_token" .null
  process := sample.process.insert "AWS_ACCESS_KEY_ID" "AKIDEXAMPLE"

/-- In both worlds the number of attempts is that of the environment, although they differ in other settings. -/
theorem first_source_decides_neighbour :
    sample.Resolves sample.outcome ∧ neighbour.Resolves neighbour.outcome ∧
      DiffersBeside .maxAttempts sample neighbour ∧
      neighbour.outcome.get .maxAttempts = .ok ⟨.number (.whole 7), .environment⟩ := by
  have hsample : sample.Resolves sample.outcome := ⟨_, rfl, Prod.ext rfl rfl⟩
  have hneighbour : neighbour.Resolves neighbour.outcome := ⟨_, rfl, Prod.ext rfl rfl⟩
  have henvironment : neighbour.environment = sample.environment.insert "AWS_ACCESS_KEY_ID" (.text "AKIDEXAMPLE") := rfl
  have hbeside : DiffersBeside .maxAttempts sample neighbour :=
    { given := Beside.insert .sessionToken (by decide) rfl rfl sample.given .null
      environment := henvironment ▸ Beside.insert .accessKeyId (by decide) rfl rfl sample.environment _
      home := rfl
      sections := SettingSources.SectionsBeside.refl .maxAttempts FieldMap.empty
      configFile := .none
      credentialsFile := .none }
  obtain ⟨sources, -, hall⟩ := first_source_decides hsample
  obtain ⟨v, entry, hget, -, -, hkeeps⟩ := hall .maxAttempts
  have hv : sample.outcome.get .maxAttempts = .ok ⟨.number (.whole 7), .environment⟩ := rfl
  cases hget.symm.trans hv
  exact ⟨hsample, hneighbour, hbeside, hkeeps neighbour neighbour.outcome hneighbour (.inr hbeside)⟩

end SettingWorld

end SignedCall
