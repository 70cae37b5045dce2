import SignedCall.Proofs.Configuration.Resolution

/-!
# The first source decides

Every setting has a name of its own in each source that may set it, and takes its value from the first source that does:
`Decides`. Main statements: `pick_decides` (what is picked is what the first source says), `Decides.unique` (there is no other
such source) and `resolveSetting_eq_of_agree` (what comes after the deciding source is not looked at).
-/

namespace SignedCall

/-- The place of a source in the order in which sources are asked. -/
def SettingSource.rank : SettingSource → Nat
  | .constructor => 0
  | .environment => 1
  | .configFile => 2
  | .credentialsFile => 3
  | .default => 4
  | .inCode => 5

/-- Sources of the same rank are the same. -/
theorem SettingSource.eq_of_rank_eq {source other : SettingSource} (h : source.rank = other.rank) : source = other := by
  cases source <;> cases other <;> first | rfl | cases h

namespace Setting

/-- The name under which a source holds a setting, if it may set it at all. -/
def key? (setting : Setting) : SettingSource → Option String
  | .constructor => some setting.name
  | .environment => setting.environmentName?
  | .configFile | .credentialsFile => setting.optionName?
  | .default | .inCode => none

/-- No two settings share a name in a source. -/
theorem eq_of_key? {setting other : Setting} {source : SettingSource} {name : String}
    (h : setting.key? source = some name) (h' : other.key? source = some name) : setting = other := by
  have hapart : ∀ a ∈ all, ∀ b ∈ all, (a.name = b.name → a = b) ∧
      (a.environmentName?.isSome → a.environmentName? = b.environmentName? → a = b) ∧
      (a.optionName?.isSome → a.optionName? = b.optionName? → a = b) := by decide
  obtain ⟨hname, henvironment, hoption⟩ := hapart setting setting.mem_all other other.mem_all
  cases source with
  | constructor => exact hname (Option.some.inj (h.trans h'.symm))
  | environment => exact henvironment (Option.isSome_of_eq_some h) (h.trans h'.symm)
  | configFile => exact hoption (Option.isSome_of_eq_some h) (h.trans h'.symm)
  | credentialsFile => exact hoption (Option.isSome_of_eq_some h) (h.trans h'.symm)
  | default => cases h
  | inCode => cases h

/-- The settings that select which sections of the files are read. -/
def selects : Setting → Bool
  | .profile | .credentialsFile => true
  | _ => false

end Setting

namespace Configuration

variable {given given' : FieldMap Json} {sources sources' : SettingSources} {setting : Setting} {source : SettingSource}
  {entry : Json}

/-- The entries of a source. -/
def held (given : FieldMap Json) (sources : SettingSources) : SettingSource → FieldMap Json
  | .constructor => given
  | .environment => sources.environment
  | .configFile => sources.configFile
  | .credentialsFile => sources.credentialsFile
  | .default | .inCode => FieldMap.empty

/-- What a source says about a setting, under that setting's own name. -/
def entry? (given : FieldMap Json) (sources : SettingSources) (setting : Setting) : SettingSource → Option Json
  | .default => some setting.default
  | source => (setting.key? source).bind (held given sources source).get?

/-- A source decides about a setting with an entry: it has the entry, and none of the sources before it has one. -/
structure Decides (given : FieldMap Json) (sources : SettingSources) (setting : Setting) (source : SettingSource)
    (entry : Json) : Prop where
  found : entry? given sources setting source = some entry
  before : ∀ earlier : SettingSource, earlier.rank < source.rank → entry? given sources setting earlier = none

/-- What is picked for a setting is what the first source says about it. -/
theorem pick_decides (given : FieldMap Json) (sources : SettingSources) (setting : Setting) :
    Decides given sources setting (pick given sources setting).source (pick given sources setting).value := by
  dsimp only [pick]
  split
  next value h => exact ⟨h, fun earlier hlt => absurd hlt (Nat.not_lt_zero _)⟩
  next value h henvironment =>
    refine ⟨henvironment, fun earlier hlt => ?_⟩
    cases earlier <;> first | exact h | exact absurd hlt (by simp [SettingSource.rank])
  next value h henvironment hconfig =>
    refine ⟨hconfig, fun earlier hlt => ?_⟩
    cases earlier <;> first | exact h | exact henvironment | exact absurd hlt (by simp [SettingSource.rank])
  next value h henvironment hconfig hcredentials =>
    refine ⟨hcredentials, fun earlier hlt => ?_⟩
    cases earlier <;> first | exact h | exact henvironment | exact hconfig | exact absurd hlt (by simp [SettingSource.rank])
  next h henvironment hconfig hcredentials =>
    refine ⟨rfl, fun earlier hlt => ?_⟩
    cases earlier <;>
      first | exact h | exact henvironment | exact hconfig | exact hcredentials | exact absurd hlt (by simp [SettingSource.rank])

/-- There is only one deciding source, with one entry. -/
theorem Decides.unique {source' : SettingSource} {entry' : Json} (h : Decides given sources setting source entry)
    (h' : Decides given sources setting source' entry') : source = source' ∧ entry = entry' := by
  have hsource : source = source' := by
    rcases Nat.lt_trichotomy source.rank source'.rank with hlt | heq | hlt
    · cases h.found.symm.trans (h'.before source hlt)
    · exact SettingSource.eq_of_rank_eq heq
    · cases h'.found.symm.trans (h.before source' hlt)
  subst hsource
  exact ⟨rfl, Option.some.inj (h.found.symm.trans h'.found)⟩

/-- The deciding source decides wherever the entries up to its own are the same. -/
theorem Decides.congr (h : Decides given sources setting source entry)
    (hagree : ∀ earlier : SettingSource, earlier.rank ≤ source.rank →
      entry? given sources setting earlier = entry? given' sources' setting earlier) :
    Decides given' sources' setting source entry :=
  ⟨(hagree source (Nat.le_refl _)).symm.trans h.found,
    fun earlier hlt => (hagree earlier (Nat.le_of_lt hlt)).symm.trans (h.before earlier hlt)⟩

/-- A setting resolves alike wherever its entries, down to that of the deciding source, are the same. -/
theorem resolveSetting_eq_of_agree {v : SettingValue} (h : resolveSetting given sources setting = .ok v)
    (hagree : ∀ earlier : SettingSource, earlier.rank ≤ v.source.rank →
      entry? given sources setting earlier = entry? given' sources' setting earlier) :
    resolveSetting given' sources' setting = .ok v := by
  rw [← (resolveSetting_ok h).1] at hagree
  obtain ⟨hsource, hvalue⟩ :=
    ((pick_decides given sources setting).congr hagree).unique (pick_decides given' sources' setting)
  have hpick : pick given' sources' setting = pick given sources setting := by
    calc pick given' sources' setting
      _ = ⟨(pick given' sources' setting).value, (pick given' sources' setting).source⟩ := rfl
      _ = ⟨(pick given sources setting).value, (pick given sources setting).source⟩ := by rw [hvalue, hsource]
  simpa only [resolveSetting, hpick] using h

end Configuration

end SignedCall
