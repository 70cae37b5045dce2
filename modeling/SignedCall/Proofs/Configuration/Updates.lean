import SignedCall.Proofs.Configuration.Resolution

/-!
# Updates by the program

Once a configuration is resolved every setting has an allowed value. An update puts another value in its place, and only the
number of attempts and the endpoint mode look at what is put there. Main statements: `updateAll_values` (what stands in each
place after any updates), `accepted_allowed_iff` (the settings whose updates let only allowed values through are these two) and
`allowed_after_updates`: these two keep an allowed value forever, and any other setting has one exactly as long as the program
puts one there.
-/

namespace SignedCall

namespace Configuration

variable {c c' : Configuration} {setting : Setting}

/-- An update by the program. One that is refused changes nothing. -/
def update (c : Configuration) (u : Setting × Json) : Configuration :=
  match c.set u.1 u.2 with
  | .ok updated => updated
  | .error _ => c

/-- Updates one after the other. -/
def updateAll (c : Configuration) (updates : List (Setting × Json)) : Configuration := updates.foldl update c

/-- The value that an update leaves for a setting, if it is an update of that setting and is not refused. -/
def updated? (setting : Setting) (u : Setting × Json) : Option Json :=
  if u.1 = setting then
    match checkUpdate setting u.2 with
    | .ok _ => some u.2
    | .error _ => none
  else none

/-- The value that the last accepted update leaves for a setting. -/
def lastUpdate? (setting : Setting) (updates : List (Setting × Json)) : Option Json :=
  (updates.filterMap (updated? setting)).getLast?

/-- A value that an update leaves was accepted. -/
theorem accepted_of_updated? {u : Setting × Json} {value : Json} (h : updated? setting u = some value) :
    checkUpdate setting value = .ok () := by
  unfold updated? at h
  split at h
  · split at h
    next hcheck => cases h; exact hcheck
    next => cases h
  · cases h

/-- So the last one was. -/
theorem accepted_of_lastUpdate? {updates : List (Setting × Json)} {value : Json}
    (h : lastUpdate? setting updates = some value) : checkUpdate setting value = .ok () := by
  obtain ⟨u, -, hu⟩ := List.mem_filterMap.1 (List.mem_of_getLast? h)
  exact accepted_of_updated? hu

/-- An update puts its value in place if that is accepted. -/
theorem update_eq (c : Configuration) (target : Setting) (value : Json) :
    c.update (target, value) = match checkUpdate target value with
      | .ok _ => c.put target ⟨value, .inCode⟩
      | .error _ => c := by
  unfold update set
  cases checkUpdate target value <;> rfl

/-- An update changes the value it is about, if it is accepted, and nothing else. -/
theorem update_values (c : Configuration) (u : Setting × Json) (setting : Setting) :
    (c.update u).values setting = ((updated? setting u).map (⟨·, .inCode⟩)).or (c.values setting) := by
  obtain ⟨target, value⟩ := u
  rw [update_eq]
  by_cases htarget : target = setting
  · subst htarget
    cases hcheck : checkUpdate target value <;> simp [updated?, hcheck, put_values]
  · have hne : setting ≠ target := fun h => htarget h.symm
    cases checkUpdate target value <;> simp [updated?, htarget, hne, put_values]

/-- An update leaves a resolved configuration resolved. -/
theorem update_resolved (c : Configuration) (u : Setting × Json) : (c.update u).resolved = c.resolved := by
  obtain ⟨target, value⟩ := u
  rw [update_eq]
  cases checkUpdate target value <;> rfl

/-- After any updates each place holds what the last accepted one left there, or what was there before. -/
theorem updateAll_values (c : Configuration) (updates : List (Setting × Json)) (setting : Setting) :
    (c.updateAll updates).values setting = ((lastUpdate? setting updates).map (⟨·, .inCode⟩)).or (c.values setting) := by
  induction updates generalizing c with
  | nil => rfl
  | cons u rest ih =>
    rw [updateAll, List.foldl_cons]
    refine (ih (c.update u)).trans ?_
    rw [update_values, lastUpdate?, lastUpdate?, List.filterMap_cons]
    cases updated? setting u with
    | none => rfl
    | some value => cases hlast : (rest.filterMap (updated? setting)).getLast? <;> simp [List.getLast?_cons, hlast]

/-- Updates leave a resolved configuration resolved. -/
theorem updateAll_resolved (c : Configuration) (updates : List (Setting × Json)) :
    (c.updateAll updates).resolved = c.resolved := by
  induction updates generalizing c with
  | nil => rfl
  | cons u rest ih => exact (ih (c.update u)).trans (c.update_resolved u)

/-- The settings whose updates let only allowed values through are the number of attempts and the endpoint mode. -/
theorem accepted_allowed_iff (setting : Setting) :
    (∀ value, checkUpdate setting value = .ok () → setting.check value = .ok ()) ↔
      setting = .maxAttempts ∨ setting = .metadataMode := by
  constructor
  · intro h
    -- an empty array is no allowed value of any setting
    have hrefused : setting.check (.array []) ≠ .ok () := by cases setting <;> simp [Setting.check, Setting.checkAttempts,
      Setting.checkMode, Setting.checkBool, Setting.checkText]
    cases setting <;> first | exact .inl rfl | exact .inr rfl | exact absurd (h (.array []) rfl) hrefused
  · rintro (rfl | rfl) value h <;> exact h

/-- After a successful resolution and any updates every setting has a value. That value is allowed if and only if the last one
that the program put there is; and of the number of attempts and the endpoint mode it always is. -/
theorem allowed_after_updates {read : Except Failure SettingSources} (h : c.resolve read = (c', .ok ()))
    (updates : List (Setting × Json)) (setting : Setting) :
    ∃ v, (c'.updateAll updates).get setting = .ok v ∧
      (setting.check v.value = .ok () ↔ ∀ value, lastUpdate? setting updates = some value → setting.check value = .ok ()) ∧
      (setting = .maxAttempts ∨ setting = .metadataMode → setting.check v.value = .ok ()) := by
  obtain ⟨sources, -, hfrom⟩ := resolve_ok h
  obtain ⟨first, hresolve, hfirst⟩ := hfrom.value setting
  have hallowed : setting.check first.value = .ok () := (resolveSetting_ok hresolve).2.2
  have hget : (c'.updateAll updates).get setting =
      .ok (((lastUpdate? setting updates).map (⟨·, .inCode⟩)).getD first) := by
    unfold get at hfirst ⊢
    rw [hfrom.resolved, if_pos rfl] at hfirst
    rw [updateAll_resolved, hfrom.resolved, if_pos rfl, updateAll_values, ← Except.ok.inj hfirst]
    cases lastUpdate? setting updates <;> rfl
  refine ⟨_, hget, ?_, fun hchecked => ?_⟩
  · cases lastUpdate? setting updates with
    | none => exact ⟨fun _ value hvalue => (nomatch hvalue), fun _ => hallowed⟩
    | some last => exact ⟨fun hlast value hvalue => Option.some.inj hvalue ▸ hlast, fun hall => hall last rfl⟩
  · cases hlast : lastUpdate? setting updates with
    | none => exact hallowed
    | some last => exact (accepted_allowed_iff setting).2 hchecked last (accepted_of_lastUpdate? hlast)

/-- Sources that say nothing. -/
def silent : SettingSources := ⟨FieldMap.empty, FieldMap.empty, FieldMap.empty⟩

/-- A configuration that takes every setting from its default. -/
def defaults : Configuration := (resolve { given := FieldMap.empty } (.ok silent)).1

/-- A number of attempts that was updated twice, the second time with no number, is still one that is allowed. -/
theorem allowed_after_updates_defaults :
    resolve { given := FieldMap.empty } (.ok silent) = (defaults, .ok ()) ∧
      ∃ v, (defaults.updateAll [(.maxAttempts, .number (.whole 7)), (.maxAttempts, .bool true)]).get .maxAttempts = .ok v ∧
        Setting.check .maxAttempts v.value = .ok () := by
  have hresolve : resolve { given := FieldMap.empty } (.ok silent) = (defaults, .ok ()) := rfl
  obtain ⟨v, hv, -, hallowed⟩ :=
    allowed_after_updates hresolve [(.maxAttempts, .number (.whole 7)), (.maxAttempts, .bool true)] .maxAttempts
  exact ⟨hresolve, v, hv, hallowed (.inl rfl)⟩

/-- A truth value may be updated to a text. -/
theorem allowed_after_updates_always_false :
    ¬∀ (given : FieldMap Json) (c c' : Configuration) (read : Except Failure SettingSources) (updates : List (Setting × Json))
        (setting : Setting) (v : SettingValue), make given = .ok c → c.resolve read = (c', .ok ()) →
        (c'.updateAll updates).get setting = .ok v → setting.check v.value = .ok () := by
  intro hall
  have hcheck := hall FieldMap.empty { given := FieldMap.empty } defaults (.ok silent) [(.reuseLastProvider, .text "yes")]
    .reuseLastProvider ⟨.text "yes", .inCode⟩ rfl rfl rfl
  cases hcheck

end Configuration

end SignedCall
