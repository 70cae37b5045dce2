import SignedCall.Proofs.Configuration.Repetition
import SignedCall.Proofs.Configuration.Updates

/-!
# Updates and the resolution

A resolution writes every place, also those that the program updated before it. So an update lasts exactly if it was made after the
resolution (`updates_last_from_resolution_on`), and what the program put in place before it is lost without a failure
(`updates_last_always_false`).
-/

namespace SignedCall

namespace Configuration

variable {given : FieldMap Json} {c : Configuration} {setting : Setting}

/-- No source is the program's own update. -/
theorem pick_source_ne (given : FieldMap Json) (sources : SettingSources) (setting : Setting) :
    (pick given sources setting).source ≠ .inCode := by
  dsimp only [pick]
  split <;> simp

/-- A configuration stays pending under updates. -/
theorem Pending.pending_updateAll (h : Pending given c) (updates : List (Setting × Json)) : Pending given (c.updateAll updates) := by
  induction updates generalizing c with
  | nil => exact h
  | cons u rest ih =>
    refine ih ⟨?_, ?_⟩
    · obtain ⟨target, value⟩ := u
      rw [update_eq]
      cases checkUpdate target value <;> exact h.given_eq
    · rw [update_resolved, h.unresolved]

/-- The last of two runs of updates decides, if it has an update of the setting. -/
theorem lastUpdate?_append (setting : Setting) (before after : List (Setting × Json)) :
    lastUpdate? setting (before ++ after) = (lastUpdate? setting after).or (lastUpdate? setting before) := by
  simp [lastUpdate?, List.filterMap_append, List.getLast?_append]

/-- What is read from a resolved configuration after updates. -/
theorem get_updateAll (hresolved : c.resolved = true) {v : SettingValue} (h : c.get setting = .ok v)
    (updates : List (Setting × Json)) :
    (c.updateAll updates).get setting = .ok (((lastUpdate? setting updates).map (⟨·, .inCode⟩)).getD v) := by
  unfold get at h ⊢
  rw [hresolved, if_pos rfl] at h
  rw [updateAll_resolved, hresolved, if_pos rfl, updateAll_values, ← Except.ok.inj h]
  cases lastUpdate? setting updates <;> rfl

/-- After updates, a resolution and more updates, a setting holds its last update since the resolution, or else what a resolution
without any update leaves for it. So its last update of all is what it holds if and only if the setting was not updated before the
resolution, or was updated again since. -/
theorem updates_last_from_resolution_on {before : List (Setting × Json)} {read : Except Failure SettingSources}
    (h : (updateAll { given } before).resolve read = (c, .ok ())) (after : List (Setting × Json)) :
    resolve { given } read = (c, .ok ()) ∧ ∀ setting, ∃ v, c.get setting = .ok v ∧
      (c.updateAll after).get setting = .ok (((lastUpdate? setting after).map (⟨·, .inCode⟩)).getD v) ∧
      ((c.updateAll after).get setting = .ok (((lastUpdate? setting (before ++ after)).map (⟨·, .inCode⟩)).getD v) ↔
        lastUpdate? setting before = none ∨ lastUpdate? setting after ≠ none) := by
  have hmade : resolve { given } read = (c, .ok ()) := by
    rcases ((pending_made given).pending_updateAll before).resolve_cases read with ⟨fault, -, hfault, -⟩ | ⟨last, hmade, hlast, -⟩
    · simp [h] at hfault
    · cases h.symm.trans hlast
      exact hmade
  refine ⟨hmade, fun setting => ?_⟩
  obtain ⟨sources, -, hfrom⟩ := resolve_ok hmade
  obtain ⟨v, hv, hget⟩ := hfrom.value setting
  have hsource : v.source ≠ .inCode := (resolveSetting_ok hv).1 ▸ pick_source_ne given sources setting
  have hafter := get_updateAll hfrom.resolved hget after
  refine ⟨v, hget, hafter, ?_⟩
  rw [hafter, lastUpdate?_append]
  cases lastUpdate? setting after with
  | some value => simp
  | none =>
    cases lastUpdate? setting before with
    | none => simp
    | some value =>
      have hne : v ≠ ⟨value, .inCode⟩ := fun heq => hsource (heq ▸ rfl)
      simp [hne]

/-- What the program puts in place before it resolves. -/
def hasty : List (Setting × Json) := [(.maxAttempts, .number (.whole 7)), (.accessKeyId, .text "AKIDEXAMPLE")]

/-- What is resolved after that. -/
def overwritten : Configuration := ((updateAll { given := FieldMap.empty } hasty).resolve (.ok silent)).1

/-- Of two hasty updates the one that is made again lasts, and the other one does not. -/
theorem updates_last_from_resolution_on_again :
    (updateAll { given := FieldMap.empty } hasty).resolve (.ok silent) = (overwritten, .ok ()) ∧
      (overwritten.updateAll [(.maxAttempts, .number (.whole 2))]).get .maxAttempts = .ok ⟨.number (.whole 2), .inCode⟩ ∧
      (overwritten.updateAll [(.maxAttempts, .number (.whole 2))]).get .accessKeyId = .ok ⟨.null, .default⟩ := by
  have hresolve : (updateAll { given := FieldMap.empty } hasty).resolve (.ok silent) = (overwritten, .ok ()) := Prod.ext rfl rfl
  obtain ⟨-, hall⟩ := updates_last_from_resolution_on hresolve [(.maxAttempts, .number (.whole 2))]
  obtain ⟨attempts, -, hattempts, -⟩ := hall .maxAttempts
  obtain ⟨key, hkey, hkeyAfter, -⟩ := hall .accessKeyId
  have hdefault : overwritten.get .accessKeyId = .ok ⟨.null, .default⟩ := rfl
  cases hkey.symm.trans hdefault
  exact ⟨hresolve, hattempts, hkeyAfter⟩

/-- An update that is accepted before the resolution is lost: the number of attempts set to seven is the default again. -/
theorem updates_last_always_false :
    ¬∀ (given : FieldMap Json) (before after : List (Setting × Json)) (read : Except Failure SettingSources) (c : Configuration)
        (setting : Setting) (value : Json), (∀ u ∈ before ++ after, checkUpdate u.1 u.2 = .ok ()) →
        (updateAll { given } before).resolve read = (c, .ok ()) → lastUpdate? setting (before ++ after) = some value →
        (c.updateAll after).get setting = .ok ⟨value, .inCode⟩ := by
  intro hall
  have hget := hall FieldMap.empty [(.maxAttempts, .number (.whole 7))] [] (.ok silent) _ .maxAttempts (.number (.whole 7))
    (by simp [checkUpdate, Setting.checkAttempts]) rfl rfl
  cases hget

end Configuration

end SignedCall
