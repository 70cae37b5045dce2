import SignedCall.Configuration.Basic

/-!
# What a resolved configuration holds

`ResolvedFrom` is what the rest of the theory knows of a successful resolution: every setting was read from the sources on its
own, and its value is what is found from then on. Main statements: `resolve_ok` (a resolution that succeeds leaves such a
configuration) and `resolveSetting_ok` (what it says about one setting: a value was picked, converted and allowed).
-/

namespace SignedCall

/-- A chain of two steps succeeds through both of them. -/
theorem Except.bind_ok {ε α β : Type} {x : Except ε α} {f : α → Except ε β} {b : β} (h : (x >>= f) = .ok b) :
    ∃ a, x = .ok a ∧ f a = .ok b := by
  cases x with
  | error e => cases h
  | ok a => exact ⟨a, rfl, h⟩

/-- The order of resolution leaves no setting out. -/
theorem Setting.mem_all (setting : Setting) : setting ∈ Setting.all := by
  cases setting <;> decide

namespace Configuration

variable {given : FieldMap Json} {sources : SettingSources} {setting : Setting} {c c' : Configuration}

/-- What stands in each place after a value was put in one. -/
theorem put_values (c : Configuration) (setting other : Setting) (v : SettingValue) :
    (c.put setting v).values other = if other = setting then some v else c.values other := rfl

/-- A configuration resolved from the sources: what was given is kept, and each setting holds the value it resolves to. -/
structure ResolvedFrom (given : FieldMap Json) (sources : SettingSources) (c : Configuration) : Prop where
  resolved : c.resolved = true
  given_eq : c.given = given
  value : ∀ setting, ∃ v, resolveSetting given sources setting = .ok v ∧ c.get setting = .ok v

/-- Resolving one setting picks a value, converts it and finds the result allowed. -/
theorem resolveSetting_ok {v : SettingValue} (h : resolveSetting given sources setting = .ok v) :
    (pick given sources setting).source = v.source ∧
      setting.convert (pick given sources setting).value = .ok v.value ∧ setting.check v.value = .ok () := by
  obtain ⟨value, hconvert, h⟩ := Except.bind_ok h
  obtain ⟨_, hcheck, h⟩ := Except.bind_ok h
  cases h
  exact ⟨rfl, hconvert, hcheck⟩

/-- After all settings of a list were resolved, each of them holds its value, and the others what they held before. -/
theorem resolveAll_ok {settings : List Setting} (h : resolveAll sources settings c = (c', .ok ())) :
    c'.given = c.given ∧ ∀ setting, (setting ∉ settings → c'.values setting = c.values setting) ∧
      (setting ∈ settings → ∃ v, resolveSetting c.given sources setting = .ok v ∧ c'.values setting = some v) := by
  induction settings generalizing c with
  | nil =>
    cases h
    exact ⟨rfl, fun setting => ⟨fun _ => rfl, fun hmem => absurd hmem List.not_mem_nil⟩⟩
  | cons first rest ih =>
    simp only [resolveAll] at h
    cases hfirst : resolveSetting c.given sources first with
    | error fault => rw [hfirst] at h; cases h
    | ok v =>
      rw [hfirst] at h
      obtain ⟨hgiven, hrest⟩ := ih h
      refine ⟨hgiven, fun setting => ⟨fun hnot => ?_, fun hmem => ?_⟩⟩
      · rw [List.mem_cons, not_or] at hnot
        rw [(hrest setting).1 hnot.2, put_values, if_neg hnot.1]
      · by_cases hin : setting ∈ rest
        · exact (hrest setting).2 hin
        · obtain rfl : setting = first := (List.mem_cons.1 hmem).resolve_right hin
          exact ⟨v, hfirst, by rw [(hrest setting).1 hin, put_values, if_pos rfl]⟩

/-- A resolution that succeeds has read its sources, and every setting from them. -/
theorem resolve_ok {read : Except Failure SettingSources} (h : c.resolve read = (c', .ok ())) :
    ∃ sources, read = .ok sources ∧ ResolvedFrom c.given sources c' := by
  unfold resolve at h
  split at h
  · cases h
  · cases read with
    | error failure => cases h
    | ok sources =>
      dsimp only at h
      cases hall : resolveAll sources Setting.all c with
      | mk last outcome =>
        rw [hall] at h
        cases outcome with
        | error fault => cases h
        | ok _ =>
          cases h
          obtain ⟨hgiven, hvalues⟩ := resolveAll_ok hall
          refine ⟨sources, rfl, rfl, hgiven, fun setting => ?_⟩
          obtain ⟨v, hresolve, hv⟩ := (hvalues setting).2 setting.mem_all
          exact ⟨v, hresolve, by simp [get, hv]⟩

/-- What a program gives stays with the configuration it makes. -/
theorem make_ok (h : make given = .ok c) : c = { given } := by
  unfold make at h
  split at h
  · cases h
  · cases h; rfl

end Configuration

end SignedCall
