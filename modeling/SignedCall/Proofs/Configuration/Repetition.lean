import SignedCall.Proofs.Configuration.Resolution

/-!
# Resolving again

A resolution may fail after it has put some values in place, and may be tried again from other sources. What a failed one left
behind is never seen: the configuration stays pending (`Pending`), and the next resolution says and leaves what it would of a
configuration just made (`Pending.resolve_cases`). Main statement: `first_success_counts`, about any number of resolutions one after the
other. All of them fail and nothing can be read in between, or the first that succeeds leaves what it leaves of a configuration just
made, and every later one is refused and leaves that as it is.
-/

namespace SignedCall

namespace Configuration

variable {given : FieldMap Json} {sources : SettingSources} {c c' : Configuration}

/-- A call that does not fit what was done before it: it fails, and with the kind of failure that says so. -/
def Untimely {α : Type} (answer : Except Failure α) : Prop := ∃ failure, answer = .error failure ∧ failure.kind = .runtime

/-- Nothing can be read from a configuration. -/
structure Unreadable (c : Configuration) : Prop where
  setting : ∀ setting, Untimely ((c.get setting).mapError ConfigurationFault.failure)
  identity : Untimely (c.identityProperties.mapError ConfigurationFault.failure)
  policy : Untimely c.retryPolicy

/-- A configuration of what is given that was not resolved successfully. Values may stand in its places all the same. -/
structure Pending (given : FieldMap Json) (c : Configuration) : Prop where
  given_eq : c.given = given
  unresolved : c.resolved = false

/-- A configuration that was just made has not been resolved. -/
theorem pending_made (given : FieldMap Json) : Pending given { given } := ⟨rfl, rfl⟩

/-- Nothing can be read from a configuration that is pending, whatever stands in its places. -/
theorem Pending.unreadable (h : Pending given c) : Unreadable c := by
  have hget : ∀ setting, c.get setting = .error .notResolved := by
    intro setting
    simp [get, h.unresolved]
  refine ⟨fun setting => ?_, ?_, ?_⟩
  · rw [hget]
    exact ⟨_, rfl, rfl⟩
  · have hidentity : c.identityProperties = .error .notResolved := by
      simp only [identityProperties, identitySettings, List.foldlM_cons, hget]
      rfl
    rw [hidentity]
    exact ⟨_, rfl, rfl⟩
  · have hpolicy : c.retryPolicy = .error ConfigurationFault.notResolved.failure := by
      simp only [retryPolicy, attempts, hget]
      rfl
    rw [hpolicy]
    exact ⟨_, rfl, rfl⟩

/-! ## One resolution -/

/-- Resolving settings leaves what is given and whether the configuration is resolved. -/
theorem Pending.pending_resolveAll (h : Pending given c) (sources : SettingSources) (settings : List Setting) :
    Pending given (resolveAll sources settings c).1 := by
  induction settings generalizing c with
  | nil => exact h
  | cons first rest ih =>
    simp only [resolveAll]
    cases resolveSetting c.given sources first with
    | error fault => exact h
    | ok v => exact ih ⟨h.given_eq, h.unresolved⟩

/-- Whether settings can be resolved depends on what is given and on the sources, not on what stands in the places. -/
theorem resolveAll_snd_congr (sources : SettingSources) (settings : List Setting) (h : c.given = c'.given) :
    (resolveAll sources settings c).2 = (resolveAll sources settings c').2 := by
  induction settings generalizing c c' with
  | nil => rfl
  | cons first rest ih =>
    simp only [resolveAll, h]
    cases resolveSetting c'.given sources first with
    | error fault => rfl
    | ok v => exact ih h

/-- When all settings are resolved, nothing is left of what stood in the places. -/
theorem Pending.resolveAll_eq (h : Pending given c) (h' : Pending given c') {last last' : Configuration}
    (hall : resolveAll sources Setting.all c = (last, .ok ()))
    (hall' : resolveAll sources Setting.all c' = (last', .ok ())) : last = last' := by
  have hlast : Pending given last := by simpa [hall] using h.pending_resolveAll sources Setting.all
  have hlast' : Pending given last' := by simpa [hall'] using h'.pending_resolveAll sources Setting.all
  -- Every place was written in both, with a value that depends on what is given and on the sources alone.
  have hplaces : last.values = last'.values := by
    funext setting
    obtain ⟨v, hv, hplace⟩ := ((resolveAll_ok hall).2 setting).2 setting.mem_all
    obtain ⟨v', hv', hplace'⟩ := ((resolveAll_ok hall').2 setting).2 setting.mem_all
    rw [h.given_eq] at hv
    rw [h'.given_eq] at hv'
    cases hv.symm.trans hv'
    rw [hplace, hplace']
  calc last = ⟨last.given, last.values, last.resolved⟩ := rfl
    _ = ⟨last'.given, last'.values, last'.resolved⟩ := by
      rw [hlast.given_eq, hlast'.given_eq, hplaces, hlast.unresolved, hlast'.unresolved]

/-- A resolution of a pending configuration fails as it would on one just made and leaves it pending, or it succeeds and leaves what
it would leave of one just made. -/
theorem Pending.resolve_cases (h : Pending given c) (read : Except Failure SettingSources) :
    (∃ fault, (resolve { given } read).2 = .error fault ∧ (c.resolve read).2 = .error fault ∧
      Pending given (c.resolve read).1) ∨
    ∃ last, resolve { given } read = (last, .ok ()) ∧ c.resolve read = (last, .ok ()) ∧ last.resolved = true := by
  have hmade := pending_made given
  cases read with
  | error failure =>
    left
    simp only [resolve, h.unresolved]
    exact ⟨_, rfl, rfl, h⟩
  | ok sources =>
    have hpending := h.pending_resolveAll sources Setting.all
    have hsame := resolveAll_snd_congr sources Setting.all (h.given_eq.trans hmade.given_eq.symm)
    simp only [resolve, h.unresolved, Bool.false_eq_true, if_false]
    cases hall : resolveAll sources Setting.all c with
    | mk last outcome =>
      cases hall' : resolveAll sources Setting.all { given } with
      | mk last' outcome' =>
        rw [hall] at hpending
        obtain rfl : outcome = outcome' := by simpa [hall, hall'] using hsame
        cases outcome with
        | error fault => exact .inl ⟨_, rfl, rfl, hpending⟩
        | ok _ =>
          obtain rfl := h.resolveAll_eq hmade hall hall'
          exact .inr ⟨_, rfl, rfl, rfl⟩

/-- After a success every resolution is refused, and changes nothing. -/
theorem resolve_of_resolved (h : c.resolved = true) (read : Except Failure SettingSources) :
    c.resolve read = (c, .error .resolvedAlready) := by
  simp [resolve, h]

/-! ## Any number of resolutions -/

/-- What each resolution of a configuration leaves and says, one after the other, each from what is read for it. -/
def resolveEach (c : Configuration) : List (Except Failure SettingSources) → List (Configuration × Except ConfigurationFault Unit)
  | [] => []
  | read :: rest => c.resolve read :: resolveEach (c.resolve read).1 rest

/-- A configuration that is resolved refuses every other resolution and stays as it is. -/
theorem resolveEach_of_resolved (h : c.resolved = true) (reads : List (Except Failure SettingSources)) :
    c.resolveEach reads = reads.map fun _ => (c, .error .resolvedAlready) := by
  induction reads with
  | nil => rfl
  | cons read rest ih => rw [resolveEach, resolve_of_resolved h, ih, List.map_cons]

/-- What a failed resolution leaves and says: a failure, and a configuration of which nothing can be read. -/
structure Failed (result : Configuration × Except ConfigurationFault Unit) : Prop where
  fault : ∃ fault, result.2 = .error fault
  unreadable : Unreadable result.1

/-- The resolutions of a pending configuration fail up to the first that succeeds, if one does. That one succeeds on a configuration
just made as well, and leaves the same; the later ones are refused. -/
theorem Pending.resolveEach_cases (h : Pending given c) (reads : List (Except Failure SettingSources)) :
    ∃ failed, (∀ result ∈ failed, Failed result) ∧ (c.resolveEach reads = failed ∨
      ∃ before read after last, reads = before ++ read :: after ∧ before.length = failed.length ∧
        resolve { given } read = (last, .ok ()) ∧
        c.resolveEach reads = failed ++ (last, .ok ()) :: after.map fun _ => (last, .error .resolvedAlready)) := by
  induction reads generalizing c with
  | nil => exact ⟨[], by simp, .inl rfl⟩
  | cons read rest ih =>
    rcases h.resolve_cases read with ⟨fault, -, hfault, hpending⟩ | ⟨last, hmade, hlast, hresolved⟩
    · have hfailed : Failed (c.resolve read) := ⟨⟨fault, hfault⟩, hpending.unreadable⟩
      obtain ⟨failed, hall, hrest⟩ := ih hpending
      refine ⟨c.resolve read :: failed, ?_, ?_⟩
      · intro result hmem
        rcases List.mem_cons.1 hmem with rfl | hmem
        · exact hfailed
        · exact hall result hmem
      · rcases hrest with hrest | ⟨before, next, after, last, rfl, hlength, hmade, hrest⟩
        · left
          rw [resolveEach, hrest]
        · right
          refine ⟨read :: before, next, after, last, rfl, ?_, hmade, ?_⟩
          · simp [hlength]
          · rw [resolveEach, hrest, List.cons_append]
    · refine ⟨[], by simp, .inr ⟨[], read, rest, last, rfl, rfl, hmade, ?_⟩⟩
      rw [resolveEach, hlast, resolveEach_of_resolved hresolved, List.nil_append]

/-- However often a configuration is resolved and from whatever is read, nothing can be read from it before the first success. That
success leaves all that the same resolution leaves of a configuration just made, which is the same after every later resolution: each
of them is refused as untimely. -/
theorem first_success_counts (given : FieldMap Json) (reads : List (Except Failure SettingSources)) :
    Unreadable { given } ∧ ∃ failed, (∀ result ∈ failed, Failed result) ∧ (resolveEach { given } reads = failed ∨
      ∃ before read after last refusal, reads = before ++ read :: after ∧ before.length = failed.length ∧
        resolve { given } read = (last, .ok ()) ∧
        resolveEach { given } reads = failed ++ (last, .ok ()) :: after.map (fun _ => (last, .error refusal)) ∧
        refusal.failure.kind = .runtime) := by
  have hmade := pending_made given
  obtain ⟨failed, hfailed, hall | ⟨before, read, after, last, hreads, hlength, hfirst, hall⟩⟩ := hmade.resolveEach_cases reads
  · exact ⟨hmade.unreadable, failed, hfailed, .inl hall⟩
  · refine ⟨hmade.unreadable, failed, hfailed, .inr ⟨before, read, after, last, .resolvedAlready, hreads, hlength, hfirst, hall, ?_⟩⟩
    rfl

end Configuration

end SignedCall
