import SignedCall.Proofs.Http.Headers
import SignedCall.Proofs.Http.RoundTrip

/-!
# Building requests step by step

A builder keeps header fields under names without regard to letter case, and parameters under their exact names. What a snapshot of it
holds after any steps can be told name by name: a header field has the value that the last step on it gave (`header?_steps`), a
parameter those that its own steps make one after the other (`get?_steps`), and no step has a part in any other name
(`leave_steps`). `follows_steps` says so of every snapshot on the way.
-/

namespace SignedCall

/-- Whether no two names of header fields are the same but for letter case. -/
def Headers.Distinct (headers : Headers) : Prop := (headers.names.map Text.lower).Nodup

instance (headers : Headers) : Decidable headers.Distinct := inferInstanceAs (Decidable (List.Nodup _))

/-- The parameter that is changed. -/
def ParameterEdit.name : ParameterEdit → String
  | .add name _ => name
  | .set name _ => name
  | .remove name => name

/-- What a change makes of the values of its parameter, none if there is no such parameter. -/
def ParameterEdit.applied : ParameterEdit → Option (List String) → Option (List String)
  | .add _ value, values => some (values.getD [] ++ [value])
  | .set _ values, _ => some values
  | .remove _, _ => none

/-- One step of building a request. -/
inductive BuilderStep where
  | setHeader (name value : String)
  | removeHeader (name : String)
  | parameter (edit : ParameterEdit)
  /-- A snapshot is taken, and building goes on from it. -/
  | rebuild
  deriving DecidableEq, Repr

namespace BuilderStep

/-- What a step makes of the header field with a name: it leaves it alone, or gives it a value, or takes it away. -/
def onHeader? (name : String) : BuilderStep → Option (Option String)
  | .setHeader name' value => if Text.sameIgnoringCase name name' then some (some value) else none
  | .removeHeader name' => if Text.sameIgnoringCase name name' then some none else none
  | _ => none

/-- The change to the parameter with a name that a step makes, if it is on that parameter. -/
def onParameter? (name : String) : BuilderStep → Option ParameterEdit
  | .parameter edit => if name = edit.name then some edit else none
  | _ => none

/-- A step on a header field leaves those alone that have another name, letter case aside. -/
theorem isNone_onHeader? {name : String} {s : BuilderStep} (hs : (∃ value, s = .setHeader name value) ∨ s = .removeHeader name)
    (other : String) : (s.onHeader? other).isNone = !Text.sameIgnoringCase other name := by
  obtain ⟨value, rfl⟩ | rfl := hs <;> by_cases hname : Text.sameIgnoringCase other name = true <;> simp [onHeader?, hname]

/-- A step on a parameter leaves those alone that have another name. -/
theorem isNone_onParameter? (e : ParameterEdit) (other : String) :
    ((BuilderStep.parameter e).onParameter? other).isNone = decide (other ≠ e.name) := by
  by_cases hname : other = e.name <;> simp [onParameter?, hname]

/-- What some steps make of the header field with a name: the last one that is on it decides. -/
def headerAfter (name : String) (steps : List BuilderStep) (before : Option String) : Option String :=
  (steps.reverse.findSome? (onHeader? name)).getD before

/-- What some steps make of the values of the parameter with a name: those that are on it, one after the other. -/
def valuesAfter (name : String) (steps : List BuilderStep) (before : Option (List String)) : Option (List String) :=
  (steps.filterMap (onParameter? name)).foldl (fun values edit => edit.applied values) before

/-- What some steps leave as it is between two snapshots: the header fields and the parameters that none of them is on, with their
values and in their order, and all the rest. -/
structure Leave (steps : List BuilderStep) (before after : Request) : Prop where
  headers : after.headers.entries.filter (fun e => steps.all fun s => (s.onHeader? e.1).isNone) =
    before.headers.entries.filter fun e => steps.all fun s => (s.onHeader? e.1).isNone
  query : after.query.entries.filter (fun e => steps.all fun s => (s.onParameter? e.1).isNone) =
    before.query.entries.filter fun e => steps.all fun s => (s.onParameter? e.1).isNone
  rest : { after with headers := before.headers, query := before.query } = before

/-- What the first steps leave alone in a list, and then the last one, is what all of them leave alone. -/
theorem filter_all_concat {α : Type} {p : α → BuilderStep → Bool} {steps : List BuilderStep} {s : BuilderStep} {xs ys zs : List α}
    (h : ys.filter (fun x => steps.all (p x)) = xs.filter fun x => steps.all (p x))
    (h' : zs.filter (fun x => [s].all (p x)) = ys.filter fun x => [s].all (p x)) :
    zs.filter (fun x => (steps ++ [s]).all (p x)) = xs.filter fun x => (steps ++ [s]).all (p x) := by
  have hlast : ∀ xs : List α, xs.filter (fun x => (steps ++ [s]).all (p x)) =
      (xs.filter fun x => steps.all (p x)).filter fun x => [s].all (p x) := by
    intro xs
    simp [List.filter_filter, Bool.and_comm]
  have hfirst : ∀ xs : List α, xs.filter (fun x => (steps ++ [s]).all (p x)) =
      (xs.filter fun x => [s].all (p x)).filter fun x => steps.all (p x) := by
    intro xs
    simp [List.filter_filter]
  rw [hfirst, h', ← hfirst, hlast, h, ← hlast]

/-- What some steps leave and one more step leaves, they leave together. -/
theorem Leave.concat {steps : List BuilderStep} {s : BuilderStep} {r r' r'' : Request} (h : Leave steps r r')
    (h' : Leave [s] r' r'') : Leave (steps ++ [s]) r r'' := by
  refine ⟨filter_all_concat h.headers h'.headers, filter_all_concat h.query h'.query, ?_⟩
  have hrest := h.rest
  have hrest' := h'.rest
  cases r
  cases r'
  cases r''
  simp_all

end BuilderStep

namespace RequestBuilder

/-- A builder after one step. -/
def step (b : RequestBuilder) : BuilderStep → RequestBuilder
  | .setHeader name value => b.setHeader name value
  | .removeHeader name => b.removeHeader name
  | .parameter e => b.edit e
  | .rebuild => b.build.toBuilder

/-- A builder after some steps, one after the other. -/
def steps (b : RequestBuilder) (ss : List BuilderStep) : RequestBuilder := ss.foldl step b

/-- One more step comes after the others. -/
theorem steps_concat (b : RequestBuilder) (ss : List BuilderStep) (s : BuilderStep) : b.steps (ss ++ [s]) = (b.steps ss).step s := by
  simp [steps]

/-! ## One step -/

/-- No two names of header fields become the same but for letter case in a step. -/
theorem distinct_step {b : RequestBuilder} (h : b.headers.Distinct) (s : BuilderStep) : (b.step s).headers.Distinct := by
  have hremoved : ∀ name, (b.removeHeader name).headers.Distinct := fun name =>
    h.sublist ((List.filter_sublist.map Prod.fst).map Text.lower)
  cases s with
  | setHeader name value =>
    have hnames : (b.setHeader name value).headers.names.map Text.lower =
        (b.removeHeader name).headers.names.map Text.lower ++ [Text.lower name] := by
      rw [FieldMap.names, b.entries_setHeader]
      simp [FieldMap.names, removeHeader, FieldMap.filter]
    change ((b.setHeader name value).headers.names.map Text.lower).Nodup
    rw [hnames, List.nodup_append]
    refine ⟨hremoved name, by simp, ?_⟩
    intro lowered hlowered lowered' hlowered' heq
    rw [List.mem_singleton] at hlowered'
    obtain ⟨name', hname', rfl⟩ := List.mem_map.1 hlowered
    obtain ⟨e, he, rfl⟩ := List.mem_map.1 hname'
    have hother := (List.mem_filter.1 he).2
    simp [Text.sameIgnoringCase, heq, hlowered'] at hother
  | removeHeader name => exact hremoved name
  | parameter e => cases e <;> exact h
  | rebuild => exact h

/-- What is found of the header fields when one is taken away. -/
theorem header?_removeHeader (b : RequestBuilder) (name other : String) :
    (b.removeHeader name).build.header? other = if Text.sameIgnoringCase other name then none else b.build.header? other := by
  have hentries : (b.removeHeader name).build.headers.entries =
      b.headers.entries.filter fun e => !Text.sameIgnoringCase e.1 name := rfl
  unfold Request.header? Headers.find?
  rw [hentries]
  split_ifs with hother
  · have hnone : (b.headers.entries.filter fun e => !Text.sameIgnoringCase e.1 name).find?
        (fun e => Text.sameIgnoringCase e.1 other) = none := by
      rw [List.find?_eq_none]
      intro e he hsame
      have hname := (List.mem_filter.1 he).2
      rw [Text.sameIgnoringCase_iff] at hother hsame
      simp [Text.sameIgnoringCase, hsame, hother] at hname
    rw [hnone]
    rfl
  · rw [Request.find?_filter_of_imp]
    · rfl
    · intro e hsame
      rw [Text.sameIgnoringCase_iff] at hother hsame
      simp [Text.sameIgnoringCase, hsame, hother]

/-- A header field is found with the value that a step on it gives, and as before after any other step. -/
theorem header?_step (b : RequestBuilder) (s : BuilderStep) (name : String) :
    (b.step s).build.header? name = (s.onHeader? name).getD (b.build.header? name) := by
  cases s with
  | setHeader name' value =>
    rw [step, (b.sets_setHeader name' value).header?, BuilderStep.onHeader?]
    split <;> rfl
  | removeHeader name' =>
    rw [step, header?_removeHeader, BuilderStep.onHeader?]
    split <;> rfl
  | parameter e => cases e <;> rfl
  | rebuild => rfl

/-- A change to the parameters makes of the values under a name what it makes of those of its own parameter. -/
theorem get?_edit (b : RequestBuilder) (e : ParameterEdit) (name : String) :
    (b.edit e).query.get? name = if name = e.name then e.applied (b.query.get? name) else b.query.get? name := by
  cases e with
  | add name' value =>
    change (FieldMap.insert _ _ _).get? name = _
    rw [FieldMap.get?_insert]
    by_cases hname : name = name' <;> simp [hname, ParameterEdit.name, ParameterEdit.applied]
  | set name' values => exact FieldMap.get?_insert ..
  | remove name' => exact FieldMap.get?_erase ..

/-- The values of a parameter are those that a step on it makes, and as before after any other step. -/
theorem get?_step (b : RequestBuilder) (s : BuilderStep) (name : String) :
    (b.step s).build.query.get? name =
      ((s.onParameter? name).map fun e => e.applied (b.build.query.get? name)).getD (b.build.query.get? name) := by
  cases s with
  | setHeader name' value => rfl
  | removeHeader name' => rfl
  | parameter e =>
    change (b.edit e).query.get? name = _
    rw [get?_edit, BuilderStep.onParameter?]
    split <;> rfl
  | rebuild => rfl

/-- A change to the parameters leaves the entries of all other parameters as they are. -/
theorem filter_edit (b : RequestBuilder) (e : ParameterEdit) :
    (b.edit e).query.entries.filter (fun entry => entry.1 ≠ e.name) = b.query.entries.filter fun entry => entry.1 ≠ e.name := by
  cases e with
  | add name value => exact FieldMap.filter_putEntry ..
  | set name values => exact FieldMap.filter_putEntry ..
  | remove name =>
    change (b.query.entries.filter fun entry => entry.1 ≠ name).filter (fun entry => entry.1 ≠ name) = _
    rw [List.filter_filter]
    simp only [Bool.and_self]
    rfl

/-- A step has no part in any name but its own. -/
theorem leave_step (b : RequestBuilder) (s : BuilderStep) : BuilderStep.Leave [s] b.build (b.step s).build := by
  cases s with
  | setHeader name value =>
    refine ⟨?_, rfl, rfl⟩
    simp only [List.all_cons, List.all_nil, Bool.and_true, BuilderStep.isNone_onHeader? (.inl ⟨value, rfl⟩)]
    exact (b.sets_setHeader name value).others
  | removeHeader name =>
    refine ⟨?_, rfl, rfl⟩
    simp only [List.all_cons, List.all_nil, Bool.and_true, BuilderStep.isNone_onHeader? (.inr rfl)]
    change (b.headers.entries.filter _).filter _ = _
    rw [List.filter_filter]
    simp [build]
  | parameter e =>
    refine ⟨?_, ?_, ?_⟩
    · cases e <;> rfl
    · simp only [List.all_cons, List.all_nil, Bool.and_true, BuilderStep.isNone_onParameter?]
      exact b.filter_edit e
    · cases e <;> rfl
  | rebuild => exact ⟨rfl, rfl, b.build.build_toBuilder⟩

/-! ## Any steps -/

/-- No steps make names of header fields the same but for letter case. -/
theorem distinct_steps {b : RequestBuilder} (h : b.headers.Distinct) (ss : List BuilderStep) : (b.steps ss).headers.Distinct := by
  induction ss using List.reverseRecOn with
  | nil => exact h
  | append_singleton ss s ih =>
    rw [steps_concat]
    exact distinct_step ih s

/-- After some steps a header field has the value that the last step on it gave. -/
theorem header?_steps (b : RequestBuilder) (ss : List BuilderStep) (name : String) :
    (b.steps ss).build.header? name = BuilderStep.headerAfter name ss (b.build.header? name) := by
  induction ss using List.reverseRecOn with
  | nil => rfl
  | append_singleton ss s ih =>
    rw [steps_concat, header?_step, ih]
    unfold BuilderStep.headerAfter
    rw [List.reverse_append, List.reverse_singleton, List.singleton_append, List.findSome?_cons]
    cases s.onHeader? name <;> rfl

/-- After some steps a parameter has the values that its own steps made one after the other. -/
theorem get?_steps (b : RequestBuilder) (ss : List BuilderStep) (name : String) :
    (b.steps ss).build.query.get? name = BuilderStep.valuesAfter name ss (b.build.query.get? name) := by
  induction ss using List.reverseRecOn with
  | nil => rfl
  | append_singleton ss s ih =>
    rw [steps_concat, get?_step, ih]
    unfold BuilderStep.valuesAfter
    rw [List.filterMap_append, List.foldl_append]
    cases hs : s.onParameter? name <;> simp [hs]

/-- No steps have a part in any names but their own. -/
theorem leave_steps (b : RequestBuilder) (ss : List BuilderStep) : BuilderStep.Leave ss b.build (b.steps ss).build := by
  induction ss using List.reverseRecOn with
  | nil => exact ⟨rfl, rfl, rfl⟩
  | append_singleton ss s ih =>
    rw [steps_concat]
    exact ih.concat ((b.steps ss).leave_step s)

/-- Take any builder in whose header fields no two names are the same but for letter case, and any steps of building. In every snapshot
on the way this is still so; a header field is found, in any letter case, with the value that the last step on it gave, and as in the
beginning if there was none; a parameter has the values that its own steps made of those in the beginning, one after the other; and
the steps from there on, be it one or more, leave everything as it is that they are not on. -/
theorem follows_steps {b : RequestBuilder} (h : b.headers.Distinct) (done : List BuilderStep) :
    (b.steps done).build.headers.Distinct ∧
      (∀ name, (b.steps done).build.header? name = BuilderStep.headerAfter name done (b.build.header? name)) ∧
      (∀ name, (b.steps done).build.query.get? name = BuilderStep.valuesAfter name done (b.build.query.get? name)) ∧
      ∀ more, BuilderStep.Leave more (b.steps done).build (b.steps (done ++ more)).build := by
  refine ⟨distinct_steps h done, b.header?_steps done, b.get?_steps done, fun more => ?_⟩
  have hsteps : b.steps (done ++ more) = (b.steps done).steps more := List.foldl_append
  rw [hsteps]
  exact (b.steps done).leave_steps more

/-- Two header fields and two parameters, one of each of which is changed and taken away, with a snapshot in between. -/
theorem follows_steps_rebuilt :
    let b : RequestBuilder :=
      { host := "localhost", headers := ⟨[("Accept", "a"), ("X-Mark", "1")], by decide⟩
        query := ⟨[("a", ["1"]), ("A", []), ("b", ["2"])], by decide⟩ }
    let done := [BuilderStep.setHeader "ACCEPT" "b", .parameter (.add "A" "3"), .rebuild, .removeHeader "x-mark",
      .parameter (.add "A" "4"), .parameter (.remove "b")]
    b.headers.Distinct ∧ (b.steps done).build.headers.Distinct ∧ (b.steps done).build.header? "accept" = some "b" ∧
      (b.steps done).build.header? "X-MARK" = none ∧ (b.steps done).build.query.get? "A" = some ["3", "4"] ∧
      (b.steps done).build.query.get? "a" = some ["1"] ∧ (b.steps done).build.query.get? "b" = none := by
  intro b done
  have hdistinct : b.headers.Distinct := by decide +kernel
  obtain ⟨hdistinct', hheader, hquery, -⟩ := follows_steps hdistinct done
  refine ⟨hdistinct, hdistinct', ?_, ?_, ?_, ?_, ?_⟩
  · rw [hheader]
    decide +kernel
  · rw [hheader]
    decide +kernel
  · rw [hquery]
    decide
  · rw [hquery]
    decide
  · rw [hquery]
    decide

end RequestBuilder

end SignedCall
