import SignedCall.Proofs.Chain.Memory

/-!
# Reuse only saves asking

Where each resolver of a chain either always fails or never does, a call is answered by the first resolver that does not fail, or
fails with the failures of all, whether the chain remembers or not and however calls are interleaved. Where the answers of resolvers
change from call to call but the calls are made one after the other, what a call does and leaves behind follows from what is
remembered when it begins (`Sought`). `reuse_only_saves_asking` says both.
-/

namespace SignedCall.Chain

variable {σ : Type} {chain : Chain σ}

/-- A journal where each resolver either always fails or never does. -/
def Steady (fails : Nat → Bool) (journal : List (ChainNote σ)) : Prop :=
  ∀ e ∈ journal, ∀ position o, e.1.answer? = some (position, o) →
    (∀ i, o = .value i → fails position = false) ∧ ∀ f, o = .failed f → fails position = true

/-- The first of some positions where nothing fails. -/
def IsFirst (fails : Nat → Bool) (n position : Nat) : Prop :=
  position < n ∧ fails position = false ∧ ∀ j < position, fails j = true

/-- There is no more than one first position where nothing fails. -/
theorem IsFirst.unique {fails : Nat → Bool} {n i j : Nat} (hi : IsFirst fails n i) (hj : IsFirst fails n j) : i = j := by
  by_contra hne
  rcases Nat.lt_or_gt_of_ne hne with hlt | hlt
  · exact Bool.noConfusion (hi.2.1.symm.trans (hj.2.2 i hlt))
  · exact Bool.noConfusion (hj.2.1.symm.trans (hi.2.2 j hlt))

/-- An identity that the resolver at a position has just given. -/
def GivenBy (js : List (ChainNote σ)) (position : Nat) (i : Identity) : Prop :=
  ∃ js' e, js = js' ++ [e] ∧ e.1.answer? = some (position, .value i)

/-- Failures that the resolvers have just given in a walk. -/
def FailedBy (js : List (ChainNote σ)) (errors : List Failure) : Prop :=
  ∃ js' walk, js = js' ++ walk ∧ walk.map Prod.fst = failures errors

/-- The answers of two calls, each after some notes: identities from resolvers at the same position, or the failures of all resolvers,
which are the same if each resolver always fails in the same way. -/
inductive SameAnswer (resolvers : List (Resolver σ)) (js js' : List (ChainNote σ)) : Outcome Identity → Outcome Identity → Prop
  | given {position : Nat} {i i' : Identity} :
      GivenBy js position i → GivenBy js' position i' → SameAnswer resolvers js js' (.value i) (.value i')
  | failed {errors errors' : List Failure} :
      errors.length = resolvers.length → errors'.length = resolvers.length → FailedBy js errors → FailedBy js' errors' →
      (∀ failure : Nat → Failure,
        (∀ e ∈ js ++ js', ∀ position f, e.1.answer? = some (position, .failed f) → f = failure position) → errors = errors') →
      SameAnswer resolvers js js' (.failed (allFailed resolvers errors)) (.failed (allFailed resolvers errors'))

/-- What the resolver that is asked first answers before a walk: it fails, if there is one. -/
def FailedFirst (index : Option Nat) (events : List ChainEvent) : Prop :=
  match index with
  | none => events = []
  | some position => ∃ f, events = [.reused position (.failed f)]

/-- A call that no other one disturbs: what is remembered when it begins, the answers of the resolvers that it asks, its own answer, and
what is remembered when it ends. -/
inductive Sought (resolvers : List (Resolver σ)) : Option Nat → List ChainEvent → Outcome Identity → Option Nat → Prop
  | reused (position : Nat) (i : Identity) :
      Sought resolvers (some position) [.reused position (.value i)] (.value i) (some position)
  | walked {index : Option Nat} {tried : List ChainEvent} {errors : List Failure} (i : Identity) :
      FailedFirst index tried → errors.length < resolvers.length →
      Sought resolvers index (tried ++ failures errors ++ [.walked errors.length (.value i)]) (.value i) (some errors.length)
  | exhausted {index : Option Nat} {tried : List ChainEvent} {errors : List Failure} :
      FailedFirst index tried → errors.length = resolvers.length →
      Sought resolvers index (tried ++ failures errors) (.failed (allFailed resolvers errors)) none

/-- Each failure is noted at the position of its resolver. -/
theorem mem_failures {errors : List Failure} {j : Nat} (hj : j < errors.length) : .walked j (.failed errors[j]) ∈ failures errors :=
  List.mem_mapIdx.2 ⟨j, hj, rfl⟩

/-- Every resolver fails always that has failed in a walk. -/
theorem Steady.fails {fails : Nat → Bool} {journal : List (ChainNote σ)} (hs : Steady fails journal) {errors : List Failure}
    (hmem : ∀ event ∈ failures errors, ∃ s, (event, s) ∈ journal) {j : Nat} (hj : j < errors.length) : fails j = true := by
  obtain ⟨s, hnote⟩ := hmem _ (mem_failures hj)
  exact (hs _ hnote j _ rfl).2 _ rfl

/-- Each of the events of some notes was noted in some state. -/
theorem exists_mem_of_map {notes : List (ChainNote σ)} {events : List ChainEvent} (h : notes.map Prod.fst = events)
    {event : ChainEvent} (he : event ∈ events) : ∃ s, (event, s) ∈ notes := by
  rw [← h] at he
  obtain ⟨⟨_, s⟩, hmem, rfl⟩ := List.mem_map.1 he
  exact ⟨s, hmem⟩

/-- The failures of a walk are the failures of the resolvers, whoever tells of them. -/
theorem FailedBy.eq_of {js : List (ChainNote σ)} {errors : List Failure} (h : FailedBy js errors) {failure : Nat → Failure}
    (hall : ∀ e ∈ js, ∀ position f, e.1.answer? = some (position, .failed f) → f = failure position) :
    errors = (List.range errors.length).map failure := by
  obtain ⟨js', walk, rfl, hwalk⟩ := h
  refine List.ext_getElem (by simp) fun j hj _ => ?_
  obtain ⟨s, hmem⟩ := exists_mem_of_map hwalk (mem_failures hj)
  rw [hall _ (List.mem_append_right _ hmem) j _ rfl]
  simp

/-! ## Steady resolvers -/

variable {p : Pool (σ × List (ChainNote σ))} {record : Record (ChainNote σ)}

/-- Where a walk came to a resolver, all those before it had failed in it. -/
theorem Recorded.walked (ha : chain.ResolversApart) (h : chain.Recorded p record) {position : Nat} {o : Outcome Identity} {s : σ}
    (hmem : (.walked position o, s) ∈ p.state.2) :
    position < chain.resolvers.length ∧
      ∃ errors, errors.length = position ∧ ∀ event ∈ failures errors, ∃ s, (event, s) ∈ p.state.2 := by
  obtain ⟨hjournal, -, hproper⟩ := h.recalls ha
  rw [hjournal] at hmem ⊢
  obtain ⟨js, ks, hsplit⟩ := List.append_of_mem hmem
  obtain ⟨before, t, rest, hrecord, -⟩ := Record.exists_of_journal hsplit
  have htrail := Record.trail_split hrecord
  obtain ⟨older, _, holder, s₀, tried, errors, ⟨notes, rfl, hnotes⟩, -, hposition, hlt⟩ := (hproper t).split htrail
  refine ⟨hlt, errors, hposition.symm, fun event he => ?_⟩
  obtain ⟨s', hmem'⟩ := exists_mem_of_map hnotes (List.mem_append_right _ he)
  refine ⟨s', Record.mem_journal_of_mem_trail (t := t) ?_⟩
  rw [htrail, holder]
  simp [hmem']

/-- What has given an identity in a walk is the first resolver that does not fail. -/
theorem Recorded.isFirst (ha : chain.ResolversApart) (h : chain.Recorded p record) {fails : Nat → Bool}
    (hs : Steady fails p.state.2) {position : Nat} {i : Identity} {s : σ} (hmem : (.walked position (.value i), s) ∈ p.state.2) :
    IsFirst fails chain.resolvers.length position := by
  obtain ⟨hlt, errors, rfl, herrors⟩ := h.walked ha hmem
  exact ⟨hlt, (hs _ hmem _ _ rfl).1 i rfl, fun j hj => hs.fails herrors hj⟩

/-- A call returns an identity of the first resolver that does not fail, or all resolvers fail. -/
theorem Recorded.decided (ha : chain.ResolversApart) (h : chain.Recorded p record) {fails : Nat → Bool}
    (hs : Steady fails p.state.2) {t : TaskId} {js ks : List (ChainNote σ)} {o : Outcome Identity} {s : σ}
    (hsplit : record.trail t = js ++ (.returned o, s) :: ks) (ho : o ≠ .cancelled) :
    (∃ position i, o = .value i ∧ IsFirst fails chain.resolvers.length position ∧ GivenBy js position i) ∨
      ∃ errors, o = .failed (allFailed chain.resolvers errors) ∧ errors.length = chain.resolvers.length ∧ FailedBy js errors ∧
        ∀ j < chain.resolvers.length, fails j = true := by
  obtain ⟨hjournal, hrecalls, -⟩ := h.recalls ha
  obtain ⟨before, s₀, notes, rfl, hcourse⟩ := h.course ha hsplit
  have hmem : ∀ e ∈ (.began, s₀) :: notes, e ∈ p.state.2 := by
    intro e he
    rw [hjournal]
    refine Record.mem_journal_of_mem_trail (t := t) ?_
    rw [hsplit]
    exact List.mem_append_left _ (List.mem_append_right _ he)
  generalize hevents : notes.map Prod.fst = events at hcourse
  cases hcourse with
  | @reused position r _ hfirst hne =>
    refine Or.inl ?_
    cases o with
    | failed f => exact absurd rfl (hne f)
    | cancelled => exact absurd rfl ho
    | value i =>
      obtain ⟨-, -, hindex⟩ := mem_of_first? hfirst
      obtain ⟨older, later, hbegan⟩ := List.append_of_mem (hmem _ List.mem_cons_self)
      obtain ⟨i', s', hgave⟩ := walked_of_remembered ((hrecalls.before _ _ _ hbegan).symm.trans hindex)
      refine ⟨position, i, rfl, h.isFirst ha hs (hbegan ▸ List.mem_append_left _ hgave), ?_⟩
      obtain ⟨⟨_, s''⟩, rfl, rfl⟩ := List.map_eq_singleton_iff.1 hevents
      exact ⟨before ++ [(.began, s₀)], (.reused position (.value i), s''), by simp, rfl⟩
  | @walked tried errors _ _ _ hne =>
    refine Or.inl ?_
    cases o with
    | failed f => exact absurd rfl (hne f)
    | cancelled => exact absurd rfl ho
    | value i =>
      obtain ⟨notes', last, rfl, -, hlast⟩ := List.map_eq_append_iff.1 hevents
      obtain ⟨⟨_, s'⟩, rfl, rfl⟩ := List.map_eq_singleton_iff.1 hlast
      have hgave : (.walked errors.length (.value i), s') ∈ p.state.2 := hmem _ (by simp)
      refine ⟨errors.length, i, rfl, h.isFirst ha hs hgave, ?_⟩
      exact ⟨before ++ (.began, s₀) :: notes', (.walked errors.length (.value i), s'), by simp, rfl⟩
  | @exhausted tried errors _ hlength =>
    obtain ⟨first, walk, rfl, -, hwalk⟩ := List.map_eq_append_iff.1 hevents
    refine Or.inr ⟨errors, rfl, hlength, ⟨before ++ (.began, s₀) :: first, walk, by simp, hwalk⟩, fun j hj => ?_⟩
    refine hs.fails (fun event he => ?_) (hlength ▸ hj)
    obtain ⟨s', hmem'⟩ := exists_mem_of_map hwalk he
    exact ⟨s', hmem _ (by simp [hmem'])⟩

/-! ## Calls one after the other -/

/-- What is remembered after more notes follows from what was remembered before them. -/
theorem remembered_append (js ks : List (ChainNote σ)) :
    chain.remembered (js ++ ks) = (ks.map Prod.fst).foldl chain.retain (chain.remembered js) := by
  rw [remembered, List.map_append, List.foldl_append, remembered]

/-- A walk where every resolver fails changes nothing about what is remembered. -/
theorem foldl_retain_failures (errors : List Failure) (index : Option Nat) : (failures errors).foldl chain.retain index = index := by
  induction errors using List.reverseRecOn with
  | nil => rfl
  | append_singleton errors f ih =>
    rw [failures_concat, List.foldl_append, ih]
    rfl

/-- Before a walk the resolver that is remembered has failed, if there is one, and nothing is remembered any more. -/
theorem Tried.forgotten (hreuses : chain.reuses = true) {s : σ} (hlt : ∀ i, chain.lastUsed.get s = some i → i < chain.resolvers.length)
    {tried : List ChainEvent} (h : chain.Tried s tried) :
    FailedFirst (chain.lastUsed.get s) tried ∧ tried.foldl chain.retain (chain.lastUsed.get s) = none := by
  cases h with
  | nobody hfirst =>
    have hnone : chain.lastUsed.get s = none := by
      cases hindex : chain.lastUsed.get s with
      | none => rfl
      | some i =>
        rw [first?, if_pos hreuses, hindex, Option.bind_some, List.getElem?_eq_getElem (hlt i hindex)] at hfirst
        cases hfirst
    rw [hnone]
    exact ⟨rfl, rfl⟩
  | first f hfirst =>
    rw [(mem_of_first? hfirst).2.2]
    exact ⟨⟨f, rfl⟩, if_pos rfl⟩

/-- In a sequential record the course of a call follows from what is remembered when it begins. -/
theorem Recorded.sought (ha : chain.ResolversApart) (hreuses : chain.reuses = true) (h : chain.Recorded p record)
    (hsequential : record.Sequential fun e => e.1.isReturn) {js ks : List (ChainNote σ)} {o : Outcome Identity} {s : σ}
    (hsplit : p.state.2 = js ++ (.returned o, s) :: ks) (ho : o ≠ .cancelled) :
    ∃ before s₀ notes, js = before ++ (.began, s₀) :: notes ∧
      Sought chain.resolvers (chain.lastUsed.get s₀) (notes.map Prod.fst) o (chain.lastUsed.get s) := by
  obtain ⟨hjournal, hrecalls, hproper⟩ := h.recalls ha
  obtain ⟨before, _, hbefore, s₀, _, ⟨notes, rfl, rfl⟩, hcourse⟩ := (hsequential.proper hproper).split (hjournal ▸ hsplit)
  refine ⟨before, s₀, notes, hbefore, ?_⟩
  have hindex : chain.lastUsed.get s₀ = chain.remembered before :=
    hrecalls.before before (.began, s₀) (notes ++ (.returned o, s) :: ks) (by rw [hsplit, hbefore, List.append_assoc]; rfl)
  have hlt : ∀ i, chain.lastUsed.get s₀ = some i → i < chain.resolvers.length := by
    intro i hi
    obtain ⟨i', s', hgave⟩ := walked_of_remembered (hindex.symm.trans hi)
    have hmem : (.walked i (.value i'), s') ∈ p.state.2 := by
      rw [hsplit, hbefore]
      exact List.mem_append_left _ (List.mem_append_left _ hgave)
    exact (h.walked ha hmem).1
  have hafter : chain.lastUsed.get s = (notes.map Prod.fst).foldl chain.retain (chain.lastUsed.get s₀) := by
    rw [hindex, hrecalls.before js (.returned o, s) ks hsplit, hbefore, remembered_append]
    rfl
  rw [hafter]
  generalize notes.map Prod.fst = events at hcourse
  cases hcourse with
  | @reused position _ _ hfirst hne =>
    rw [(mem_of_first? hfirst).2.2]
    cases o with
    | failed f => exact absurd rfl (hne f)
    | cancelled => exact absurd rfl ho
    | value i => exact .reused position i
  | @walked _ errors _ htried hlength hne =>
    obtain ⟨hfailed, hnone⟩ := htried.forgotten hreuses hlt
    rw [List.foldl_append, List.foldl_append, hnone, foldl_retain_failures]
    cases o with
    | failed f => exact absurd rfl (hne f)
    | cancelled => exact absurd rfl ho
    | value i =>
      rw [List.foldl_cons, List.foldl_nil, retain, if_pos hreuses]
      exact .walked i hfailed hlength
  | exhausted htried hlength =>
    obtain ⟨hfailed, hnone⟩ := htried.forgotten hreuses hlt
    rw [List.foldl_append, hnone, foldl_retain_failures]
    exact .exhausted hfailed hlength

/-! ## Reuse -/

/-- Take a chain that reuses, and the same chain without reuse. Where each resolver either always fails or never does, all calls in all
runs of the two, interleaved in any way, have the same answer: an identity from the resolver at one and the same position, or the
failures of all resolvers. And whatever the resolvers answer, where the calls of the chain that reuses are made one after the other,
a call asks the remembered resolver, if there is one, and only if that fails the resolvers from the first one up to one that gives an
identity; afterwards the position of the resolver that gave the identity is remembered, or nothing if the call failed. -/
theorem reuse_only_saves_asking (ha : chain.ResolversApart) (hreuses : chain.reuses = true) :
    (∀ p record p' record' fails, chain.Recorded p record → { chain with reuses := false }.Recorded p' record' →
      Steady fails p.state.2 → Steady fails p'.state.2 → ∀ t js o s ks t' js' o' s' ks',
      record.trail t = js ++ (.returned o, s) :: ks → record'.trail t' = js' ++ (.returned o', s') :: ks' →
      o ≠ .cancelled → o' ≠ .cancelled → SameAnswer chain.resolvers js js' o o') ∧
    ∀ p record, chain.Recorded p record → record.Sequential (fun e => e.1.isReturn) → ∀ js o s ks,
      p.state.2 = js ++ (.returned o, s) :: ks → o ≠ .cancelled → ∃ before s₀ notes, js = before ++ (.began, s₀) :: notes ∧
        Sought chain.resolvers (chain.lastUsed.get s₀) (notes.map Prod.fst) o (chain.lastUsed.get s) := by
  refine ⟨?_, fun p record h hsequential js o s ks hsplit ho => h.sought ha hreuses hsequential hsplit ho⟩
  intro p record p' record' fails h h' hs hs' t js o s ks t' js' o' s' ks' hsplit hsplit' ho ho'
  have ha' : { chain with reuses := false }.ResolversApart := ha
  rcases h.decided ha hs hsplit ho with ⟨position, i, rfl, hfirst, hgiven⟩ | ⟨errors, rfl, hlength, hfailed, hall⟩ <;>
    rcases h'.decided ha' hs' hsplit' ho' with ⟨position', i', rfl, hfirst', hgiven'⟩ | ⟨errors', rfl, hlength', hfailed', hall'⟩
  · obtain rfl := hfirst.unique hfirst'
    exact .given hgiven hgiven'
  · exact Bool.noConfusion (hfirst.2.1.symm.trans (hall' position hfirst.1))
  · exact Bool.noConfusion (hfirst'.2.1.symm.trans (hall position' hfirst'.1))
  · refine .failed hlength hlength' hfailed hfailed' fun failure hsame => ?_
    rw [hfailed.eq_of fun e he => hsame e (List.mem_append_left _ he), hfailed'.eq_of fun e he => hsame e (List.mem_append_right _ he),
      hlength, hlength']

/-! ## A rehearsal -/

/-- The first resolver always fails, and the second one never does. -/
def steadyOpening : Stage :=
  (none, { script := [{ result := .error ScriptedResolver.noScript }] }, { script := [{ result := .ok (.anonymous none) }] })

/-- A task that calls twice. -/
def callsTwice (chain : Chain σ) : Program (σ × List (ChainNote σ)) Unit := (chain.call FieldMap.empty).andThen fun _ => chain.caller

/-- What comes of a task that calls twice. -/
def twoCalls (chain : Chain Stage) : Pool (Stage × List (ChainNote Stage)) :=
  Pool.steps { state := (steadyOpening, []) } [.start chain.callsTwice, .turn 0]

/-- The notes of a task that calls twice. -/
def notesOfTwo (chain : Chain Stage) : Record (ChainNote Stage) :=
  Pool.recordedAll { state := (steadyOpening, []) } [.start chain.callsTwice, .turn 0]

/-- The two calls are a run that begins with nothing remembered. -/
theorem recorded_twoCalls {chain : Chain Stage} (hs : chain.lastUsed.get steadyOpening = none) :
    chain.Recorded chain.twoCalls chain.notesOfTwo := by
  have hbuilt : chain.callsTwice.Built chain.Use := .andThen (.piece (.call _)) fun _ => built_caller
  exact Pool.Recorded.steps (.start ⟨hs, rfl⟩) (by simp [Permits, Move.Within, hbuilt])

/-- The same chain without reuse. -/
def scriptedAnew : Chain Stage := { scripted with reuses := false }

/-- The answers of the resolvers tell whether they are steady. -/
theorem steady_of_answers {fails : Nat → Bool} {journal : List (ChainNote σ)} (answers : List (Nat × Outcome Identity))
    (h : journal.filterMap (fun e => e.1.answer?) = answers)
    (hanswers : ∀ x ∈ answers, (∀ i, x.2 = .value i → fails x.1 = false) ∧ ∀ f, x.2 = .failed f → fails x.1 = true) :
    Steady fails journal := by
  subst h
  exact fun e he position o ho => hanswers (position, o) (List.mem_filterMap.2 ⟨e, he, ho⟩)

/-- The second of two calls asks the second resolver alone, which is remembered, and has the same answer as a call of the same chain
without reuse, which asks both. -/
theorem reuse_only_saves_asking_twoCalls :
    scripted.ResolversApart ∧ scripted.reuses = true ∧
      SameAnswer scripted.resolvers ((scripted.notesOfTwo.trail 0).take 6) ((scriptedAnew.notesOfTwo.trail 0).take 7)
        (.value (.anonymous none)) (.value (.anonymous none)) ∧
      ∃ before s₀ notes index, scripted.twoCalls.state.2.take 6 = before ++ (.began, s₀) :: notes ∧
        Sought scripted.resolvers (scripted.lastUsed.get s₀) (notes.map Prod.fst) (.value (.anonymous none)) index := by
  have hreused : scripted.Recorded scripted.twoCalls scripted.notesOfTwo := recorded_twoCalls rfl
  have hanew : scriptedAnew.Recorded scriptedAnew.twoCalls scriptedAnew.notesOfTwo := recorded_twoCalls rfl
  have hsteady : Steady (· == 0) scripted.twoCalls.state.2 :=
    steady_of_answers [(0, .failed ScriptedResolver.noScript), (1, .value (.anonymous none)), (1, .value (.anonymous none))] rfl
      (by simp)
  have hsteady' : Steady (· == 0) scriptedAnew.twoCalls.state.2 :=
    steady_of_answers [(0, .failed ScriptedResolver.noScript), (1, .value (.anonymous none)),
      (0, .failed ScriptedResolver.noScript), (1, .value (.anonymous none))] rfl (by simp)
  obtain ⟨hsame, hsought⟩ := reuse_only_saves_asking scripted_resolversApart rfl
  refine ⟨scripted_resolversApart, rfl, ?_, ?_⟩
  · exact hsame _ _ _ _ _ hreused hanew hsteady hsteady' 0 _ _ ((scripted.notesOfTwo.trail 0).get ⟨6, by decide⟩).2 [] 0 _ _
      ((scriptedAnew.notesOfTwo.trail 0).get ⟨7, by decide⟩).2 [] rfl rfl nofun nofun
  · obtain ⟨before, s₀, notes, hnotes, hcourse⟩ := hsought _ _ hreused (by decide) (scripted.twoCalls.state.2.take 6) _
      (scripted.twoCalls.state.2.get ⟨6, by decide⟩).2 [] rfl nofun
    exact ⟨before, s₀, notes, _, hnotes, hcourse⟩

end SignedCall.Chain
