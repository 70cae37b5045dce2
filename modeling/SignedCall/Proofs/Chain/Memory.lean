import SignedCall.Proofs.Chain.Notes
import SignedCall.Proofs.Rehearsal
import SignedCall.Proofs.Task.Discipline
import SignedCall.Task.Session

/-!
# What a chain remembers

Calls of one chain may be interleaved and cancelled in any way. At every moment of every run the position that is remembered is the
one that the journal tells, and each call asks the remembered resolver, if there is one, and then the resolvers in order until one
does not fail (`Course`). So what is remembered is the position of a resolver that gave an identity in a walk, a failure only clears
its own position, and a call fails only after its own walk found every resolver to fail (`remembers_only_successes`). Every run without
notes is such a run but for the notes (`exists_recorded`).
-/

namespace SignedCall.Chain

variable {σ : Type} {chain : Chain σ}

/-- The calls of the resolvers leave alone what the chain remembers. -/
def ResolversApart (chain : Chain σ) : Prop := ∀ r ∈ chain.resolvers, ∀ properties, (r.identity properties).Keeps chain.lastUsed.get

/-- The events of a walk where every resolver fails, from the first one on. -/
def failures (errors : List Failure) : List ChainEvent := errors.mapIdx fun position f => .walked position (.failed f)

/-- The events of one more failure come after those before it. -/
theorem failures_concat (errors : List Failure) (f : Failure) :
    failures (errors ++ [f]) = failures errors ++ [.walked errors.length (.failed f)] := List.mapIdx_concat

/-- What comes before the walk of a call that began in a state: nothing, or the failure of the resolver that is asked first. -/
inductive Tried (chain : Chain σ) (s : σ) : List ChainEvent → Prop
  | nobody : chain.first? s = none → Tried chain s []
  | first {position : Nat} {r : Resolver σ} (f : Failure) :
      chain.first? s = some (position, r) → Tried chain s [.reused position (.failed f)]

/-- The course of a call that began in a state, up to its outcome: the resolver that is asked first does not fail, or one does not
fail in the walk, or all of them fail. -/
inductive Course (chain : Chain σ) (s : σ) : List ChainEvent → Outcome Identity → Prop
  | reused {position : Nat} {r : Resolver σ} {o : Outcome Identity} :
      chain.first? s = some (position, r) → (∀ f, o ≠ .failed f) → Course chain s [.reused position o] o
  | walked {tried : List ChainEvent} {errors : List Failure} {o : Outcome Identity} :
      chain.Tried s tried → errors.length < chain.resolvers.length → (∀ f, o ≠ .failed f) →
      Course chain s (tried ++ failures errors ++ [.walked errors.length o]) o
  | exhausted {tried : List ChainEvent} {errors : List Failure} :
      chain.Tried s tried → errors.length = chain.resolvers.length →
      Course chain s (tried ++ failures errors) (.failed (allFailed chain.resolvers errors))

/-- Notes of a call that began in a state, with some events since. -/
def InHand (cur : List (ChainNote σ)) (s : σ) (events : List ChainEvent) : Prop :=
  ∃ notes, cur = (.began, s) :: notes ∧ notes.map Prod.fst = events

/-- What may be noted of a call after its other notes. -/
def MayNote (chain : Chain σ) (cur : List (ChainNote σ)) (e : ChainNote σ) : Prop :=
  match e.1 with
  | .began => cur = []
  | .reused position _ => ∃ s r, InHand cur s [] ∧ chain.first? s = some (position, r)
  | .walked position _ => ∃ s tried errors, InHand cur s (tried ++ failures errors) ∧ chain.Tried s tried ∧
      position = errors.length ∧ position < chain.resolvers.length
  | .returned o => ∃ s events, InHand cur s events ∧ chain.Course s events o

/-- What the tasks keep to that call a chain. -/
def discipline (chain : Chain σ) : Discipline σ (Option Nat) (ChainNote σ) where
  part := chain.lastUsed.get
  rests := Recalls chain.lastUsed.get chain.remembered
  ends e := e.1.isReturn
  may := chain.MayNote

/-- The notes of a call go on with one more event. -/
theorem InHand.concat {cur : List (ChainNote σ)} {s : σ} {events : List ChainEvent} (h : InHand cur s events) (e : ChainNote σ) :
    InHand (cur ++ [e]) s (events ++ [e.1]) := by
  obtain ⟨notes, rfl, rfl⟩ := h
  exact ⟨notes ++ [e], rfl, List.map_append⟩

/-- After one more note, what is remembered is what the event makes of it. -/
theorem rests_concat {s s' : σ × List (ChainNote σ)} (hs : chain.discipline.Rests s) {event : ChainEvent}
    (hjournal : s'.2 = s.2 ++ [(event, s.1)]) (hindex : chain.lastUsed.get s'.1 = chain.retain (chain.lastUsed.get s.1) event) :
    chain.discipline.Rests s' :=
  Recalls.step (f := fun x e => chain.retain x e.1) remembered_concat hs hjournal hindex

/-- An event that changes nothing about what is remembered. -/
theorem rests_noted {s : σ × List (ChainNote σ)} (hs : chain.discipline.Rests s) (event : ChainEvent)
    (hevent : chain.retain (chain.lastUsed.get s.1) event = chain.lastUsed.get s.1) :
    chain.discipline.Rests (inscribe (event, ·) s) := rests_concat hs rfl hevent.symm

/-! ## The parts of a call -/

/-- What holds at the end of a call, before its outcome is noted. -/
def Answered (chain : Chain σ) (o : Outcome Identity) (cur : List (ChainNote σ)) (s : σ × List (ChainNote σ)) : Prop :=
  chain.discipline.Rests s ∧ ∃ s₀ events, InHand cur s₀ events ∧ chain.Course s₀ events o

/-- A resolver is asked, and its answer is noted. -/
theorem follows_asked {r : Resolver σ} {properties : Properties} (hr : (r.identity properties).Keeps chain.lastUsed.get)
    (event : Outcome Identity → ChainEvent) {cur : List (ChainNote σ)} {s : σ × List (ChainNote σ)}
    (hmay : ∀ o s, chain.MayNote cur (event o, s)) (hevent : ∀ o, (event o).isReturn = false) (hs : chain.discipline.Rests s) :
    ((r.reporting event).identity properties).Follows chain.discipline (fun o cur' s' => ∃ s, chain.discipline.Rests s ∧
      cur' = cur ++ [(event o, s.1)] ∧ s' = inscribe (fun x => (event o, x)) s) cur s := by
  refine Program.Follows.reported (Program.Follows.of_keeps hr.beside cur hs) ?_
  rintro o cur' s' ⟨rfl, hs'⟩
  refine ⟨hmay o _, s', hs', ?_, rfl⟩
  exact if_neg (by simp [discipline, hevent])

/-- The position of a resolver that has given an identity is remembered, if the chain does so at all. -/
theorem follows_remember (position : Nat) (i : Identity) {cur : List (ChainNote σ)} {s : σ × List (ChainNote σ)}
    (hs : chain.discipline.Rests s) :
    ((chain.noted .walked).remember position).Follows chain.discipline
      (fun o cur' s' => o = .value () ∧ cur' = cur ∧ chain.discipline.Rests s') cur
      (inscribe (fun x => (.walked position (.value i), x)) s) := by
  unfold remember
  rw [show (chain.noted .walked).reuses = chain.reuses from rfl]
  split
  · next hreuses =>
    refine Or.inl ⟨rfl, rfl, rfl, rests_concat hs rfl ?_⟩
    rw [retain, if_pos hreuses]
    exact chain.lastUsed.get_set _ _
  · next hreuses => exact ⟨rfl, rfl, rests_concat hs rfl (if_neg hreuses).symm⟩

/-- The rest of a walk notes failures until a resolver gives an identity, or none is left. -/
theorem follows_walk (ha : chain.ResolversApart) (properties : Properties) {rs : List (Resolver σ)} (hrs : ∀ r ∈ rs, r ∈ chain.resolvers)
    (errors : List Failure) (hlength : errors.length + rs.length = chain.resolvers.length) {s₀ : σ} {tried : List ChainEvent}
    (htried : chain.Tried s₀ tried) {cur : List (ChainNote σ)} {s : σ × List (ChainNote σ)}
    (hcur : InHand cur s₀ (tried ++ failures errors)) (hs : chain.discipline.Rests s) :
    ((chain.noted .walked).walk properties (notedFrom .walked errors.length rs) errors.length errors).Follows chain.discipline
      chain.Answered cur s := by
  induction rs generalizing errors cur s with
  | nil =>
    refine ⟨hs, s₀, _, hcur, ?_⟩
    rw [allFailed_noted]
    exact .exhausted htried hlength
  | cons r rest ih =>
    have hlt : errors.length < chain.resolvers.length := by
      rw [← hlength, List.length_cons]
      omega
    have hasked := follows_asked (ha r (hrs r List.mem_cons_self) properties) (.walked errors.length)
      (fun o x => ⟨s₀, tried, errors, hcur, htried, rfl, hlt⟩) (fun o => rfl) hs
    refine hasked.attempt ?_ ?_ ?_
    · rintro i _ _ ⟨s, hs, rfl, rfl⟩
      have hcourse : ∃ s₀ events, InHand (cur ++ [(.walked errors.length (.value i), s.1)]) s₀ events ∧
          chain.Course s₀ events (.value i) := ⟨s₀, _, hcur.concat _, .walked htried hlt nofun⟩
      refine (follows_remember errors.length i hs).andThen ?_
      rintro o _ s' ⟨rfl, rfl, hs'⟩
      exact ⟨hs', hcourse⟩
    · rintro f _ _ ⟨s, hs, rfl, rfl⟩
      have hnext : InHand (cur ++ [(.walked errors.length (.failed f), s.1)]) s₀ (tried ++ failures (errors ++ [f])) := by
        rw [failures_concat, ← List.append_assoc]
        exact hcur.concat _
      have hlength' : (errors ++ [f]).length + rest.length = chain.resolvers.length := by
        rw [← hlength, List.length_append, List.length_singleton, List.length_cons]
        omega
      have hgo := ih (fun r hr => hrs r (List.mem_cons_of_mem _ hr)) (errors ++ [f]) hlength' hnext
        (rests_noted hs (.walked errors.length (.failed f)) rfl)
      rwa [List.length_append, List.length_singleton] at hgo
    · rintro _ _ ⟨s, hs, rfl, rfl⟩
      exact ⟨rests_noted hs _ rfl, s₀, _, hcur.concat _, .walked htried hlt nofun⟩

/-- A walk through all resolvers answers the call, whatever was tried before. -/
theorem follows_walkAll (ha : chain.ResolversApart) (properties : Properties) {s₀ : σ} {tried : List ChainEvent}
    (htried : chain.Tried s₀ tried) {cur : List (ChainNote σ)} {s : σ × List (ChainNote σ)} (hcur : InHand cur s₀ tried)
    (hs : chain.discipline.Rests s) :
    ((chain.noted .walked).walkAll properties).Follows chain.discipline chain.Answered cur s :=
  follows_walk ha properties (fun _ hr => hr) [] (Nat.zero_add _) htried ((List.append_nil tried).symm ▸ hcur) hs

/-- The resolver that is asked first is the remembered one. -/
theorem mem_of_first? {s : σ} {position : Nat} {r : Resolver σ} (h : chain.first? s = some (position, r)) :
    r ∈ chain.resolvers ∧ chain.reuses = true ∧ chain.lastUsed.get s = some position := by
  unfold first? at h
  split at h
  · next hreuses =>
    obtain ⟨position', hget, hfirst⟩ := Option.bind_eq_some_iff.1 h
    obtain ⟨r', hr', heq⟩ := Option.map_eq_some_iff.1 hfirst
    obtain ⟨rfl, rfl⟩ := Prod.mk.inj heq
    exact ⟨List.mem_of_getElem? hr', hreuses, hget⟩
  · cases h

/-- A call asks the remembered resolver and, if there is none or it fails, walks through all of them. -/
theorem follows_identityFrom (ha : chain.ResolversApart) (properties : Properties) {cur : List (ChainNote σ)}
    {s : σ × List (ChainNote σ)} (hcur : InHand cur s.1 []) (hs : chain.discipline.Rests s) :
    ((chain.noted .walked).identityFrom properties (chain.notedFirst? s.1)).Follows chain.discipline chain.Answered cur s := by
  unfold notedFirst?
  cases hfirst : chain.first? s.1 with
  | none => exact follows_walkAll ha properties (.nobody hfirst) hcur hs
  | some x =>
    obtain ⟨position, r⟩ := x
    have hasked := follows_asked (ha r (mem_of_first? hfirst).1 properties) (.reused position)
      (fun o x => ⟨s.1, r, hcur, hfirst⟩) (fun o => rfl) hs
    refine hasked.attempt ?_ ?_ ?_
    · rintro i _ _ ⟨s', hs', rfl, rfl⟩
      exact ⟨rests_noted hs' _ rfl, s.1, _, hcur.concat _, .reused hfirst nofun⟩
    · rintro f _ _ ⟨s', hs', rfl, rfl⟩
      refine Program.follows_change rfl (follows_walkAll ha properties (.first f hfirst) (hcur.concat _) (rests_concat hs' rfl ?_))
      exact chain.lastUsed.get_modify _ _
    · rintro _ _ ⟨s', hs', rfl, rfl⟩
      exact ⟨rests_noted hs' _ rfl, s.1, _, hcur.concat _, .reused hfirst nofun⟩

/-- A call keeps the discipline from its beginning to its end. -/
theorem follows_call (ha : chain.ResolversApart) (properties : Properties) {s : σ × List (ChainNote σ)} (hs : chain.discipline.Rests s) :
    (chain.call properties).Follows chain.discipline chain.discipline.Ended [] s := by
  have hidentity : (Program.act id fun s => (chain.noted .walked).identityFrom properties (chain.notedFirst? s.1)).Follows
      chain.discipline chain.Answered [(.began, s.1)] (inscribe (.began, ·) s) :=
    Or.inl ⟨rfl, follows_identityFrom ha properties ⟨[], rfl, rfl⟩ (rests_noted hs _ rfl)⟩
  refine Program.Follows.announced rfl (Program.Follows.reported hidentity ?_)
  rintro o cur' s' ⟨hs', hcourse⟩
  exact ⟨hcourse, rfl, rests_noted hs' _ rfl⟩

/-! ## Runs -/

/-- What a task may do with a chain: call it, and anything that leaves alone what it remembers. -/
inductive Use (chain : Chain σ) : ∀ α : Type, Program (σ × List (ChainNote σ)) α → Prop
  | other {α : Type} {p : Program (σ × List (ChainNote σ)) α} : p.Keeps chain.discipline.view → Use chain α p
  | call (properties : Properties) : Use chain Identity (chain.call properties)

/-- What may happen: tasks have their turns, are woken, cancelled or made, and the rest of the state changes. -/
def Permits (chain : Chain σ) : Move (σ × List (ChainNote σ)) → Prop := Move.Within chain.Use chain.discipline.view

/-- The points of runs that begin with nothing remembered, and nothing noted, with who made which note on the way. -/
def Recorded (chain : Chain σ) : Pool (σ × List (ChainNote σ)) → Record (ChainNote σ) → Prop :=
  Pool.Recorded (fun s => chain.lastUsed.get s.1 = none ∧ s.2 = []) chain.Permits

variable {p : Pool (σ × List (ChainNote σ))} {record : Record (ChainNote σ)}

/-- Whatever a task may do with a chain keeps the discipline. -/
theorem follows_use (ha : chain.ResolversApart) {α : Type} {p : Program (σ × List (ChainNote σ)) α} (hp : chain.Use α p)
    {s : σ × List (ChainNote σ)} (hs : chain.discipline.Rests s) : p.Follows chain.discipline chain.discipline.Ended [] s := by
  cases hp with
  | other hkeeps => exact Program.Follows.of_keeps hkeeps [] hs
  | call properties => exact follows_call ha properties hs

/-- In every run, what is remembered is what the journal tells, and the notes of each task are proper. -/
theorem Recorded.recalls (ha : chain.ResolversApart) (h : chain.Recorded p record) :
    p.state.2 = record.journal ∧ Recalls chain.lastUsed.get chain.remembered (chain.lastUsed.get p.state.1) p.state.2 ∧
      ∀ t, Proper (fun e => e.1.isReturn) chain.MayNote (record.trail t) := by
  have hstart : ∀ s, chain.lastUsed.get s.1 = none ∧ s.2 = [] → s.2 = [] ∧ chain.discipline.Rests s :=
    fun s hs => ⟨hs.2, Recalls.start hs.1 hs.2⟩
  exact Pool.Recorded.disciplined hstart (fun _ => Pool.admits_of_within fun _ _ hp _ hs => follows_use ha hp hs) h

/-- Where a task notes that a call returned, its notes before tell the course of the call. -/
theorem Recorded.course (ha : chain.ResolversApart) (h : chain.Recorded p record) {t : TaskId} {js ks : List (ChainNote σ)}
    {o : Outcome Identity} {s : σ} (hsplit : record.trail t = js ++ (.returned o, s) :: ks) :
    ∃ before s₀ notes, js = before ++ (.began, s₀) :: notes ∧ chain.Course s₀ (notes.map Prod.fst) o := by
  obtain ⟨before, _, rfl, s₀, _, ⟨notes, rfl, rfl⟩, hcourse⟩ := ((h.recalls ha).2.2 t).split hsplit
  exact ⟨before, s₀, notes, rfl, hcourse⟩

/-- Take any run in which calls of one chain, cancellations and other work are interleaved, and any moment in it. A chain that does
not reuse remembers nothing. What is remembered otherwise is the position of a resolver that has given an identity in a walk before.
The failure of a remembered resolver clears what is remembered if that is still its own position, and leaves it as it is if not. And a
call fails only after it has asked, besides the resolver that it asked first, every resolver in order, each once, and was failed by
each: these are the failures that it reports. -/
theorem remembers_only_successes (ha : chain.ResolversApart) (h : chain.Recorded p record) :
    p.state.2 = record.journal ∧
      (∀ js ks, p.state.2 = js ++ ks →
        (chain.reuses = false → partBefore chain.lastUsed.get ks p.state.1 = none) ∧
        (∀ position, partBefore chain.lastUsed.get ks p.state.1 = some position → ∃ i s, (ChainEvent.walked position (.value i), s) ∈ js) ∧
        ∀ js' position f s, js = js' ++ [(.reused position (.failed f), s)] → partBefore chain.lastUsed.get ks p.state.1 =
          if chain.lastUsed.get s = some position then none else chain.lastUsed.get s) ∧
      ∀ t js f s ks, record.trail t = js ++ (.returned (.failed f), s) :: ks → ∃ before s₀ first walk,
        js = before ++ (.began, s₀) :: (first ++ walk) ∧
        (first.map Prod.fst = [] ∨ ∃ position g, first.map Prod.fst = [ChainEvent.reused position (.failed g)] ∧
          chain.lastUsed.get s₀ = some position) ∧
        walk.map Prod.fst = failures f.errors ∧ f.errors.length = chain.resolvers.length ∧
        f = allFailed chain.resolvers f.errors := by
  obtain ⟨hjournal, hrecalls, -⟩ := h.recalls ha
  refine ⟨hjournal, fun js ks hsplit => ?_, fun t js f s ks hsplit => ?_⟩
  · rw [hsplit] at hrecalls
    rw [hrecalls.partBefore]
    refine ⟨fun hreuses => remembered_of_not_reuses hreuses js, fun position => walked_of_remembered, ?_⟩
    rintro js' position f s rfl
    rw [remembered_concat, ← hrecalls.before js' (.reused position (.failed f), s) ks (by simp)]
    rfl
  · obtain ⟨before, s₀, notes, rfl, hcourse⟩ := h.course ha hsplit
    generalize hevents : notes.map Prod.fst = events at hcourse
    generalize ho : Outcome.failed f = o at hcourse
    cases hcourse with
    | reused _ hne => exact absurd ho.symm (hne f)
    | walked _ _ hne => exact absurd ho.symm (hne f)
    | exhausted htried hlength =>
      obtain rfl := Outcome.failed.inj ho
      obtain ⟨first, walk, rfl, hfirst, hwalk⟩ := List.map_eq_append_iff.1 hevents
      refine ⟨before, s₀, first, walk, rfl, ?_, hwalk, hlength, rfl⟩
      rw [hfirst]
      cases htried with
      | nobody _ => exact Or.inl rfl
      | first g hpos => exact Or.inr ⟨_, g, rfl, (mem_of_first? hpos).2.2⟩

/-! ## Runs without notes -/

/-- What a task may do with a chain, without notes. -/
inductive PlainUse (chain : Chain σ) : ∀ α : Type, Program σ α → Prop
  | other {α : Type} {q : Program σ α} : q.Keeps chain.lastUsed.get → PlainUse chain α q
  | call (properties : Properties) : PlainUse chain Identity (chain.identity properties)

/-- What a task may do with a chain without notes it may do with notes, too. -/
theorem PlainUse.noting {α : Type} {q : Program σ α} (hq : chain.PlainUse α q) : ∃ p, chain.Use α p ∧ p.Noting q := by
  cases hq with
  | other hkeeps => exact ⟨q.beside, .other hkeeps.beside, Program.noting_beside q⟩
  | call properties => exact ⟨chain.call properties, .call properties, call_noting properties⟩

/-- Every run of tasks that call is one with notes, but for the notes. -/
theorem exists_recorded {q : Pool σ}
    (hq : Pool.Reached (fun s => chain.lastUsed.get s = none) (Move.Within chain.PlainUse chain.lastUsed.get) q) :
    ∃ p record, chain.Recorded p record ∧ p.Noting q := hq.exists_recorded_noting fun _ _ hq => hq.noting

/-! ## A rehearsal -/

/-- What a rehearsal takes place in: what is remembered, and the scripts of two resolvers. -/
abbrev Stage := Option Nat × ScriptedResolver × ScriptedResolver

/-- Two resolvers that play scripts. -/
def scripted : Chain Stage where
  resolvers := [ScriptedResolver.resolver (Slot.snd.comp Slot.fst) "First" none,
    ScriptedResolver.resolver (Slot.snd.comp Slot.snd) "Second" none]
  lastUsed := Slot.fst
  resolvers_ne_nil := List.cons_ne_nil _ _

/-- Resolvers that play scripts leave alone what is remembered. -/
theorem scripted_resolversApart : scripted.ResolversApart := by
  intro r hr properties
  simp only [scripted, List.mem_cons, List.not_mem_nil, or_false] at hr
  rcases hr with rfl | rfl
  · exact ScriptedResolver.call_keeps (fun _ _ => rfl) properties
  · exact ScriptedResolver.call_keeps (fun _ _ => rfl) properties

/-- A task that calls once. -/
def caller (chain : Chain σ) : Program (σ × List (ChainNote σ)) Unit := (chain.call FieldMap.empty).andThen fun o => .done o.withoutValue

/-- A task that calls once does what a task may do. -/
theorem built_caller : chain.caller.Built chain.Use := .andThen (.piece (.call _)) fun _ => .piece (.other trivial)

/-- The first resolver fails once and then succeeds. The second one succeeds once and then fails, the first time after a turn. -/
def opening : Stage :=
  (none, { script := [{ result := .error ScriptedResolver.noScript }, { result := .ok (.anonymous none) }] },
    { script := [{ result := .ok (.anonymous none) }, { result := .error ScriptedResolver.noScript, turns := 1 },
        { result := .error ScriptedResolver.noScript }] })

/-- Three callers. The second resolver is remembered after the first call. The two others ask it; it fails one of them late, after the
other has been failed at once and has come to remember the first resolver instead, which stays remembered. -/
theorem remembers_only_successes_lateFailure :
    let p := Pool.steps { state := (opening, []) }
      [.start scripted.caller, .turn 0, .start scripted.caller, .turn 1, .start scripted.caller, .turn 2, .turn 1]
    scripted.ResolversApart ∧ (∃ record, scripted.Recorded p record) ∧
      ∃ js s ks, p.state.2 = js ++ [(.reused 1 (.failed ScriptedResolver.noScript), s)] ++ ks ∧
        scripted.lastUsed.get s = some 0 ∧ partBefore scripted.lastUsed.get ks p.state.1 = some 0 := by
  intro p
  have hrecorded : scripted.Recorded p _ :=
    Pool.Recorded.steps (.start ⟨rfl, rfl⟩) (by simp [Permits, Move.Within, built_caller])
  have hjournal : p.state.2 = p.state.2.take 9 ++ [(.reused 1 (.failed ScriptedResolver.noScript), (p.state.2.get ⟨9, by decide⟩).2)] ++
      p.state.2.drop 10 := rfl
  have hindex := ((remembers_only_successes scripted_resolversApart hrecorded).2.1 _ _ hjournal).2.2 _ _ _ _ rfl
  exact ⟨scripted_resolversApart, ⟨_, hrecorded⟩, _, _, _, hjournal, rfl, hindex⟩

end SignedCall.Chain
