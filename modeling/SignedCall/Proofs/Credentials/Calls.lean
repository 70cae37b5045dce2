import SignedCall.Proofs.Credentials.Fetches
import SignedCall.Proofs.Task.Turns

/-!
# What a call returns

A call hands out the identity that is kept only while it is fresh, and otherwise what it fetched itself; and it fetches only where
nothing fresh is kept. Both are told by the notes that a task makes during one turn (`Proper`), and hold in every turn of every
task that calls, whatever the other tasks do meanwhile (`calls_answer`).
-/

namespace SignedCall

/-- A moment some time away is that far away. -/
theorem Instant.micros_add {t u : Instant} {n : Int} (h : t.add? n = some u) : (u.micros : Int) = t.micros + n := by
  unfold Instant.add? Instant.ofMicros? at h
  split at h
  · next hn =>
    obtain rfl := Option.some.inj h
    exact Int.toNat_of_nonneg hn.1
  · cases h

namespace Refreshing

open RefreshNote

variable {σ : Type} {r : Refreshing σ}

/-- Whether an identity is still to be handed out: it does not expire, or the clock is before the time when it gets stale. -/
def Fresh (r : Refreshing σ) (i : Identity) (s : σ) : Prop :=
  ∀ t, i.expiration = some t → ((r.now s).micros : Int) < t.micros - r.staleTime

/-- An identity that a call may return after some notes of its turn: the one that is kept, if it is fresh, or the one that the fetch
before gave. -/
def Answer (r : Refreshing σ) (notes : List (RefreshNote σ)) (i : Identity) (s : σ) : Prop :=
  (r.kept s = some i ∧ r.Fresh i s) ∨ ∃ js s', notes = js ++ [.fetch (.ended (.value i)) s']

/-- Whether nothing fresh is kept. -/
def Wanting (r : Refreshing σ) (s : σ) : Prop := ∀ i, r.kept s = some i → ¬r.Fresh i s

/-- What a task that calls may note after some notes of its turn. -/
def MayNote (r : Refreshing σ) (notes : List (RefreshNote σ)) : RefreshNote σ → Prop
  | .fetch .began s => r.Wanting s
  | .fetch (.ended _) _ => True
  | .returned o s => ∀ i, o = .value i → r.Answer notes i s

/-- The notes that a task which calls may make in one turn. -/
inductive Proper (r : Refreshing σ) : List (RefreshNote σ) → Prop
  | nil : Proper r []
  | snoc {notes : List (RefreshNote σ)} {e : RefreshNote σ} : Proper r notes → r.MayNote notes e → Proper r (notes ++ [e])

/-- A call may begin a fetch where nothing fresh is kept. -/
theorem Proper.began {notes : List (RefreshNote σ)} {s : σ} (h : r.Proper notes) (hs : r.Wanting s) :
    r.Proper (notes ++ [.fetch .began s]) := h.snoc hs

theorem Proper.ended {notes : List (RefreshNote σ)} (h : r.Proper notes) (o : Outcome Identity) (s : σ) :
    r.Proper (notes ++ [.fetch (.ended o) s]) := h.snoc trivial

/-- A call may return an identity that is an answer. -/
theorem Proper.returned {notes : List (RefreshNote σ)} {o : Outcome Identity} {s : σ} (h : r.Proper notes)
    (ho : ∀ i, o = .value i → r.Answer notes i s) : r.Proper (notes ++ [.returned o s]) := h.snoc ho

/-- Each of some proper notes is one that may follow those before it. -/
theorem Proper.mayNote {notes js ks : List (RefreshNote σ)} {e : RefreshNote σ} (h : r.Proper notes) (he : notes = js ++ e :: ks) :
    r.MayNote js e := by
  induction h generalizing ks with
  | nil => simp at he
  | snoc _ hx ih =>
    rcases append_singleton_cases he with ⟨-, rfl, rfl⟩ | ⟨ks', -, he⟩
    · exact hx
    · exact ih he

/-- What a task that calls does in a turn: it makes proper notes. -/
def Grown (r : Refreshing σ) (s₀ : σ × List (RefreshNote σ)) (journal : List (RefreshNote σ)) : Prop :=
  ∃ notes, journal = s₀.2 ++ notes ∧ r.Proper notes

/-- What a task that calls does in a turn. -/
def conduct (r : Refreshing σ) : Conduct (σ × List (RefreshNote σ)) where
  turn s₀ s := r.Grown s₀ s.2

/-- How a call may end after some notes of its turn. -/
def Answered (r : Refreshing σ) (o : Outcome Identity) (s₀ s : σ × List (RefreshNote σ)) : Prop :=
  ∃ notes, s.2 = s₀.2 ++ notes ∧ r.Proper notes ∧ ∀ i, o = .value i → r.Answer notes i s.1

/-- A turn may begin with no notes. -/
theorem Grown.refl (s : σ × List (RefreshNote σ)) : r.Grown s s.2 := ⟨[], (List.append_nil _).symm, .nil⟩

/-- A call that ends without an identity may do so after any proper notes. -/
theorem Grown.answered {o : Outcome Identity} {s₀ s : σ × List (RefreshNote σ)} (h : r.Grown s₀ s.2) (ho : ∀ i, o ≠ .value i) :
    r.Answered o s₀ s := by
  obtain ⟨notes, hs, hp⟩ := h
  exact ⟨notes, hs, hp, fun i hi => absurd hi (ho i)⟩

theorem Grown.failed {f : Failure} {s₀ s : σ × List (RefreshNote σ)} (h : r.Grown s₀ s.2) : r.Answered (.failed f) s₀ s :=
  h.answered fun _ hi => by cases hi

theorem Grown.cancelled {s₀ s : σ × List (RefreshNote σ)} (h : r.Grown s₀ s.2) : r.Answered .cancelled s₀ s :=
  h.answered fun _ hi => by cases hi

/-- What leaves the journal alone may be part of any turn. -/
theorem turns_of_keeps {α : Type} {p : Program (σ × List (RefreshNote σ)) α} (hp : p.Keeps Prod.snd)
    {s₀ s : σ × List (RefreshNote σ)} (h : r.Grown s₀ s.2) : p.Turns r.conduct (fun _ s₀ s => r.Grown s₀ s.2) s₀ s :=
  Program.Turns.of_keeps (K := r.Grown) hp (fun _ _ s' _ _ => Grown.refl s') (fun _ _ h => h) (fun _ _ => trivial)
    (fun _ _ _ h => h) h

/-! ## The parts of a call -/

/-- Where the calendar reaches back far enough, an identity is fresh if it is not due. -/
theorem fresh_iff {i : Identity} {s : σ} {b : Bool} (h : expiresWithin r.staleTime i (r.now s) = .ok b) :
    r.Fresh i s ↔ b = false := by
  unfold expiresWithin at h
  cases ht : i.expiration with
  | none =>
    rw [ht] at h
    obtain rfl := Except.ok.inj h
    simp [Fresh, ht]
  | some t =>
    rw [ht] at h
    dsimp only at h
    split at h
    · next start hstart =>
      obtain rfl := Except.ok.inj h
      have hmicros := Instant.micros_add hstart
      simp only [Fresh, ht, Option.some.injEq, forall_eq', decide_eq_false_iff_not]
      omega
    · cases h

/-- A call goes on with the identity that is kept. -/
theorem turns_cached {α : Type} {next : Option Identity → Program (σ × List (RefreshNote σ)) α}
    {post : Outcome α → σ × List (RefreshNote σ) → σ × List (RefreshNote σ) → Prop} {s₀ s : σ × List (RefreshNote σ)}
    (hn : ∀ x, r.kept s.1 = x → (next x).Turns r.conduct post s₀ s) : (r.noted.cached >>= next).Turns r.conduct post s₀ s :=
  Program.turns_read (hn _ rfl)

/-- A call goes on with whether an identity is due, or fails where the calendar does not reach back far enough. -/
theorem turns_isDue {w : Int} {i : Identity} {α : Type} {next : Bool → Program (σ × List (RefreshNote σ)) α}
    {post : Outcome α → σ × List (RefreshNote σ) → σ × List (RefreshNote σ) → Prop} {s₀ s : σ × List (RefreshNote σ)}
    (hn : ∀ b, expiresWithin w i (r.now s.1) = .ok b → (next b).Turns r.conduct post s₀ s) (hfail : ∀ f, post (.failed f) s₀ s) :
    (r.noted.isDue w i >>= next).Turns r.conduct post s₀ s := by
  change (Program.ofExcept (expiresWithin w i (r.now s.1)) >>= next).Turns r.conduct post s₀ s
  cases hdue : expiresWithin w i (r.now s.1) with
  | ok b => exact hn b hdue
  | error f => exact hfail f

/-- A fetch where nothing fresh is kept gives an answer. -/
theorem turns_fetchAndKeep (hr : r.FetchesApart) {s₀ s : σ × List (RefreshNote σ)} (h : r.Grown s₀ s.2) (hs : r.Wanting s.1) :
    r.noted.fetchAndKeep.Turns r.conduct r.Answered s₀ s := by
  have hbegan : r.Grown s₀ (inscribe (.fetch .began) s).2 := by
    obtain ⟨notes, hnotes, hp⟩ := h
    exact ⟨notes ++ [.fetch .began s.1], by simp [inscribe, hnotes], hp.began hs⟩
  have hfetch : (r.fetch.beside.reported fun o => .fetch (.ended o)).Turns r.conduct
      (fun o s₀ s => ∃ notes s', s.2 = s₀.2 ++ (notes ++ [.fetch (.ended o) s']) ∧ r.Proper notes) s₀
      (inscribe (.fetch .began) s) := by
    refine (turns_of_keeps (hr.keeps.beside.map Prod.snd) hbegan).andThen fun o s₀ s hgrown => ?_
    obtain ⟨notes, hnotes, hp⟩ := hgrown
    exact ⟨notes, s.1, by simp [inscribe, hnotes], hp⟩
  refine hfetch.andThen fun o s₀ s hended => ?_
  obtain ⟨notes, s', hnotes, hp⟩ := hended
  have hgrown : r.Grown s₀ s.2 := ⟨_, hnotes, hp.ended o s'⟩
  cases o with
  | failed f => exact hgrown.failed
  | cancelled => exact hgrown.cancelled
  | value i =>
    have hkept : ((r.noted.slot.modify fun state => { state with cached := some i }) s).2 = s.2 := rfl
    refine ⟨_, hkept.trans hnotes, hp.ended _ s', fun j hj => ?_⟩
    obtain rfl := Outcome.value.inj hj
    exact Or.inr ⟨notes, s', rfl⟩

/-- What is kept and fresh is an answer. -/
theorem Grown.answered_kept {i : Identity} {s₀ s : σ × List (RefreshNote σ)} (h : r.Grown s₀ s.2) (hkept : r.kept s.1 = some i)
    (hfresh : r.Fresh i s.1) : r.Answered (.value i) s₀ s := by
  obtain ⟨notes, hnotes, hp⟩ := h
  refine ⟨notes, hnotes, hp, fun j hj => ?_⟩
  obtain rfl := Outcome.value.inj hj
  exact Or.inl ⟨hkept, hfresh⟩

/-- Once the lock is held, what is kept is handed out if it is fresh, and replaced if it is not. -/
theorem turns_refresh (hr : r.FetchesApart) {s₀ s : σ × List (RefreshNote σ)} (h : r.Grown s₀ s.2) :
    r.noted.refresh.Turns r.conduct r.Answered s₀ s := by
  refine Program.Turns.withLock Grown.refl (fun s₀ s h => ?_) (fun o s₀ s ho h => Grown.answered h ho) h
  refine turns_cached fun x hkept => ?_
  cases x with
  | none =>
    refine turns_fetchAndKeep hr h fun i hi => ?_
    rw [hkept] at hi
    cases hi
  | some i =>
    refine turns_isDue (fun stale hdue => ?_) fun f => Grown.failed h
    cases stale with
    | false => exact Grown.answered_kept h hkept ((fresh_iff hdue).2 rfl)
    | true =>
      refine turns_fetchAndKeep hr h fun j hj hfresh => ?_
      obtain rfl := Option.some.inj (hkept.symm.trans hj)
      exact Bool.noConfusion ((fresh_iff hdue).1 hfresh)

/-- Starting a background task makes no notes and leaves what is kept and the clock alone. -/
theorem turns_startBackground (hnow : r.slot.Apart r.now) {s₀ s : σ × List (RefreshNote σ)} :
    r.noted.startBackground.Turns r.conduct
      (fun _ s₀' s' => s₀' = s₀ ∧ s'.2 = s.2 ∧ r.kept s'.1 = r.kept s.1 ∧ r.now s'.1 = r.now s.1) s₀ s := by
  have hnew : (do
      let t ← Program.start r.noted.refreshInBackground
      Program.change (r.noted.slot.modify fun state => { state with background := some t })).Turns r.conduct
      (fun _ s₀' s' => s₀' = s₀ ∧ s'.2 = s.2 ∧ r.kept s'.1 = r.kept s.1 ∧ r.now s'.1 = r.now s.1) s₀ s :=
    ⟨trivial, fun t => ⟨rfl, rfl, kept_modify _ s, hnow _ _⟩⟩
  refine Program.turns_read ?_
  cases (r.noted.slot.get s).background with
  | none => exact hnew
  | some t =>
    intro ended
    cases ended with
    | true => exact hnew
    | false => exact ⟨rfl, rfl, rfl, rfl⟩

/-- A call makes proper notes, and its answer is one of the identities that it may return. -/
theorem turns_identity (hr : r.FetchesApart) (hnow : r.slot.Apart r.now) {s₀ s : σ × List (RefreshNote σ)}
    (h : r.Grown s₀ s.2) : r.noted.identity.Turns r.conduct r.Answered s₀ s := by
  refine turns_cached fun x hkept => ?_
  cases x with
  | none => exact turns_refresh hr h
  | some i =>
    refine turns_isDue (fun stale hdue => ?_) fun f => Grown.failed h
    cases stale with
    | true => exact turns_refresh hr h
    | false =>
      have hfresh : r.Fresh i s.1 := (fresh_iff hdue).2 rfl
      have hanswered : r.Answered (.value i) s₀ s := Grown.answered_kept h hkept hfresh
      simp only [Bool.false_eq_true, if_false]
      split
      · refine turns_isDue (fun early _ => ?_) fun f => Grown.failed h
        cases early with
        | false => exact hanswered
        | true =>
          refine (turns_startBackground hnow).andThen fun o s₀' s' hsame => ?_
          obtain ⟨rfl, hnotes, hkept', hnow'⟩ := hsame
          have hgrown : r.Grown s₀' s'.2 := hnotes ▸ h
          cases o with
          | failed f => exact hgrown.failed
          | cancelled => exact hgrown.cancelled
          | value u => exact Grown.answered_kept hgrown (hkept'.trans hkept) (by unfold Fresh at hfresh ⊢; rwa [hnow'])
      · exact hanswered

/-- A call that notes how it ended makes proper notes. -/
theorem turns_call (hr : r.FetchesApart) (hnow : r.slot.Apart r.now) {s₀ s : σ × List (RefreshNote σ)}
    (h : r.Grown s₀ s.2) : r.call.Turns r.conduct (fun _ s₀ s => r.Grown s₀ s.2) s₀ s := by
  refine (turns_identity hr hnow h).andThen fun o s₀ s ho => ?_
  obtain ⟨notes, hnotes, hp, hanswer⟩ := ho
  exact ⟨notes ++ [.returned o s.1], by simp [inscribe, hnotes], hp.returned hanswer⟩

/-- A closing leaves alone the identity that is kept, and the notes. -/
theorem close_keeps_record : r.noted.close.Keeps r.record := by
  have hmodify : ∀ (f : RefreshState → RefreshState), (∀ state, (f state).cached = state.cached) →
      ∀ s, r.record (r.noted.slot.modify f s) = r.record s :=
    fun f hf s => Prod.ext ((kept_modify f s).trans (hf _)) rfl
  refine (Program.keeps_read _ _).bind fun background => Program.Keeps.bind (Program.keeps_change (hmodify _ fun _ => rfl)) fun _ => ?_
  cases background with
  | none => exact trivial
  | some t =>
    intro ended
    cases ended with
    | true => exact trivial
    | false =>
      intro o
      cases o <;> exact trivial

theorem close_keeps : r.noted.close.Keeps Prod.snd := close_keeps_record.map Prod.snd

/-- Whatever a task does with what the resolver keeps, it makes proper notes in every turn. -/
theorem turns_built (hr : r.FetchesApart) (hnow : r.slot.Apart r.now) {α : Type} {p : Program (σ × List (RefreshNote σ)) α}
    (hp : p.Built r.Use) {s₀ s : σ × List (RefreshNote σ)} (h : r.Grown s₀ s.2) :
    p.Turns r.conduct (fun _ s₀ s => r.Grown s₀ s.2) s₀ s := by
  induction hp generalizing s₀ s with
  | piece hp =>
    cases hp with
    | other hkeeps _ => exact turns_of_keeps (hkeeps.map Prod.snd) h
    | call => exact turns_call hr hnow h
    | close => exact turns_of_keeps close_keeps h
  | start _ _ _ hnext => exact ⟨trivial, fun t => hnext t h⟩
  | andThen _ _ hp hnext => exact (hp h).andThen fun o s₀ s hs => hnext o hs

/-! ## Turns of tasks that call -/

/-- A task that uses the resolver makes proper notes in each of its turns, whatever has happened before. -/
theorem proper_turn (hr : r.FetchesApart) (hnow : r.slot.Apart r.now) (p : Pool (σ × List (RefreshNote σ)))
    {body : Program (σ × List (RefreshNote σ)) Unit} (hbody : body.Built r.Use) (ms : List (Move (σ × List (RefreshNote σ))))
    {q : Pool (σ × List (RefreshNote σ))} (hq : q = (p.step (.start body)).steps ms) :
    r.Grown q.state (q.resume p.tasks.length).state.2 := by
  subst hq
  have hconducts : Pool.Conducts r.conduct ((p.step (.start body)).steps ms) p.tasks.length :=
    Pool.conducts_steps (fun _ _ => trivial) Grown.refl p (fun s => turns_built hr hnow hbody (Grown.refl s)) ms
  rcases hconducts.resume fun _ _ => trivial with hturn | hsame
  · exact hturn
  · rw [hsame]
    exact Grown.refl _

/-- Take any run, and a task that was made in it to use the resolver. In each of its turns, whatever has happened before, it makes
some notes. Where they tell that a call returned an identity, it is the one that was kept then, and fresh then, or the one that the
fetch just before gave. Where they tell that a fetch began, nothing fresh was kept then: in particular, what the last successful
fetch gave was not fresh any more. -/
theorem calls_answer (hr : r.FetchesApart) (hnow : r.slot.Apart r.now) {p : Pool (σ × List (RefreshNote σ))} (hp : r.Reached p)
    {body : Program (σ × List (RefreshNote σ)) Unit} (hbody : body.Built r.Use) {ms : List (Move (σ × List (RefreshNote σ)))}
    (hms : ∀ m ∈ ms, r.Permits m) {q : Pool (σ × List (RefreshNote σ))} (hq : q = (p.step (.start body)).steps ms) :
    ∃ notes, (q.resume p.tasks.length).state.2 = q.state.2 ++ notes ∧
      (∀ js i s ks, notes = js ++ .returned (.value i) s :: ks →
        (r.kept s = some i ∧ r.Fresh i s) ∨ ∃ js' s', js = js' ++ [.fetch (.ended (.value i)) s']) ∧
      (∀ js s ks, notes = js ++ .fetch .began s :: ks → ∀ i, r.kept s = some i → ¬r.Fresh i s) ∧
      ∀ js s ks, notes = js ++ .fetch .began s :: ks → ∀ i, latest (q.state.2 ++ js) = some i → ¬r.Fresh i s := by
  obtain ⟨notes, hnotes, hproper⟩ := proper_turn hr hnow p hbody ms hq
  refine ⟨notes, hnotes, fun js i s ks he => hproper.mayNote he i rfl, fun js s ks he => hproper.mayNote he, fun js s ks he i hi => ?_⟩
  have hreached : r.Reached (q.step (.turn p.tasks.length)) := by
    have hstart : r.Permits (.start body) := hbody
    rw [hq]
    exact ((hp.step hstart).steps hms).step trivial
  have hkept : r.kept s = latest (q.state.2 ++ js) := by
    refine (hreached.tells hr).begun (q.state.2 ++ js) s ks ?_
    rw [List.append_assoc, ← he]
    exact hnotes
  exact hproper.mayNote he i (hkept.trans hi)

/-- Two callers in line for one lock: the first one's fetch has failed, and now the second one fetches, since nothing is kept. -/
theorem calls_answer_secondCaller :
    let q := Pool.steps { state := (opening, []) } (scripted.twoCallers ++ [.turn 0])
    scripted.FetchesApart ∧ scripted.slot.Apart scripted.now ∧ outcomes q.state.2 = [.failed ScriptedResolver.noScript] ∧
      ∃ notes, (q.resume 1).state.2 = q.state.2 ++ notes ∧
        ∀ js s ks, notes = js ++ .fetch .began s :: ks → ∀ i, scripted.kept s = some i → ¬scripted.Fresh i s := by
  have hnow : scripted.slot.Apart scripted.now := fun _ _ => rfl
  have hfirst : scripted.Reached (Pool.steps { state := (opening, []) } [.start scripted.caller]) :=
    Pool.Reached.steps (.start ⟨rfl, rfl⟩) (List.forall_mem_singleton.2 built_caller)
  have hrest : ∀ m ∈ [.turn 0, .turn 1, .turn 0], scripted.Permits m := by simp [Permits, Move.Within]
  obtain ⟨notes, hnotes, -, hbegan, -⟩ := calls_answer scripted_fetchesApart hnow hfirst built_caller hrest rfl
  exact ⟨scripted_fetchesApart, hnow, rfl, notes, hnotes, hbegan⟩

end Refreshing

end SignedCall
