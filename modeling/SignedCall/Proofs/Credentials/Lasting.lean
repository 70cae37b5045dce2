import SignedCall.Proofs.Credentials.Calls
import SignedCall.Proofs.Credentials.Keeping
import SignedCall.Proofs.Task.Discipline
import SignedCall.Proofs.Task.Play

/-!
# Identities at the beginning of the calendar

Whether an identity is due is told by looking back from its expiration. Where the calendar does not reach back that far
(`OutOfReach`), a call fails, and neither fetches nor leaves anything else behind (`play_identity_outOfReach`). That is the only way in
which a call fails on its own account: every other one gives the identity that is kept and fresh, or ends as a fetch of its own does
(`calls_hold`). So calls go well if all fetches do and all identities last, and need not go well otherwise (`calls_hold_always_false`).
-/

namespace SignedCall

namespace Refreshing

open RefreshNote

variable {σ : Type} {r : Refreshing σ}

/-- The failure to look back from an expiration. -/
def noWindow : Failure := Failure.inner .overflow "date value out of range"

/-- Whether a call has to look back to before the calendar: to where the identity is stale, or, if it is still fresh, to where it is
fetched ahead of time. -/
def OutOfReach (r : Refreshing σ) (i : Identity) (s : σ) : Prop :=
  ∃ t, i.expiration = some t ∧
    (t.add? (-r.staleTime) = none ∨ (r.prefetches = true ∧ r.Fresh i s ∧ t.add? (-r.prefetchTime) = none))

/-- An identity that lasts is never out of reach. -/
theorem Lasting.not_outOfReach {i : Identity} (h : r.Lasting i) (s : σ) : ¬r.OutOfReach i s := by
  rintro ⟨t, ht, hstale | ⟨hpre, -, hearly⟩⟩
  · have hreach := (h t ht).1
    rw [hstale] at hreach
    cases hreach
  · have hreach := (h t ht).2 hpre
    rw [hearly] at hreach
    cases hreach

/-- The calendar reaches back by a window exactly if its beginning is that long ago. -/
theorem isSome_add?_neg {w : Int} (hw : 0 ≤ w) (t : Instant) : (t.add? (-w)).isSome ↔ w ≤ t.micros := by
  have ht := t.micros_lt
  unfold Instant.add? Instant.ofMicros?
  split
  · next h => exact ⟨fun _ => by omega, fun _ => rfl⟩
  · next h => exact ⟨fun hsome => Bool.noConfusion hsome, fun hle => absurd ⟨by omega, by omega⟩ h⟩

/-- An identity lasts exactly if it expires no sooner after the beginning of the calendar than the windows are long. -/
theorem lasting_iff (hstale : 0 ≤ r.staleTime) (hpre : 0 ≤ r.prefetchTime) (i : Identity) :
    r.Lasting i ↔ ∀ t, i.expiration = some t →
      r.staleTime ≤ t.micros ∧ (r.prefetches = true → r.prefetchTime ≤ t.micros) := by
  simp only [Lasting, isSome_add?_neg hstale, isSome_add?_neg hpre]

/-- Looking back fails only where the calendar does not reach. -/
theorem expiresWithin_error {w : Int} {i : Identity} {now : Instant} {f : Failure} (h : expiresWithin w i now = .error f) :
    f = noWindow ∧ ∃ t, i.expiration = some t ∧ t.add? (-w) = none := by
  unfold expiresWithin at h
  split at h
  · cases h
  · next t ht =>
    split at h
    · cases h
    · next hnone => exact ⟨(Except.error.inj h).symm, t, ht, hnone⟩

/-- Where the calendar does not reach back far enough, nobody can tell whether an identity is due. -/
theorem expiresWithin_of_none {w : Int} {i : Identity} {t : Instant} (ht : i.expiration = some t) (h : t.add? (-w) = none)
    (now : Instant) : expiresWithin w i now = .error noWindow := by
  unfold expiresWithin
  simp only [ht, h]
  rfl

/-- Where that cannot be told a program fails and leaves everything as it was. -/
theorem play_isDue_error {w : Int} {i : Identity} {s : σ} {f : Failure} (h : expiresWithin w i (r.now s) = .error f) {α : Type}
    (next : Bool → Program σ α) (env : Nat → Reaction σ) : (r.isDue w i >>= next).play env s = (.failed f, s) := by
  change (Program.ofExcept (expiresWithin w i (r.now s)) >>= next).play env s = _
  rw [h]
  rfl

/-- Where that can be told a program goes on with it. -/
theorem play_isDue_ok {w : Int} {i : Identity} {s : σ} {b : Bool} (h : expiresWithin w i (r.now s) = .ok b) {α : Type}
    (next : Bool → Program σ α) (env : Nat → Reaction σ) : (r.isDue w i >>= next).play env s = (next b).play env s := by
  change (Program.ofExcept (expiresWithin w i (r.now s)) >>= next).play env s = _
  rw [h]
  rfl

/-- A program goes on with the identity that is kept. -/
theorem play_cached {x : Option Identity} {s : σ} (hkept : r.kept s = x) {α : Type} (next : Option Identity → Program σ α)
    (env : Nat → Reaction σ) : (r.cached >>= next).play env s = (next x).play env s := hkept ▸ rfl

/-- A call that has to look back to before the calendar fails at once. It changes nothing, and so does not fetch. -/
theorem play_identity_outOfReach {i : Identity} {s : σ} (hkept : r.kept s = some i) (h : r.OutOfReach i s) (env : Nat → Reaction σ) :
    r.identity.play env s = (.failed noWindow, s) := by
  obtain ⟨t, ht, hreach⟩ := h
  refine (play_cached hkept _ env).trans ?_
  cases hstale : expiresWithin r.staleTime i (r.now s) with
  | error f =>
    obtain ⟨rfl, -⟩ := expiresWithin_error hstale
    exact play_isDue_error hstale _ env
  | ok stale =>
    rcases hreach with hnone | ⟨hpre, hfresh, hnone⟩
    · rw [expiresWithin_of_none ht hnone] at hstale
      cases hstale
    · obtain rfl := (fresh_iff hstale).1 hfresh
      refine (play_isDue_ok hstale _ env).trans ?_
      rw [hpre]
      exact play_isDue_error (expiresWithin_of_none ht hnone _) _ env

/-! ## The notes of calls -/

/-- What the end of a call comes from, after some notes and in some state. Until then nothing but fetches has changed what is kept. -/
def Accounts (r : Refreshing σ) (js : List (RefreshNote σ)) (o : Outcome Identity) (s : σ) : Prop :=
  r.kept s = latest js ∧
    match o with
    | .value i => (r.kept s = some i ∧ r.Fresh i s) ∨ ∃ js' s', js = js' ++ [.fetch (.ended (.value i)) s']
    | .failed f => (∃ js' s', js = js' ++ [.fetch (.ended (.failed f)) s']) ∨ (f = noWindow ∧ ∃ i, r.kept s = some i ∧ r.OutOfReach i s)
    | .cancelled => True

/-- Whether the ends of all calls of a journal are accounted for. -/
def Accounted (r : Refreshing σ) (journal : List (RefreshNote σ)) : Prop :=
  ∀ js o s ks, journal = js ++ .returned o s :: ks → r.Accounts js o s

/-- What tasks keep to that call: what is kept is what the last successful fetch gave, and the ends of calls are accounted for. -/
def discipline (r : Refreshing σ) : Discipline σ (Option Identity) (RefreshNote σ) where
  part := r.kept
  rests kept journal := kept = latest journal ∧ r.Accounted journal
  ends _ := true
  may _ _ := True

/-- One more note keeps the ends of calls accounted for if it is no end, or one that is. -/
theorem Accounted.concat {journal : List (RefreshNote σ)} {e : RefreshNote σ} (h : r.Accounted journal)
    (he : ∀ o s, e = .returned o s → r.Accounts journal o s) : r.Accounted (journal ++ [e]) := by
  intro js o s ks hsplit
  rcases append_singleton_cases hsplit with ⟨-, he', rfl⟩ | ⟨ks', -, hsplit⟩
  · exact he o s he'.symm
  · exact h js o s ks' hsplit

/-- A note of a fetch is no end of a call. -/
theorem Accounted.fetch {journal : List (RefreshNote σ)} (h : r.Accounted journal) (e : FetchEvent) (s : σ) :
    r.Accounted (journal ++ [.fetch e s]) := h.concat nofun

/-- The end of a call leaves alone what the last successful fetch gave. -/
theorem latest_returned (js : List (RefreshNote σ)) (o : Outcome Identity) (s : σ) : latest (js ++ [.returned o s]) = latest js :=
  latest_of_outcomes (outcomes_append _ _) fun _ => List.not_mem_nil

variable {s : σ × List (RefreshNote σ)}

/-- What holds when a call is about to end: its end is accounted for. -/
def Ready (r : Refreshing σ) (o : Outcome Identity) (cur : List (RefreshNote σ)) (s : σ × List (RefreshNote σ)) : Prop :=
  cur = [] ∧ r.discipline.Rests s ∧ r.Accounts s.2 o s.1

/-- What holds when a fetch has ended and its identity is not kept yet. -/
def Fetched (r : Refreshing σ) (o : Outcome Identity) (cur : List (RefreshNote σ)) (s : σ × List (RefreshNote σ)) : Prop :=
  cur = [] ∧ r.Accounted s.2 ∧ latest s.2 = keep (r.kept s.1) o ∧ ∃ js s', s.2 = js ++ [.fetch (.ended o) s']

/-- A fetch notes its beginning and its end, and what it gave is still to be kept. -/
theorem follows_fetch (hr : r.FetchesApart) (hs : r.discipline.Rests s) :
    r.noted.fetch.Follows r.discipline r.Fetched [] s := by
  have hbegan : r.discipline.Rests (inscribe (.fetch .began) s) :=
    ⟨hs.1.trans (latest_began s.2 s.1).symm, hs.2.fetch .began s.1⟩
  refine Program.Follows.announced trivial ?_
  refine (Program.Follows.of_keeps hr.keeps.beside _ hbegan).reported fun o cur s' hended => ⟨trivial, rfl, ?_⟩
  obtain ⟨-, hkept, haccounted⟩ := hended
  refine ⟨haccounted.fetch (.ended o) s'.1, ?_, s'.2, s'.1, rfl⟩
  exact (latest_ended s'.2 o s'.1).trans (congrArg (keep · o) hkept.symm)

/-- After a fetch whose identity is kept a call may end as the fetch did. -/
theorem follows_fetchAndKeep (hr : r.FetchesApart) (hs : r.discipline.Rests s) :
    r.noted.fetchAndKeep.Follows r.discipline r.Ready [] s := by
  refine (follows_fetch hr hs).bind ?_ ?_ ?_
  · rintro i cur s ⟨rfl, haccounted, hlatest, js, s', hjournal⟩
    refine Program.follows_change rfl ⟨rfl, ⟨?_, haccounted⟩, ?_, Or.inr ⟨js, s', hjournal⟩⟩
    · exact (kept_modify _ s).trans hlatest.symm
    · exact (kept_modify _ s).trans hlatest.symm
  · rintro f cur s ⟨rfl, haccounted, hlatest, js, s', hjournal⟩
    exact ⟨rfl, ⟨hlatest.symm, haccounted⟩, hlatest.symm, Or.inl ⟨js, s', hjournal⟩⟩
  · rintro cur s ⟨rfl, haccounted, hlatest, -⟩
    exact ⟨rfl, ⟨hlatest.symm, haccounted⟩, hlatest.symm, trivial⟩

/-- A call may end with what is kept and fresh. -/
theorem ready_kept {i : Identity} (hs : r.discipline.Rests s) (hkept : r.kept s.1 = some i) (hfresh : r.Fresh i s.1) :
    r.Ready (.value i) [] s := ⟨rfl, hs, hs.1, Or.inl ⟨hkept, hfresh⟩⟩

/-- It may fail if what is kept is out of reach. -/
theorem ready_outOfReach {i : Identity} (hs : r.discipline.Rests s) (hkept : r.kept s.1 = some i) (hreach : r.OutOfReach i s.1) :
    r.Ready (.failed noWindow) [] s := ⟨rfl, hs, hs.1, Or.inr ⟨rfl, i, hkept, hreach⟩⟩

/-- A call goes on with the identity that is kept. -/
theorem follows_cached {next : Option Identity → Program (σ × List (RefreshNote σ)) Identity}
    (h : ∀ x, r.kept s.1 = x → (next x).Follows r.discipline r.Ready [] s) :
    (r.noted.cached >>= next).Follows r.discipline r.Ready [] s := Program.follows_read (h _ rfl)

/-- A call goes on with whether an identity is due, or ends because the calendar does not reach back far enough. -/
theorem follows_isDue {w : Int} {i : Identity} {next : Bool → Program (σ × List (RefreshNote σ)) Identity}
    (hok : ∀ b, expiresWithin w i (r.now s.1) = .ok b → (next b).Follows r.discipline r.Ready [] s)
    (herror : (∃ t, i.expiration = some t ∧ t.add? (-w) = none) → r.Ready (.failed noWindow) [] s) :
    (r.noted.isDue w i >>= next).Follows r.discipline r.Ready [] s := by
  change (Program.read r.noted.now >>= fun now => Program.ofExcept (expiresWithin w i now) >>= next).Follows r.discipline r.Ready [] s
  refine Program.follows_read ?_
  change (Program.ofExcept (expiresWithin w i (r.now s.1)) >>= next).Follows r.discipline r.Ready [] s
  cases hdue : expiresWithin w i (r.now s.1) with
  | ok b => exact hok b hdue
  | error f =>
    obtain ⟨rfl, hnone⟩ := expiresWithin_error hdue
    exact herror hnone

/-- A call that has to fetch ends with a fresh identity that was kept meanwhile, or as its fetch does. -/
theorem follows_refresh (hr : r.FetchesApart) (hs : r.discipline.Rests s) :
    r.noted.refresh.Follows r.discipline r.Ready [] s := by
  refine Program.Follows.withLock hs (fun s hs => follows_cached fun x hkept => ?_) fun s hs => ⟨rfl, hs, hs.1, trivial⟩
  cases x with
  | none => exact follows_fetchAndKeep hr hs
  | some i =>
    refine follows_isDue (fun stale hdue => ?_) fun hnone => ?_
    · cases stale with
      | true => exact follows_fetchAndKeep hr hs
      | false => exact ready_kept hs hkept ((fresh_iff hdue).2 rfl)
    · obtain ⟨t, ht, hnone⟩ := hnone
      exact ready_outOfReach hs hkept ⟨t, ht, Or.inl hnone⟩

/-- A background task keeps the discipline. -/
theorem follows_refreshInBackground (hr : r.FetchesApart) (hs : r.discipline.Rests s) :
    r.noted.refreshInBackground.Follows r.discipline r.discipline.Ended [] s := by
  have hlocked : (Program.withLock r.lock r.noted.fetchAndKeep).Follows r.discipline
      (fun _ cur s => cur = [] ∧ r.discipline.Rests s) [] s :=
    Program.Follows.withLock hs (fun s hs => (follows_fetchAndKeep hr hs).mono fun _ _ _ h => ⟨h.1, h.2.1⟩) fun s hs => ⟨rfl, hs⟩
  exact hlocked.attempt (fun _ _ _ h => h) (fun _ _ _ h => h) fun _ _ h => h

/-- What holds after a background task may have been started in a state: what is kept and the clock are as they were. -/
def Started (r : Refreshing σ) (s : σ × List (RefreshNote σ)) (o : Outcome Unit) (cur : List (RefreshNote σ))
    (s' : σ × List (RefreshNote σ)) : Prop :=
  o = Outcome.value () ∧ cur = [] ∧ r.discipline.Rests s' ∧ r.kept s'.1 = r.kept s.1 ∧ r.now s'.1 = r.now s.1

/-- Starting a background task leaves what is kept and the clock as they were. -/
theorem follows_startBackground (hr : r.FetchesApart) (hnow : r.slot.Apart r.now) (hs : r.discipline.Rests s) :
    r.noted.startBackground.Follows r.discipline (r.Started s) [] s := by
  have hnew : (do
      let t ← Program.start r.noted.refreshInBackground
      Program.change (r.noted.slot.modify fun state => { state with background := some t })).Follows r.discipline
      (r.Started s) [] s := by
    refine ⟨fun s' hs' => follows_refreshInBackground hr hs', fun t => Or.inl ⟨rfl, rfl, rfl, ?_, kept_modify _ s, hnow _ _⟩⟩
    exact ⟨(kept_modify _ s).trans hs.1, hs.2⟩
  refine Program.follows_read ?_
  cases (r.noted.slot.get s).background with
  | none => exact hnew
  | some t =>
    intro ended
    cases ended with
    | true => exact hnew
    | false => exact ⟨rfl, rfl, hs, rfl, rfl⟩

/-- The end of every call is accounted for. -/
theorem follows_identity (hr : r.FetchesApart) (hnow : r.slot.Apart r.now) (hs : r.discipline.Rests s) :
    r.noted.identity.Follows r.discipline r.Ready [] s := by
  refine follows_cached fun x hkept => ?_
  cases x with
  | none => exact follows_refresh hr hs
  | some i =>
    refine follows_isDue (fun stale hdue => ?_) fun hnone => ?_
    · cases stale with
      | true => exact follows_refresh hr hs
      | false =>
        have hfresh : r.Fresh i s.1 := (fresh_iff hdue).2 rfl
        have hready : r.Ready (.value i) [] s := ready_kept hs hkept hfresh
        simp only [Bool.false_eq_true, if_false]
        split
        · next hpre =>
          refine follows_isDue (fun early _ => ?_) fun hnone => ?_
          · cases early with
            | false => exact hready
            | true =>
              refine (follows_startBackground hr hnow hs).andThen fun o cur s' hstarted => ?_
              obtain ⟨rfl, rfl, hs', hkept', hnow'⟩ := hstarted
              exact ready_kept hs' (hkept'.trans hkept) (by unfold Fresh at hfresh ⊢; rwa [hnow'])
          · obtain ⟨t, ht, hnone⟩ := hnone
            exact ready_outOfReach hs hkept ⟨t, ht, Or.inr ⟨hpre, hfresh, hnone⟩⟩
        · exact hready
    · obtain ⟨t, ht, hnone⟩ := hnone
      exact ready_outOfReach hs hkept ⟨t, ht, Or.inl hnone⟩

/-- A call that notes how it ended keeps the discipline. -/
theorem follows_call (hr : r.FetchesApart) (hnow : r.slot.Apart r.now) (hs : r.discipline.Rests s) :
    r.call.Follows r.discipline r.discipline.Ended [] s := by
  refine (follows_identity hr hnow hs).reported fun o cur s' hready => ⟨trivial, rfl, ?_⟩
  obtain ⟨-, hs', haccounts⟩ := hready
  refine ⟨hs'.1.trans (latest_returned s'.2 o s'.1).symm, hs'.2.concat fun o' x he => ?_⟩
  obtain ⟨rfl, rfl⟩ := RefreshNote.returned.inj he
  exact haccounts

/-- Whatever a task does with what the resolver keeps, it keeps to the discipline. -/
theorem follows_use (hr : r.FetchesApart) (hnow : r.slot.Apart r.now) {α : Type} {p : Program (σ × List (RefreshNote σ)) α}
    (hp : r.Use α p) (hs : r.discipline.Rests s) : p.Follows r.discipline r.discipline.Ended [] s := by
  have hrest : ∀ {α : Type} {p : Program (σ × List (RefreshNote σ)) α}, p.Keeps r.discipline.view →
      p.Follows r.discipline r.discipline.Ended [] s := fun hkeeps => Program.Follows.of_keeps hkeeps [] hs
  cases hp with
  | other hkeeps _ => exact hrest hkeeps
  | call => exact follows_call hr hnow hs
  | close => exact hrest close_keeps_record

/-- At every point of every run the ends of all calls are accounted for. -/
theorem Reached.accounted (hr : r.FetchesApart) (hnow : r.slot.Apart r.now) {p : Pool (σ × List (RefreshNote σ))} (hp : r.Reached p) :
    r.Accounted p.state.2 := by
  obtain ⟨record, hrecorded⟩ := hp.exists_recorded
  have hstart : ∀ s : σ × List (RefreshNote σ), r.kept s.1 = none ∧ s.2 = [] → s.2 = [] ∧ r.discipline.Rests s := by
    rintro ⟨s, js⟩ ⟨hkept, rfl⟩
    exact ⟨rfl, hkept, by simp [Accounted]⟩
  have hadmits : ∀ m, r.Permits m → Pool.Admits r.discipline m := fun m hm =>
    Pool.admits_of_within (fun _ _ hp s hs => follows_use hr hnow hp hs) hm
  exact (Pool.Recorded.disciplined hstart hadmits hrecorded).2.1.2

/-- What the last successful fetch gave was given by a fetch. -/
theorem mem_outcomes_of_latest {js : List (RefreshNote σ)} {i : Identity} (h : latest js = some i) : .value i ∈ outcomes js := by
  have hfold : ∀ os : List (Outcome Identity), os.foldl keep none = some i → .value i ∈ os := by
    intro os
    induction os using List.reverseRecOn with
    | nil => exact nofun
    | append_singleton os o ih =>
      intro hos
      rw [List.foldl_append] at hos
      cases o with
      | value j =>
        obtain rfl : j = i := Option.some.inj hos
        exact List.mem_append_right _ List.mem_cons_self
      | failed f => exact List.mem_append_left _ (ih hos)
      | cancelled => exact List.mem_append_left _ (ih hos)
  exact hfold _ h

/-- Take any run in which callers, background tasks, closings, cancellations and other work are interleaved, whatever the clock shows
meanwhile. A call that ends gives the identity that is kept, which is fresh and what the last successful fetch gave, or ends as a
fetch just before did, or was cancelled, or has to look back to before the calendar. So no call fails if no fetch did and all
identities that were fetched last. But where a call has to look back to before the calendar, it fails at once and leaves everything as
it was, so that later ones do so too. -/
theorem calls_hold (hr : r.FetchesApart) (hnow : r.slot.Apart r.now) :
    (∀ p, r.Reached p → ∀ js o s ks, p.state.2 = js ++ .returned o s :: ks → r.Accounts js o s) ∧
    (∀ p, r.Reached p → (∀ f, .failed f ∉ outcomes p.state.2) → (∀ i, .value i ∈ outcomes p.state.2 → r.Lasting i) →
      ∀ f s, .returned (.failed f) s ∉ p.state.2) ∧
    ∀ i s env, r.kept s = some i → r.OutOfReach i s → r.identity.play env s = (.failed noWindow, s) := by
  refine ⟨fun p hp => hp.accounted hr hnow, fun p hp hsucceed hlast f s hmem => ?_, fun i s env hkept hreach =>
    play_identity_outOfReach hkept hreach env⟩
  obtain ⟨js, ks, hjournal⟩ := List.append_of_mem hmem
  have hbefore : ∀ o, o ∈ outcomes js → o ∈ outcomes p.state.2 := by
    intro o ho
    rw [hjournal, outcomes_append]
    exact List.mem_append_left _ ho
  obtain ⟨hlatest, ⟨js', s', rfl⟩ | ⟨-, i, hkept, hreach⟩⟩ := hp.accounted hr hnow js _ s ks hjournal
  · refine hsucceed f (hbefore _ ?_)
    rw [outcomes_append]
    exact List.mem_append_right _ List.mem_cons_self
  · exact (hlast i (hbefore _ (mem_outcomes_of_latest (hlatest.symm.trans hkept)))).not_outOfReach s hreach

/-- An identity that expires some time after the beginning of the calendar. -/
def expiring (name : String) (micros : Nat) (h : micros < timeLimit) : Identity :=
  .credentials { accessKeyId := .text name, secretAccessKey := .text "secret", expiration := some ⟨micros, h⟩ }

/-- Nothing is kept at the beginning of the calendar; the first identity expires some time later, the second one after ten minutes. -/
def twoIdentities (micros : Nat) (h : micros < timeLimit) : Stage :=
  (({}, { script := [{ result := .ok (expiring "first" micros h) },
                     { result := .ok (expiring "second" (600 * secondMicros) (by decide)) }] }), Rehearsal.start)

/-- The clock is set to a hundred seconds. -/
def laterOn (s : Stage × List (RefreshNote Stage)) : Stage × List (RefreshNote Stage) :=
  ((s.1.1, ⟨100 * secondMicros, by decide⟩), s.2)

/-- One call, and another one later on. -/
def callLaterOn : List (Move (Stage × List (RefreshNote Stage))) :=
  [.start scripted.caller, .turn 0, .change laterOn, .start scripted.caller, .turn 1]

/-- The calls and the change of the clock are what may happen. -/
theorem permits_callLaterOn : ∀ m ∈ callLaterOn, scripted.Permits m := by
  have hlaterOn : ∀ s, scripted.record (laterOn s) = scripted.record s := fun _ => rfl
  simp [callLaterOn, Permits, Move.Within, built_caller, hlaterOn]

/-- The two calls are a run that begins with nothing kept. -/
theorem reached_callLaterOn (micros : Nat) (h : micros < timeLimit) :
    scripted.Reached (Pool.steps { state := (twoIdentities micros h, []) } callLaterOn) :=
  Pool.Reached.steps (.start ⟨rfl, rfl⟩) permits_callLaterOn

/-- The first identity is stale when the second call is made, and so the second one is fetched. No call fails. -/
theorem calls_hold_laterOn :
    let p := Pool.steps { state := (twoIdentities (120 * secondMicros) (by decide), []) } callLaterOn
    scripted.FetchesApart ∧ scripted.slot.Apart scripted.now ∧ scripted.Reached p ∧
      outcomes p.state.2 = [.value (expiring "first" (120 * secondMicros) (by decide)),
        .value (expiring "second" (600 * secondMicros) (by decide))] ∧
      ∀ f s, .returned (.failed f) s ∉ p.state.2 := by
  intro p
  have hnow : scripted.slot.Apart scripted.now := fun _ _ => rfl
  have hreached : scripted.Reached p := reached_callLaterOn _ _
  have houtcomes : outcomes p.state.2 = [.value (expiring "first" (120 * secondMicros) (by decide)),
      .value (expiring "second" (600 * secondMicros) (by decide))] := rfl
  have hlast : ∀ i, .value i ∈ outcomes p.state.2 → scripted.Lasting i := by
    intro i hi
    rw [lasting_iff (by decide) (by decide)]
    rw [houtcomes] at hi
    simp only [List.mem_cons, Outcome.value.injEq, List.not_mem_nil, or_false] at hi
    rintro t ht
    rcases hi with rfl | rfl <;> obtain rfl := Option.some.inj ht <;> exact ⟨by decide, by decide⟩
  exact ⟨scripted_fetchesApart, hnow, hreached, houtcomes,
    (calls_hold scripted_fetchesApart hnow).2.1 p hreached (by rw [houtcomes]; simp) hlast⟩

/-- The first identity expires as the calendar begins. No fetch fails, but the second call does. -/
theorem calls_hold_always_false :
    ¬∀ (r : Refreshing Stage), r.FetchesApart → r.slot.Apart r.now → r.staleTime = 60 * secondMicros → ∀ p, r.Reached p →
      (∀ f, .failed f ∉ outcomes p.state.2) → ∀ f s, .returned (.failed f) s ∉ p.state.2 := by
  intro hall
  have houtcomes : outcomes (Pool.steps { state := (twoIdentities 0 (by decide), []) } callLaterOn).state.2 =
      [.value (expiring "first" 0 (by decide))] := rfl
  have hfailed : ∃ s, (Pool.steps { state := (twoIdentities 0 (by decide), []) } callLaterOn).state.2.getLast? =
      some (.returned (.failed noWindow) s) := ⟨_, rfl⟩
  obtain ⟨s, hs⟩ := hfailed
  refine hall scripted scripted_fetchesApart (fun _ _ => rfl) rfl _ (reached_callLaterOn 0 (by decide)) ?_ noWindow s
    (List.mem_of_getLast? hs)
  rw [houtcomes]
  simp

end Refreshing

end SignedCall
