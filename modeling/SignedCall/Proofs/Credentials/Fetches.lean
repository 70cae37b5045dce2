import SignedCall.Proofs.Credentials.Notes
import SignedCall.Proofs.Rehearsal
import SignedCall.Proofs.Task.Guard
import SignedCall.Task.Session

/-!
# One fetch at a time

Callers, background tasks and closings of one resolver may be interleaved and cancelled in any way. The fetches are noted as they
begin and end, with the state as it is then, and the ends of calls beside them. At every point of every run the fetches were made
one after the other, the lock is held exactly while one is made, and the identity that is kept is what the last successful one gave
(`one_fetch_at_a_time`). Every run without notes is such a run but for the notes (`exists_reached`).
-/

namespace SignedCall

namespace Refreshing

open RefreshNote

variable {σ : Type} {r : Refreshing σ}

/-- The fetch leaves alone the identity that is kept, and the lock. -/
structure FetchesApart (r : Refreshing σ) : Prop where
  keeps : r.fetch.Keeps fun s => (r.slot.get s).cached
  shuns : r.fetch.Shuns r.lock

/-- The identity that is kept. -/
def kept (r : Refreshing σ) (s : σ) : Option Identity := (r.slot.get s).cached

/-- What a journal tells of the identity that is kept, and of whether a fetch is being made. -/
structure Tells (r : Refreshing σ) (kept : Option Identity) (journal : List (RefreshNote σ)) (fetching : Bool) : Prop where
  kept : kept = latest journal
  events : events journal = FetchEvent.inTurn (outcomes journal) ++ if fetching then [.began] else []
  begun : ∀ js s ks, journal = js ++ .fetch .began s :: ks → r.kept s = latest js

namespace Tells

variable {kept : Option Identity} {js : List (RefreshNote σ)}

theorem nil : r.Tells none [] false := ⟨rfl, rfl, by simp⟩

/-- A fetch may begin when none is being made. -/
theorem begin (h : r.Tells kept js false) {s : σ} (hs : r.kept s = kept) : r.Tells kept (js ++ [.fetch .began s]) true := by
  have hos : outcomes (js ++ [.fetch .began s]) = outcomes js := (outcomes_append _ _).trans (List.append_nil _)
  refine ⟨(latest_began js s).symm ▸ h.kept, ?_, fun ks x ls he => ?_⟩
  · rw [events_append, h.events, hos]
    simp [RefreshNote.events, event?]
  · rcases append_singleton_cases he with ⟨-, hx, rfl⟩ | ⟨ls', -, he⟩
    · obtain ⟨-, rfl⟩ := RefreshNote.fetch.inj hx
      exact hs.trans h.kept
    · exact h.begun ks x ls' he

/-- A fetch that was being made ends, and what it gave is kept. -/
theorem finish (h : r.Tells kept js true) (o : Outcome Identity) (s : σ) :
    r.Tells (keep kept o) (js ++ [.fetch (.ended o) s]) false := by
  have hos : outcomes (js ++ [.fetch (.ended o) s]) = outcomes js ++ [o] := outcomes_append _ _
  refine ⟨by rw [latest_ended, h.kept], ?_, fun ks x ls he => ?_⟩
  · rw [events_append, h.events, hos]
    simp [FetchEvent.inTurn, RefreshNote.events, event?]
  · rcases append_singleton_cases he with ⟨-, hx, -⟩ | ⟨ls', -, he⟩
    · cases hx
    · exact h.begun ks x ls' he

/-- The ends of calls among the notes of fetches do not matter. -/
theorem of_filter {journal : List (RefreshNote σ)} {fetching : Bool} (h : r.Tells kept (journal.filter isFetch) fetching) :
    r.Tells kept journal fetching := by
  refine ⟨h.kept.trans (latest_filter _), ?_, fun ks x ls he => ?_⟩
  · rw [← events_filter, ← outcomes_filter]
    exact h.events
  · rw [← latest_filter]
    refine h.begun (ks.filter isFetch) x (ls.filter isFetch) ?_
    rw [he, List.filter_append]
    rfl

end Tells

/-- The identity that is kept, and the journal. -/
def record (r : Refreshing σ) (s : σ × List (RefreshNote σ)) : Option Identity × List (RefreshNote σ) := (r.kept s.1, s.2)

/-- What a task may do with what the resolver keeps: call, close, and anything that has nothing to do with it. -/
inductive Use (r : Refreshing σ) : ∀ α : Type, Program (σ × List (RefreshNote σ)) α → Prop
  | other {α : Type} {p : Program (σ × List (RefreshNote σ)) α} : p.Keeps r.record → p.Shuns r.lock → Use r α p
  | call : Use r Identity r.call
  | close : Use r Unit r.noted.close

/-- What may happen: tasks have their turns, are woken, cancelled or made, and the rest of the state changes. -/
def Permits (r : Refreshing σ) : Move (σ × List (RefreshNote σ)) → Prop := Move.Within r.Use r.record

/-- The lock guards the identity that is kept and the notes of fetches. -/
def guard (r : Refreshing σ) : Guard (σ × List (RefreshNote σ)) (Option Identity × List (RefreshNote σ)) where
  lock := r.lock
  part s := (r.kept s.1, s.2.filter isFetch)
  idle x := r.Tells x.1 x.2 false
  busy x := r.Tells x.1 x.2 true
  leads x y := x.2 <+: y.2
  leads_refl x := List.prefix_refl x.2
  leads_trans := List.IsPrefix.trans

/-! ## The parts of a call -/

/-- A note of a fetch is one of what the lock guards. -/
theorem part_inscribe {s : σ × List (RefreshNote σ)} {e : σ → RefreshNote σ} (he : (e s.1).isFetch = true) :
    r.guard.part (inscribe e s) = ((r.guard.part s).1, (r.guard.part s).2 ++ [e s.1]) := by
  refine Prod.ext rfl ?_
  simp [guard, inscribe, he]

theorem kept_modify (f : RefreshState → RefreshState) (s : σ × List (RefreshNote σ)) :
    r.kept (r.noted.slot.modify f s).1 = (f (r.slot.get s.1)).cached := congrArg RefreshState.cached (r.slot.get_set _ _)

theorem part_modify (f : RefreshState → RefreshState) (s : σ × List (RefreshNote σ)) :
    r.guard.part (r.noted.slot.modify f s) = ((f (r.slot.get s.1)).cached, (r.guard.part s).2) :=
  Prod.ext (kept_modify f s) rfl

/-- Whether an identity is due is found out without a change, or fails. -/
theorem obeys_isDue {w : Int} {i : Identity} {α : Type} {next : Bool → Program (σ × List (RefreshNote σ)) α}
    {post : Outcome α → Option (Option Identity × List (RefreshNote σ)) → Prop}
    {m : Option (Option Identity × List (RefreshNote σ))} (hn : ∀ b, (next b).Obeys r.guard post m)
    (hfail : ∀ f, post (.failed f) m) : (r.noted.isDue w i >>= next).Obeys r.guard post m := by
  change (Program.read r.noted.now >>= fun now => Program.ofExcept (expiresWithin w i now) >>= next).Obeys r.guard post m
  refine Program.Obeys.read fun now => ?_
  cases expiresWithin w i now with
  | ok b => exact hn b
  | error f => exact hfail f

/-- A fetch that is at work comes to its end, and the end is noted. -/
theorem obeys_fetch (hr : r.FetchesApart) {kept : Option Identity} {js : List (RefreshNote σ)} (h : r.Tells kept js true) :
    (r.fetch.beside.reported fun o => .fetch (.ended o)).Obeys r.guard
      (fun o m => ∃ s, m = some (kept, js ++ [.fetch (.ended o) s])) (some (kept, js)) := by
  have hfetch : r.fetch.beside.Keeps r.guard.part := hr.keeps.beside.map fun x => (x.1, x.2.filter isFetch)
  have hwork : r.fetch.beside.Obeys r.guard (fun _ m => m = some (kept, js)) (some (kept, js)) := by
    refine Program.Obeys.of_keeps hfetch hr.shuns.beside (fun x hx => ?_) fun o => rfl
    exact Option.some.inj hx ▸ h
  refine hwork.andThen ?_
  rintro o m rfl s hs
  rw [part_inscribe rfl, hs]
  exact ⟨List.prefix_append _ _, s.1, rfl⟩

/-- A fetch under the lock: it begins where none is made, and when it has ended what it gave is kept. -/
theorem obeys_fetchAndKeep (hr : r.FetchesApart) {x : Option Identity × List (RefreshNote σ)} (hx : r.guard.idle x) :
    r.noted.fetchAndKeep.Obeys r.guard (fun _ m => ∃ y, m = some y ∧ r.guard.idle y) (some x) := by
  intro s hs
  have hbegin : r.Tells x.1 (x.2 ++ [.fetch .began s.1]) true := Tells.begin hx (congrArg Prod.fst hs)
  rw [part_inscribe rfl, hs]
  refine ⟨List.prefix_append _ _, (obeys_fetch hr hbegin).andThen fun o m hm => ?_⟩
  obtain ⟨s', rfl⟩ := hm
  have hfinish := hbegin.finish o s'
  cases o with
  | value i =>
    intro s'' hs''
    rw [part_modify, hs'']
    exact ⟨List.prefix_refl _, _, rfl, hfinish⟩
  | failed f => exact ⟨_, rfl, hfinish⟩
  | cancelled => exact ⟨_, rfl, hfinish⟩

/-- Waiting for the lock and fetching, or taking what somebody else has fetched in the meantime. -/
theorem obeys_refresh (hr : r.FetchesApart) : r.noted.refresh.Obeys r.guard Program.Unheld none := by
  refine Program.Obeys.withLock (fun x hx => Program.Obeys.read fun kept => ?_) fun o => rfl
  cases kept with
  | none => exact obeys_fetchAndKeep hr hx
  | some i =>
    refine obeys_isDue (fun due => ?_) fun f => ⟨x, rfl, hx⟩
    cases due with
    | false => exact ⟨x, rfl, hx⟩
    | true => exact obeys_fetchAndKeep hr hx

/-- A background task fetches under the lock and gives it back. -/
theorem obeys_refreshInBackground (hr : r.FetchesApart) : r.noted.refreshInBackground.Obeys r.guard Program.Unheld none := by
  refine Program.Obeys.bind ?_ fun _ => rfl
  have hlocked : (Program.withLock r.lock r.noted.fetchAndKeep).Obeys r.guard Program.Unheld none :=
    Program.Obeys.withLock (fun x hx => obeys_fetchAndKeep hr hx) fun o => rfl
  refine hlocked.andThen fun o m hm => ?_
  obtain rfl : m = none := hm
  cases o <;> rfl

/-- Starting a background task needs no lock. -/
theorem obeys_startBackground (hr : r.FetchesApart) : r.noted.startBackground.Obeys r.guard Program.Unheld none := by
  have hnew : (do
      let t ← Program.start r.noted.refreshInBackground
      Program.change (r.noted.slot.modify fun state => { state with background := some t })).Obeys r.guard
      Program.Unheld none :=
    ⟨obeys_refreshInBackground hr, fun t s => ⟨part_modify _ s, rfl⟩⟩
  refine Program.Obeys.read fun background => ?_
  cases background with
  | none => exact hnew
  | some t =>
    intro ended
    cases ended with
    | true => exact hnew
    | false => rfl

/-- A call fetches under the lock and gives it back. -/
theorem obeys_identity (hr : r.FetchesApart) : r.noted.identity.Obeys r.guard Program.Unheld none := by
  refine Program.Obeys.read fun kept => ?_
  cases kept with
  | none => exact obeys_refresh hr
  | some i =>
    refine obeys_isDue (fun stale => ?_) fun f => rfl
    cases stale with
    | true => exact obeys_refresh hr
    | false =>
      simp only [Bool.false_eq_true, if_false]
      split
      · refine obeys_isDue (fun early => ?_) fun f => rfl
        cases early with
        | true => exact Program.Obeys.bind (obeys_startBackground hr) fun _ => rfl
        | false => rfl
      · rfl

/-- A closing has nothing to do with what the lock guards. -/
theorem obeys_close : r.noted.close.Obeys r.guard Program.Unheld none := by
  refine Program.Obeys.read fun background s => ⟨part_modify _ s, ?_⟩
  cases background with
  | none => rfl
  | some t =>
    intro ended
    cases ended with
    | true => rfl
    | false =>
      intro o
      cases o <;> rfl

/-- A call that notes how it ended obeys the guard. -/
theorem obeys_call (hr : r.FetchesApart) : r.call.Obeys r.guard Program.Unheld none := by
  refine (obeys_identity hr).andThen fun o m hm => ?_
  obtain rfl : m = none := hm
  intro s
  exact ⟨Prod.ext rfl (by simp [guard, inscribe, isFetch, event?]), rfl⟩

/-- Whatever a task does with what the resolver keeps, it obeys. -/
theorem obeys_use (hr : r.FetchesApart) {α : Type} {p : Program (σ × List (RefreshNote σ)) α} (hp : r.Use α p) :
    p.Obeys r.guard Program.Unheld none := by
  cases hp with
  | other hkeeps hshuns =>
    exact Program.Obeys.of_keeps (hkeeps.map fun x => (x.1, x.2.filter isFetch)) hshuns nofun fun o => rfl
  | call => exact obeys_call hr
  | close => exact obeys_close

/-- Whatever may happen is allowed by the guard. -/
theorem Permits.allowed (hr : r.FetchesApart) {m : Move (σ × List (RefreshNote σ))} (hm : r.Permits m) : Pool.Allowed r.guard m :=
  Pool.allowed_of_within (f := fun x => (x.1, x.2.filter isFetch)) (fun _ _ hp => obeys_use hr hp) (fun _ => rfl) hm

/-! ## Runs -/

/-- The points of runs that begin with nothing kept, and nothing noted. -/
def Reached (r : Refreshing σ) : Pool (σ × List (RefreshNote σ)) → Prop :=
  Pool.Reached (fun s => r.kept s.1 = none ∧ s.2 = []) r.Permits

variable {p : Pool (σ × List (RefreshNote σ))}

/-- At every point of every run the lines are in order and the tasks obey the guard. -/
theorem Reached.guarded (hr : r.FetchesApart) (hp : r.Reached p) :
    Pool.Orderly p ∧ ∃ holder, Pool.Guarded r.guard p none holder := by
  refine Pool.Reached.guarded (fun s hs => ?_) (fun m hm => hm.allowed hr) hp
  rw [show r.guard.part s = (none, []) from Prod.ext hs.1 (by simp [guard, hs.2])]
  exact Tells.nil

/-- At every point of every run the journal tells what is kept, and whether the lock is held. -/
theorem Reached.tells (hr : r.FetchesApart) (hp : r.Reached p) :
    r.Tells (r.kept p.state.1) p.state.2 (p.locks r.lock).held := by
  obtain ⟨-, holder, hguarded⟩ := hp.guarded hr
  obtain ⟨hbusy, hidle⟩ := hguarded.part
  cases hheld : (p.locks r.lock).held with
  | true => exact (hbusy hheld).of_filter
  | false => exact (hidle hheld).of_filter

/-- After one more move the same fetches have ended, and maybe more. -/
theorem Reached.outcomes_step (hr : r.FetchesApart) (hp : r.Reached p) {m : Move (σ × List (RefreshNote σ))} (hm : r.Permits m) :
    outcomes p.state.2 <+: outcomes (p.step m).state.2 := by
  obtain ⟨horderly, holder, hguarded⟩ := hp.guarded hr
  obtain ⟨-, -, hlead⟩ := hguarded.step horderly (hm.allowed hr)
  rw [← outcomes_filter p.state.2, ← outcomes_filter (p.step m).state.2]
  exact (List.IsPrefix.filterMap event? hlead).filterMap FetchEvent.outcome?

/-- Take any run in which callers, background tasks, closings, cancellations and other work are interleaved. The fetches that the
journal tells of were made one after the other, and the lock is held exactly while one is being made. What is kept is what the last
successful one gave. Once a fetch has ended and no other has begun the lock is free, and fetches that end in another way than
with an identity leave what is kept as it was. -/
theorem one_fetch_at_a_time (hr : r.FetchesApart) (hp : r.Reached p) :
    (events p.state.2 = FetchEvent.inTurn (outcomes p.state.2) ++ if (p.locks r.lock).held then [.began] else []) ∧
      r.kept p.state.1 = latest p.state.2 ∧
      (∀ o, (events p.state.2).getLast? = some (.ended o) → (p.locks r.lock).held = false) ∧
      ∀ m, r.Permits m → ∃ os, outcomes (p.step m).state.2 = outcomes p.state.2 ++ os ∧
        ((∀ i, .value i ∉ os) → r.kept (p.step m).state.1 = r.kept p.state.1) := by
  have htells := hp.tells hr
  refine ⟨htells.events, htells.kept, fun o ho => ?_, fun m hm => ?_⟩
  · cases hheld : (p.locks r.lock).held with
    | false => rfl
    | true =>
      rw [htells.events, hheld, if_pos rfl, List.getLast?_concat] at ho
      cases ho
  · obtain ⟨os, hos⟩ := hp.outcomes_step hr hm
    have hafter : r.Reached (p.step m) := hp.step hm
    refine ⟨os, hos.symm, fun hnone => ?_⟩
    rw [htells.kept, (hafter.tells hr).kept]
    exact latest_of_outcomes hos.symm hnone

/-! ## Runs without notes -/

/-- What a task may do with what the resolver keeps, without notes. -/
inductive PlainUse (r : Refreshing σ) : ∀ α : Type, Program σ α → Prop
  | other {α : Type} {q : Program σ α} : q.Keeps r.kept → q.Shuns r.lock → PlainUse r α q
  | identity : PlainUse r Identity r.identity
  | close : PlainUse r Unit r.close

/-- What a task may do without notes it may do with notes, too. -/
theorem PlainUse.noting {α : Type} {q : Program σ α} (hq : r.PlainUse α q) : ∃ p, r.Use α p ∧ p.Noting q := by
  cases hq with
  | other hkeeps hshuns => exact ⟨q.beside, .other hkeeps.beside hshuns.beside, Program.noting_beside q⟩
  | identity => exact ⟨r.call, .call, call_noting⟩
  | close => exact ⟨r.noted.close, .close, close_noting⟩

/-- Every run of tasks that call and close is one with notes, but for the notes. -/
theorem exists_reached {q : Pool σ} (hq : Pool.Reached (fun s => r.kept s = none) (Move.Within r.PlainUse r.kept) q) :
    ∃ p, r.Reached p ∧ p.Noting q :=
  Pool.Reached.noting (fun _ _ hq => hq.noting) hq

/-! ## A rehearsal -/

/-- What a rehearsal takes place in: what is kept, the script, and the clock. -/
abbrev Stage := (RefreshState × ScriptedResolver) × Instant

/-- A resolver that plays a script. -/
def scripted : Refreshing Stage where
  slot := Slot.fst.comp Slot.fst
  lock := 0
  now := Prod.snd
  fetch := ScriptedResolver.call (Slot.fst.comp Slot.snd) FieldMap.empty

/-- A fetch that plays a script leaves alone what is kept, and the lock. -/
theorem scripted_fetchesApart : scripted.FetchesApart where
  keeps := ScriptedResolver.call_keeps (fun _ _ => rfl) _
  shuns := ScriptedResolver.call_shuns _ _ _

/-- A task that calls once. -/
def caller (r : Refreshing σ) : Program (σ × List (RefreshNote σ)) Unit := r.call.andThen fun o => .done o.withoutValue

/-- A task that calls once does what a task may do. -/
theorem built_caller : r.caller.Built r.Use := .andThen (.piece .call) fun _ => .piece (.other trivial trivial)

/-- Two callers; the first one takes the lock, the second one waits in line. -/
def twoCallers (r : Refreshing σ) : List (Move (σ × List (RefreshNote σ))) :=
  [.start r.caller, .start r.caller, .turn 0, .turn 1]

/-- Both callers do what a task may do. -/
theorem permits_twoCallers : ∀ m ∈ r.twoCallers, r.Permits m := by
  simp [twoCallers, Permits, Move.Within, built_caller]

/-- Nothing is kept; the first fetch fails after a turn, the next one succeeds after a turn. -/
def opening : Stage :=
  (({}, { script := [{ result := .error ScriptedResolver.noScript, turns := 1 }, { result := .ok (.anonymous none), turns := 1 }] }),
    ⟨0, by decide⟩)

/-- The first of two callers has begun the only fetch, and what is kept changes in its next turn only if that fetch succeeds. -/
theorem one_fetch_at_a_time_twoCallers :
    let p := Pool.steps { state := (opening, []) } scripted.twoCallers
    scripted.FetchesApart ∧ scripted.Reached p ∧ events p.state.2 = FetchEvent.inTurn [] ++ [.began] ∧
      ∃ os, outcomes (p.step (.turn 0)).state.2 = outcomes p.state.2 ++ os ∧
        ((∀ i, .value i ∉ os) → scripted.kept (p.step (.turn 0)).state.1 = scripted.kept p.state.1) := by
  have hreached : scripted.Reached (Pool.steps { state := (opening, []) } scripted.twoCallers) :=
    Pool.Reached.steps (.start ⟨rfl, rfl⟩) permits_twoCallers
  obtain ⟨hevents, -, -, hstep⟩ := one_fetch_at_a_time scripted_fetchesApart hreached
  exact ⟨scripted_fetchesApart, hreached, hevents, hstep (.turn 0) trivial⟩

end Refreshing

end SignedCall
