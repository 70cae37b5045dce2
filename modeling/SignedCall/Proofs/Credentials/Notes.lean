import SignedCall.Credentials.Refreshing
import SignedCall.Proofs.Task.Shadow

/-!
# Notes of fetches and calls

A resolver that keeps an identity notes the beginning and the end of each fetch, with the state as it is then, and beside them how
its calls ended. From the notes one reads how the fetches went, and what the last successful one gave (`RefreshNote.latest`). The
calls and closings are the same with the notes and without them (`call_noting`, `close_noting`).
-/

namespace SignedCall

/-- What happens to a fetch. -/
inductive FetchEvent where
  | began
  | ended (o : Outcome Identity)

/-- What is noted of an identity that is kept, and in which state: what happens to a fetch, and how a call ended. -/
inductive RefreshNote (σ : Type) where
  | fetch (e : FetchEvent) (s : σ)
  | returned (o : Outcome Identity) (s : σ)

/-- How a fetch ended, if it did. -/
def FetchEvent.outcome? : FetchEvent → Option (Outcome Identity)
  | .ended o => some o
  | .began => none

/-- The events of fetches that were made one after the other. -/
def FetchEvent.inTurn (outcomes : List (Outcome Identity)) : List FetchEvent := outcomes.flatMap fun o => [.began, .ended o]

namespace RefreshNote

variable {σ : Type}

/-- What happened to a fetch, if a note tells it. -/
def event? : RefreshNote σ → Option FetchEvent
  | .fetch e _ => some e
  | .returned _ _ => none

/-- Whether a note is one of a fetch. -/
def isFetch (e : RefreshNote σ) : Bool := e.event?.isSome

/-- What happened to the fetches of a journal. -/
def events (journal : List (RefreshNote σ)) : List FetchEvent := journal.filterMap event?

/-- How the fetches of a journal ended. -/
def outcomes (journal : List (RefreshNote σ)) : List (Outcome Identity) := (events journal).filterMap FetchEvent.outcome?

/-- What is kept after a fetch. -/
def keep (kept : Option Identity) : Outcome Identity → Option Identity
  | .value i => some i
  | _ => kept

/-- What the last successful fetch of a journal gave. -/
def latest (journal : List (RefreshNote σ)) : Option Identity := (outcomes journal).foldl keep none

theorem events_append (js ks : List (RefreshNote σ)) : events (js ++ ks) = events js ++ events ks := List.filterMap_append

theorem outcomes_append (js ks : List (RefreshNote σ)) : outcomes (js ++ ks) = outcomes js ++ outcomes ks := by
  rw [outcomes, events_append, List.filterMap_append]
  rfl

/-- The events of the fetches are told by the notes of fetches. -/
theorem events_filter (journal : List (RefreshNote σ)) : events (journal.filter isFetch) = events journal := by
  induction journal with
  | nil => rfl
  | cons e journal ih =>
    cases e with
    | fetch e s => exact congrArg (e :: ·) ih
    | returned o s => exact ih

/-- How the fetches ended is told by the notes of fetches. -/
theorem outcomes_filter (journal : List (RefreshNote σ)) : outcomes (journal.filter isFetch) = outcomes journal :=
  congrArg (List.filterMap FetchEvent.outcome?) (events_filter journal)

/-- What the last successful fetch gave is told by the notes of fetches. -/
theorem latest_filter (journal : List (RefreshNote σ)) : latest (journal.filter isFetch) = latest journal :=
  congrArg (List.foldl keep none) (outcomes_filter journal)

/-- Fetches without success change nothing. -/
theorem foldl_keep {os : List (Outcome Identity)} (h : ∀ i, .value i ∉ os) (kept : Option Identity) : os.foldl keep kept = kept := by
  induction os generalizing kept with
  | nil => rfl
  | cons o os ih =>
    have hrest : ∀ kept, os.foldl keep kept = kept := ih fun i hi => h i (List.mem_cons_of_mem _ hi)
    cases o with
    | value i => exact absurd List.mem_cons_self (h i)
    | failed f => exact hrest kept
    | cancelled => exact hrest kept

/-- Fetches without success change nothing about what the last successful one gave. -/
theorem latest_of_outcomes {js ks : List (RefreshNote σ)} {os : List (Outcome Identity)} (h : outcomes ks = outcomes js ++ os)
    (hos : ∀ i, .value i ∉ os) : latest ks = latest js := by
  rw [latest, h, List.foldl_append, foldl_keep hos, latest]

/-- The beginning of a fetch changes nothing about what the last successful one gave. -/
theorem latest_began (js : List (RefreshNote σ)) (s : σ) : latest (js ++ [.fetch .began s]) = latest js :=
  latest_of_outcomes (outcomes_append _ _) fun _ => List.not_mem_nil

/-- The end of a fetch tells what is kept from then on. -/
theorem latest_ended (js : List (RefreshNote σ)) (o : Outcome Identity) (s : σ) :
    latest (js ++ [.fetch (.ended o) s]) = keep (latest js) o := by
  rw [latest, outcomes_append, List.foldl_append]
  rfl

end RefreshNote

namespace Refreshing

open RefreshNote

variable {σ : Type} {r : Refreshing σ}

/-- The same, with a journal of the fetches beside the state. -/
def noted (r : Refreshing σ) : Refreshing (σ × List (RefreshNote σ)) where
  slot := Slot.fst.comp r.slot
  lock := r.lock
  now s := r.now s.1
  fetch := (r.fetch.beside.reported fun o => .fetch (.ended o)).announced (.fetch .began)
  prefetches := r.prefetches
  staleTime := r.staleTime
  prefetchTime := r.prefetchTime

/-- The identity for a call, with something else that starts a background task. -/
def identityStarting (r : Refreshing σ) (start : Program σ Unit) : Program σ Identity := do
  match ← r.cached with
  | none => r.refresh
  | some i =>
    if ← r.isDue r.staleTime i then r.refresh
    else
      if r.prefetches then
        if ← r.isDue r.prefetchTime i then start
      return i

/-- A call is one that starts its own background task. -/
theorem identity_eq_starting (r : Refreshing σ) : r.identity = r.identityStarting r.startBackground := rfl

/-- Cancels a background task that was kept and waits for its end. -/
def waitOut (background : Option TaskId) : Program σ Unit := do
  match background with
  | none => return ()
  | some t =>
    unless ← Program.ended t do
      Program.stop t
      waitFor t

/-- A call that notes how it ended. -/
def call (r : Refreshing σ) : Program (σ × List (RefreshNote σ)) Identity := r.noted.identity.reported .returned

/-! ## What the notes leave as it is -/

section Beside

variable {ν : Type} {fetch : Program (σ × List ν) Identity}

/-- The same beside a journal, with another fetch, which may make notes. -/
def beside (r : Refreshing σ) (fetch : Program (σ × List ν) Identity) : Refreshing (σ × List ν) where
  slot := Slot.fst.comp r.slot
  lock := r.lock
  now s := r.now s.1
  fetch
  prefetches := r.prefetches
  staleTime := r.staleTime
  prefetchTime := r.prefetchTime

theorem isDue_noting (w : Int) (i : Identity) : ((r.beside fetch).isDue w i).Noting (r.isDue w i) :=
  (Program.noting_read (g := r.now) fun _ => rfl).bind fun now => Program.noting_ofExcept (expiresWithin w i now)

theorem modify_noting (f : RefreshState → RefreshState) :
    (Program.change ((r.beside fetch).slot.modify f)).Noting (Program.change (r.slot.modify f)) :=
  Program.noting_change fun _ => rfl

theorem fetchAndKeep_noting (h : fetch.Noting r.fetch) : (r.beside fetch).fetchAndKeep.Noting r.fetchAndKeep :=
  Program.Noting.bind h fun _ => (modify_noting _).bind fun _ => .done _

theorem cached_noting : (r.beside fetch).cached.Noting r.cached := Program.noting_read fun _ => rfl

theorem refresh_noting (h : fetch.Noting r.fetch) : (r.beside fetch).refresh.Noting r.refresh := by
  refine Program.Noting.withLock (cached_noting.bind fun x => ?_) r.lock
  cases x with
  | none => exact fetchAndKeep_noting h
  | some i =>
    refine (isDue_noting _ i).bind fun due => ?_
    cases due with
    | true => exact fetchAndKeep_noting h
    | false => exact .done _

/-- A background task is started alike with notes and without. -/
theorem startBackground_noting (h : fetch.Noting r.fetch) : (r.beside fetch).startBackground.Noting r.startBackground := by
  have hbody : (r.beside fetch).refreshInBackground.Noting r.refreshInBackground :=
    ((fetchAndKeep_noting h).withLock r.lock).attempt.bind fun _ => .done _
  have hstart : (Program.start (r.beside fetch).refreshInBackground).Noting (Program.start r.refreshInBackground) :=
    .spawn hbody fun t => .done _
  refine (Program.noting_read (g := fun s => (r.slot.get s).background) fun _ => rfl).bind fun background => ?_
  cases background with
  | none => exact hstart.bind fun t => modify_noting _
  | some t =>
    refine .hasEnded t fun ended => ?_
    cases ended with
    | true => exact hstart.bind fun t => modify_noting _
    | false => exact .done _

/-- A resolver that makes notes when it fetches, or starts a background task, gives the identities that it gives without them. -/
theorem identityStarting_noting (h : fetch.Noting r.fetch) {start : Program (σ × List ν) Unit}
    (hstart : start.Noting r.startBackground) : ((r.beside fetch).identityStarting start).Noting r.identity := by
  refine cached_noting.bind fun x => ?_
  cases x with
  | none => exact refresh_noting h
  | some i =>
    refine (isDue_noting _ i).bind fun stale => ?_
    cases stale with
    | true => exact refresh_noting h
    | false =>
      simp only [Bool.false_eq_true, if_false]
      have hprefetches : (r.beside fetch).prefetches = r.prefetches := rfl
      rw [hprefetches]
      split
      · refine (isDue_noting _ i).bind fun early => ?_
        cases early with
        | true => exact hstart.bind fun _ => .done _
        | false => exact .done _
      · exact .done _

/-- A call gives the same with notes and without. -/
theorem identity_noting (h : fetch.Noting r.fetch) : (r.beside fetch).identity.Noting r.identity := by
  rw [identity_eq_starting (r.beside fetch)]
  exact identityStarting_noting h (startBackground_noting h)

/-- A closing waits for the same task with notes and without. -/
theorem waitOut_noting (background : Option TaskId) :
    (waitOut background : Program (σ × List ν) Unit).Noting (waitOut background) := by
  cases background with
  | none => exact .done _
  | some t =>
    refine .hasEnded t fun ended => ?_
    cases ended with
    | true => exact .done _
    | false =>
      refine .cancel t (.await _ fun o => ?_)
      cases o <;> exact .done _

/-- A closing with another fetch that only makes notes does the same. -/
theorem closing_noting : (r.beside fetch).close.Noting r.close :=
  (Program.noting_read (g := fun s => (r.slot.get s).background) fun _ => rfl).bind fun background =>
    (modify_noting _).bind fun _ => waitOut_noting background

end Beside

/-- A call that makes notes is a call but for the notes. -/
theorem call_noting : r.call.Noting r.identity := by
  have hfetch : r.noted.fetch.Noting r.fetch := .note _ ((Program.noting_beside r.fetch).reported _)
  exact (identity_noting hfetch).reported _

/-- A closing does the same with notes and without. -/
theorem close_noting : r.noted.close.Noting r.close := closing_noting

end Refreshing

end SignedCall
