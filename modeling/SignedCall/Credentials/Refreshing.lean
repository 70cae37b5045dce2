import SignedCall.Credentials.Resolver

/-!
# Identities that expire

An identity is kept until it is about to expire. Then callers wait for a new one, and one of them fetches it while the others
wait at the lock. If the time is not that short yet, a background task may fetch the next one while callers still get the old.
-/

namespace SignedCall

/-- The identity that is kept, and the background task that was started last. -/
structure RefreshState where
  cached : Option Identity := none
  background : Option TaskId := none

/-- How an identity is kept: where, under which lock, and what fetches a new one; whether to fetch in the background; and how long
before the end, in microseconds, an identity is stale or is fetched ahead of time. -/
structure Refreshing (σ : Type) where
  slot : Slot σ RefreshState
  lock : LockId
  now : σ → Instant
  fetch : Program σ Identity
  prefetches : Bool := false
  staleTime : Int := 60 * secondMicros
  prefetchTime : Int := 300 * secondMicros

namespace Refreshing

variable {σ : Type}

/-- Whether an identity expires within some microseconds. The start of that time may lie outside the calendar. -/
def expiresWithin (window : Int) (i : Identity) (now : Instant) : Except Failure Bool :=
  match i.expiration with
  | none => .ok false
  | some t =>
    match t.add? (-window) with
    | some start => .ok (start.micros ≤ now.micros)
    | none => .error (Failure.inner .overflow "date value out of range")

/-- Whether an identity expires within some microseconds from now. -/
def isDue (r : Refreshing σ) (window : Int) (i : Identity) : Program σ Bool := do
  Program.ofExcept (expiresWithin window i (← Program.read r.now))

/-- The identity that is kept. -/
def cached (r : Refreshing σ) : Program σ (Option Identity) := Program.read fun s => (r.slot.get s).cached

/-- Fetches an identity and keeps it. -/
def fetchAndKeep (r : Refreshing σ) : Program σ Identity := do
  let i ← r.fetch
  Program.change (r.slot.modify fun state => { state with cached := some i })
  return i

/-- Waits for the lock and fetches, unless somebody else has done so in the meantime. -/
def refresh (r : Refreshing σ) : Program σ Identity :=
  Program.withLock r.lock do
    match ← r.cached with
    | none => r.fetchAndKeep
    | some i => if ← r.isDue r.staleTime i then r.fetchAndKeep else return i

/-- What a background task does: it waits for the lock and fetches. A failure is passed over. -/
def refreshInBackground (r : Refreshing σ) : Program σ Unit := do
  let _ ← (Program.withLock r.lock r.fetchAndKeep).attempt

/-- Starts a background task, unless one is at work. -/
def startBackground (r : Refreshing σ) : Program σ Unit := do
  let atWork ← match ← Program.read fun s => (r.slot.get s).background with
    | none => pure false
    | some t => (!·) <$> Program.ended t
  unless atWork do
    let t ← Program.start r.refreshInBackground
    Program.change (r.slot.modify fun state => { state with background := some t })

/-- The identity for a call. -/
def identity (r : Refreshing σ) : Program σ Identity := do
  match ← r.cached with
  | none => r.refresh
  | some i =>
    if ← r.isDue r.staleTime i then r.refresh
    else
      if r.prefetches then
        if ← r.isDue r.prefetchTime i then r.startBackground
      return i

/-- Waits for a task, however it ends, and passes over a cancellation. -/
def waitFor (t : TaskId) : Program σ Unit :=
  (Program.wait (.task t)).andThen fun
    | .failed f => .done (.failed f)
    | _ => .done (.value ())

/-- Cancels the background task and waits for its end. -/
def close (r : Refreshing σ) : Program σ Unit := do
  let background ← Program.read fun s => (r.slot.get s).background
  Program.change (r.slot.modify fun state => { state with background := none })
  match background with
  | none => return ()
  | some t =>
    unless ← Program.ended t do
      Program.stop t
      waitFor t

/-- The resolver that keeps an identity. -/
def resolver (r : Refreshing σ) (name : String) : Resolver σ where
  name
  identity _ := r.identity
  close := some r.close

end Refreshing

end SignedCall
