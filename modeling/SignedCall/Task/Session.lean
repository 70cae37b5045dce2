import SignedCall.Task.Pool

/-!
# Sessions

Work that is done in a pool under labels, so that its outcome can be looked up: at once, in a task of its own, or together with
other work.
-/

namespace SignedCall

/-- A state, the tasks that do labelled work on it, and the outcomes so far. What was labelled last comes first. -/
structure Session (σ α : Type) where
  state : σ
  tasks : List (String × TaskId) := []
  outcomes : List (TaskId × Outcome α) := []

/-- How a piece of work ends for those who wait for it and do not ask for its value. -/
def Outcome.withoutValue {α : Type} : Outcome α → Outcome Unit
  | .cancelled => .cancelled
  | _ => .value ()

namespace Session

variable {σ α : Type}

/-- The state that the work is done on. -/
def stateSlot : Slot (Session σ α) σ where
  get := state
  set x s := { s with state := x }
  get_set _ _ := rfl
  set_get _ := rfl
  set_set _ _ _ := rfl

/-- Keeps the outcome of the work that a task does. -/
def keep (t : TaskId) (work : Program (Session σ α) α) : Program (Session σ α) Unit :=
  work.andThen fun o =>
    .act (fun s => { s with outcomes := (t, o) :: s.outcomes }) fun _ => .done o.withoutValue

/-- The number of the task that is made next. -/
def nextTask (room : Pool (Session σ α)) : TaskId := room.tasks.length

/-- Notes which task does the work with a label. -/
def note (label : String) (t : TaskId) (room : Pool (Session σ α)) : Pool (Session σ α) :=
  { room with state := { room.state with tasks := (label, t) :: room.state.tasks } }

/-- Has work done in a task of its own, after the tasks that are ready. -/
def start (label : String) (work : Program (Session σ α) α) (room : Pool (Session σ α)) : Pool (Session σ α) :=
  let t := nextTask room
  note label t (room.spawn (keep t work)).2

/-- The task that does the work with a label. -/
def task? (label : String) (room : Pool (Session σ α)) : Option TaskId := room.state.tasks.lookup label

/-- The outcome of the work with a label, if it has ended. Work that was cancelled before its first turn has not left any. -/
def outcome? (label : String) (room : Pool (Session σ α)) : Option (Outcome α) := do
  let t ← task? label room
  if room.hasEnded t then some ((room.state.outcomes.lookup t).getD .cancelled) else none

/-- Does work at once; other tasks have their turns only while it waits. -/
def perform (turns : Nat) (label : String) (work : Program (Session σ α) α) (room : Pool (Session σ α)) :
    Pool (Session σ α) :=
  let t := nextTask room
  (note label t (room.spawnFirst (keep t work)).2).runUntil t turns

/-- Waits for some tasks. -/
def waitForAll (tasks : List TaskId) : Program (Session σ α) Unit :=
  tasks.foldr (fun t rest => (Program.wait (.task t)).andThen fun _ => rest) (pure ())

/-- Does several pieces of work together. -/
def performAll (turns : Nat) (works : List (String × Program (Session σ α) α)) (room : Pool (Session σ α)) :
    Pool (Session σ α) :=
  let room := works.foldl (fun room (label, work) => start label work room) room
  let (t, room) := room.spawnFirst (waitForAll (works.filterMap fun (label, _) => task? label room))
  room.runUntil t turns

/-- Cancels the work with a label. -/
def cancel (label : String) (room : Pool (Session σ α)) : Pool (Session σ α) :=
  match task? label room with
  | some t => room.cancel t
  | none => room

/-- Changes the state that the work is done on. -/
def change (f : σ → σ) (room : Pool (Session σ α)) : Pool (Session σ α) :=
  { room with state := { room.state with state := f room.state.state } }

end Session

end SignedCall
