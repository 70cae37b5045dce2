import SignedCall.Task.Program

/-!
# Pools of tasks

Tasks that take turns. Of the tasks that are ready, the one that has been ready for longest goes on until its next wait. A lock
is handed on in the order in which tasks began to wait for it. A cancelled task is made ready at once and goes on with the
cancellation.
-/

namespace SignedCall

/-- Where a task stands in the line before a lock: it waits, it was let in and has not had its turn yet, or it gives up. -/
inductive Place where
  | waiting
  | admitted
  | leaving
  deriving DecidableEq, Repr

/-- A lock: whether it is held, and the line before it. -/
structure Lock where
  held : Bool := false
  line : List (TaskId × Place) := []
  deriving DecidableEq, Repr

/-- Whether a task that asks for a lock gets it at once. -/
def Lock.isFree (lock : Lock) : Bool := !lock.held && lock.line.all fun e => e.2 == .leaving

/-- What becomes of a task. While it waits it has a program for each outcome of waiting, and is ready once there is one. -/
inductive TaskState (σ : Type) : Type 1 where
  | waiting (on : Wait) (wake : Option (Outcome Unit)) (next : Outcome Unit → Program σ Unit)
  | running
  | ended (o : Outcome Unit)

/-- Tasks and the state that they share. Ready tasks and blocked tasks are listed in the order in which they became so. -/
structure Pool (σ : Type) where
  state : σ
  tasks : List (TaskState σ) := []
  ready : List TaskId := []
  blocked : List TaskId := []
  locks : LockId → Lock := fun _ => {}

/-- How a program stops: it ends, or it waits. -/
inductive Stop (σ α : Type) : Type 1 where
  | ended (o : Outcome α)
  | waiting (on : Wait) (next : Outcome Unit → Program σ α)

namespace Pool

variable {σ : Type}

/-- The state of a task. -/
def task? (p : Pool σ) (t : TaskId) : Option (TaskState σ) := p.tasks[t]?

/-- How a task ended, if it has. -/
def outcome? (p : Pool σ) (t : TaskId) : Option (Outcome Unit) :=
  match p.task? t with
  | some (.ended o) => some o
  | _ => none

/-- Whether a task has ended. -/
def hasEnded (p : Pool σ) (t : TaskId) : Bool := (p.outcome? t).isSome

/-- What a task is blocked on. -/
def blockedOn? (p : Pool σ) (t : TaskId) : Option Wait :=
  match p.task? t with
  | some (.waiting on none _) => some on
  | _ => none

/-- Puts a task into a state. -/
def setTask (p : Pool σ) (t : TaskId) (s : TaskState σ) : Pool σ := { p with tasks := p.tasks.set t s }

/-- Puts a lock into a state. -/
def setLock (p : Pool σ) (l : LockId) (lock : Lock) : Pool σ :=
  { p with locks := fun k => if k = l then lock else p.locks k }

/-- Makes a blocked task ready. -/
def wake (p : Pool σ) (t : TaskId) (o : Outcome Unit) : Pool σ :=
  match p.task? t with
  | some (.waiting on none next) =>
    { p.setTask t (.waiting on (some o) next) with ready := p.ready ++ [t], blocked := p.blocked.erase t }
  | _ => p

/-- Lets the first task in line go for a lock, if it still waits. -/
def callNext (p : Pool σ) (l : LockId) : Pool σ :=
  match (p.locks l).line with
  | (t, .waiting) :: rest => (p.setLock l { p.locks l with line := (t, .admitted) :: rest }).wake t (.value ())
  | _ => p

/-- Gives a lock back. -/
def unlock (p : Pool σ) (l : LockId) : Pool σ := (p.setLock l { p.locks l with held := false }).callNext l

/-- A task comes to the end of its wait for a lock: it takes the lock, or leaves the line and lets the next one go. -/
def leaveLine (p : Pool σ) (t : TaskId) (l : LockId) (o : Outcome Unit) : Pool σ :=
  let lock := p.locks l
  let line := lock.line.filter fun e => e.1 != t
  match o with
  | .value _ => p.setLock l { held := true, line }
  | _ =>
    let p := p.setLock l { lock with line }
    if lock.held then p else p.callNext l

/-- Marks a task as giving up its place in line. -/
def giveUp (p : Pool σ) (t : TaskId) (l : LockId) : Pool σ :=
  let lock := p.locks l
  p.setLock l { lock with line := lock.line.map fun e => if e.1 = t then (t, .leaving) else e }

/-- Cancels a task, following at most a number of waits from task to task: who waits for a task passes the cancellation on to
it. A task that has ended, or that is running now, is left alone. -/
def cancelWithin : Nat → TaskId → Pool σ → Pool σ
  | 0, _, p => p
  | n + 1, t, p =>
    match p.task? t with
    | some (.waiting on (some _) next) => p.setTask t (.waiting on (some .cancelled) next)
    | some (.waiting (.task u) none _) => cancelWithin n u p
    | some (.waiting (.lock l) none _) => (p.giveUp t l).wake t .cancelled
    | some (.waiting _ none _) => p.wake t .cancelled
    | _ => p

/-- Cancels a task. -/
def cancel (p : Pool σ) (t : TaskId) : Pool σ := cancelWithin p.tasks.length t p

/-- Makes a task, which comes last among the ready ones. It is cancelled before its first turn without having done anything. -/
def spawn (p : Pool σ) (body : Program σ Unit) : TaskId × Pool σ :=
  let t := p.tasks.length
  (t, { p with tasks := p.tasks ++ [.waiting .turn (some (.value ())) (Program.onValue fun _ => body)], ready := p.ready ++ [t] })

/-- Makes a task that comes first among the ready ones. -/
def spawnFirst (p : Pool σ) (body : Program σ Unit) : TaskId × Pool σ :=
  let (t, q) := p.spawn body
  (t, { q with ready := t :: p.ready })

/-- The outcome of a wait that is over at once: a free lock is taken, a task has ended already. -/
def atOnce? (p : Pool σ) (w : Wait) : Option (Outcome Unit × Pool σ) :=
  match w with
  | .turn => none
  | .lock l => if (p.locks l).isFree then some (.value (), p.setLock l { p.locks l with held := true }) else none
  | .task t => (p.outcome? t).map fun o => (o, p)
  | .signal _ => none

/-- Runs a program up to its end or its next wait. -/
def run {α : Type} : Program σ α → Pool σ → Stop σ α × Pool σ
  | .done o, p => (.ended o, p)
  | .act f next, p => run (next p.state) { p with state := f p.state }
  | .await w next, p =>
    match p.atOnce? w with
    | some (o, p) => run (next o) p
    | none => (.waiting w next, p)
  | .release l next, p => run next (p.unlock l)
  | .spawn body next, p => run (next (p.spawn body).1) (p.spawn body).2
  | .cancel t next, p => run next (p.cancel t)
  | .hasEnded t next, p => run (next (p.hasEnded t)) p

/-- Ends a task and wakes those that wait for it. -/
def finish (p : Pool σ) (t : TaskId) (o : Outcome Unit) : Pool σ :=
  let p := p.setTask t (.ended o)
  (p.blocked.filter fun u => p.blockedOn? u = some (.task t)).foldl (fun p u => p.wake u o) p

/-- Lays a task down to wait. -/
def layDown (p : Pool σ) (t : TaskId) (on : Wait) (next : Outcome Unit → Program σ Unit) : Pool σ :=
  match on with
  | .turn => { p.setTask t (.waiting on (some (.value ())) next) with ready := p.ready ++ [t] }
  | .lock l =>
    let p := p.setLock l { p.locks l with line := (p.locks l).line ++ [(t, .waiting)] }
    { p.setTask t (.waiting on none next) with blocked := p.blocked ++ [t] }
  | on => { p.setTask t (.waiting on none next) with blocked := p.blocked ++ [t] }

/-- What a task comes back to when its wait is over. -/
def comeBack (p : Pool σ) (t : TaskId) (on : Wait) (o : Outcome Unit) : Pool σ :=
  match on with
  | .lock l => p.leaveLine t l o
  | _ => p

/-- Lets a ready task go on until it ends or waits again. -/
def resume (p : Pool σ) (t : TaskId) : Pool σ :=
  match p.task? t with
  | some (.waiting on (some o) next) =>
    let p := ({ p with ready := p.ready.erase t }.setTask t .running).comeBack t on o
    match run (next o) p with
    | (.ended o, p) => p.finish t o
    | (.waiting on next, p) => p.layDown t on next
  | _ => p

/-- Wakes the task that has been waiting for a signal for longest. -/
def signal? (p : Pool σ) (s : Signal) : Option (Pool σ) :=
  (p.blocked.find? fun t => p.blockedOn? t = some (.signal s)).map fun t => p.wake t (.value ())

/-- Gives the ready tasks their turns until none is ready, at most a number of turns. -/
def settle : Nat → Pool σ → Pool σ
  | 0, p => p
  | n + 1, p =>
    match p.ready with
    | [] => p
    | t :: _ => settle n (p.resume t)

/-- Gives the ready tasks their turns until a task has ended, at most a number of turns. When none is ready the time passes. -/
def runUntil (t : TaskId) : Nat → Pool σ → Pool σ
  | 0, p => p
  | n + 1, p =>
    if p.hasEnded t then p
    else match p.ready with
      | u :: _ => runUntil t n (p.resume u)
      | [] =>
        match p.signal? .timeUp with
        | some p => runUntil t n p
        | none => p

end Pool

end SignedCall
