import SignedCall.Failure
import SignedCall.Task.Slot

/-!
# Programs

What a task does: it works on a state that all tasks share, and at certain points it waits. Between two waits nothing else
happens. A program ends with a value, a failure, or because it was cancelled; a cancellation reaches it at the wait it is in, and
no handler of failures holds it up.
-/

namespace SignedCall

/-- How a program ends. -/
inductive Outcome (α : Type) where
  | value (a : α)
  | failed (f : Failure)
  | cancelled

/-- A task, by the order in which tasks were made. -/
abbrev TaskId := Nat

/-- A lock, by its number. -/
abbrev LockId := Nat

/-- What happens outside of all tasks. -/
inductive Signal where
  | opened
  | timeUp
  | answered
  deriving DecidableEq, Repr

/-- What a task waits for: its next turn, a lock that it then holds, the end of a task, or something from outside. -/
inductive Wait where
  | turn
  | lock (l : LockId)
  | task (t : TaskId)
  | signal (s : Signal)
  deriving DecidableEq, Repr

/-- What a task does up to its end. A wait goes on with the outcome of waiting: that of the task that was waited for, a
cancellation, or just the unit value. -/
inductive Program (σ : Type) : Type → Type 1 where
  | done {α : Type} (o : Outcome α) : Program σ α
  | act {α : Type} (f : σ → σ) (next : σ → Program σ α) : Program σ α
  | await {α : Type} (w : Wait) (next : Outcome Unit → Program σ α) : Program σ α
  | release {α : Type} (l : LockId) (next : Program σ α) : Program σ α
  | spawn {α : Type} (body : Program σ Unit) (next : TaskId → Program σ α) : Program σ α
  | cancel {α : Type} (t : TaskId) (next : Program σ α) : Program σ α
  | hasEnded {α : Type} (t : TaskId) (next : Bool → Program σ α) : Program σ α

namespace Program

variable {σ τ α β : Type}

/-- A program, and what to do when it has ended in whatever way. -/
def andThen {α β : Type} : Program σ α → (Outcome α → Program σ β) → Program σ β
  | .done o, h => h o
  | .act f next, h => .act f fun s => (next s).andThen h
  | .await w next, h => .await w fun o => (next o).andThen h
  | .release l next, h => .release l (next.andThen h)
  | .spawn body next, h => .spawn body fun t => (next t).andThen h
  | .cancel t next, h => .cancel t (next.andThen h)
  | .hasEnded t next, h => .hasEnded t fun b => (next b).andThen h

/-- Goes on with the value of a program if it has one. -/
def onValue (next : α → Program σ β) : Outcome α → Program σ β
  | .value a => next a
  | .failed f => .done (.failed f)
  | .cancelled => .done .cancelled

instance : Monad (Program σ) where
  pure a := .done (.value a)
  bind p next := p.andThen (onValue next)

/-- Handles the failure of a program, and neither its value nor a cancellation. -/
def onFailure (handler : Failure → Program σ α) : Outcome α → Program σ α
  | .failed f => handler f
  | o => .done o

instance : MonadExcept Failure (Program σ) where
  throw f := .done (.failed f)
  tryCatch p handler := p.andThen (onFailure handler)

/-- The value or the failure of a program. -/
def attempt (p : Program σ α) : Program σ (Except Failure α) :=
  p.andThen fun
    | .value a => .done (.value (.ok a))
    | .failed f => .done (.value (.error f))
    | .cancelled => .done .cancelled

/-- The outcome of a computation without waits. -/
def ofExcept : Except Failure α → Program σ α
  | .ok a => .done (.value a)
  | .error f => .done (.failed f)

/-- Reads from the state. -/
def read (f : σ → α) : Program σ α := .act id fun s => .done (.value (f s))

/-- Changes the state. -/
def change (f : σ → σ) : Program σ Unit := .act f fun _ => .done (.value ())

/-- Puts a value into a slot. -/
def put (slot : Slot σ τ) (x : τ) : Program σ Unit := change (slot.set x)

/-- Waits. -/
def wait (w : Wait) : Program σ Unit := .await w .done

/-- Lets the other tasks have their turn. -/
def pause : Program σ Unit := wait .turn

/-- Lets the other tasks have some turns. -/
def pauses : Nat → Program σ Unit
  | 0 => pure ()
  | n + 1 => do
    pause
    pauses n

/-- Works something out on a thread of its own while the other tasks have their turn. -/
def onThread (f : σ → Except Failure α) : Program σ α := do
  pause
  ofExcept (← read f)

/-- Does something while holding a lock, which is given back however that ends. -/
def withLock (l : LockId) (body : Program σ α) : Program σ α :=
  .await (.lock l) (onValue fun _ => body.andThen fun o => .release l (.done o))

/-- Makes a task. -/
def start (body : Program σ Unit) : Program σ TaskId := .spawn body fun t => .done (.value t)

/-- Asks a task to end as cancelled. -/
def stop (t : TaskId) : Program σ Unit := .cancel t (.done (.value ()))

/-- Whether a task has ended. -/
def ended (t : TaskId) : Program σ Bool := .hasEnded t fun b => .done (.value b)

/-- Nothing comes after a program that is followed by its own outcome. -/
theorem andThen_done (p : Program σ α) : p.andThen .done = p := by
  induction p with
  | done o => rfl
  | act f next ih => exact congrArg _ (funext ih)
  | await w next ih => exact congrArg _ (funext ih)
  | release l next ih => exact congrArg _ ih
  | spawn body next _ ih => exact congrArg _ (funext ih)
  | cancel t next ih => exact congrArg _ ih
  | hasEnded t next ih => exact congrArg _ (funext ih)

/-- It is the same to which of its neighbours the middle one of three programs is joined first. -/
theorem andThen_andThen {γ : Type} (p : Program σ α) (h : Outcome α → Program σ β) (g : Outcome β → Program σ γ) :
    (p.andThen h).andThen g = p.andThen fun o => (h o).andThen g := by
  induction p with
  | done o => rfl
  | act f next ih => exact congrArg _ (funext fun s => ih s h)
  | await w next ih => exact congrArg _ (funext fun o => ih o h)
  | release l next ih => exact congrArg _ (ih h)
  | spawn body next _ ih => exact congrArg _ (funext fun t => ih t h)
  | cancel t next ih => exact congrArg _ (ih h)
  | hasEnded t next ih => exact congrArg _ (funext fun b => ih b h)

end Program

end SignedCall
