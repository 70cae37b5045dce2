import SignedCall.Task.Program

/-!
# What a program leaves alone

`Keeps part` says of a program that no step of it, and of the tasks that it starts, changes a part of the state, whatever state it
meets and however its waits end. `Shuns l` says that it neither waits for the lock `l` nor gives it back. Both are kept by putting
programs together. `Built` says from what kinds of pieces a program is put together.
-/

namespace SignedCall

/-- A slot that can be changed without changing a part. -/
def Slot.Apart {σ τ υ : Type} (slot : Slot σ υ) (part : σ → τ) : Prop := ∀ x s, part (slot.set x s) = part s

namespace Program

variable {σ τ υ α β : Type}

/-- A program that leaves a part of the state as it is. -/
def Keeps (part : σ → τ) : {α : Type} → Program σ α → Prop
  | _, .done _ => True
  | _, .act f next => (∀ s, part (f s) = part s) ∧ ∀ s, (next s).Keeps part
  | _, .await _ next => ∀ o, (next o).Keeps part
  | _, .release _ next => next.Keeps part
  | _, .spawn body next => body.Keeps part ∧ ∀ t, (next t).Keeps part
  | _, .cancel _ next => next.Keeps part
  | _, .hasEnded _ next => ∀ b, (next b).Keeps part

/-- A program that has nothing to do with a lock. -/
def Shuns (l : LockId) : {α : Type} → Program σ α → Prop
  | _, .done _ => True
  | _, .act _ next => ∀ s, (next s).Shuns l
  | _, .await w next => w ≠ .lock l ∧ ∀ o, (next o).Shuns l
  | _, .release k next => k ≠ l ∧ next.Shuns l
  | _, .spawn body next => body.Shuns l ∧ ∀ t, (next t).Shuns l
  | _, .cancel _ next => next.Shuns l
  | _, .hasEnded _ next => ∀ b, (next b).Shuns l

/-- What two programs leave alone, the one followed by the other leaves alone. -/
theorem Keeps.andThen {part : σ → τ} {p : Program σ α} {next : Outcome α → Program σ β} (hp : p.Keeps part)
    (hn : ∀ o, (next o).Keeps part) : (p.andThen next).Keeps part := by
  induction p with
  | done o => exact hn o
  | act f k ih => exact ⟨hp.1, fun s => ih s (hp.2 s) hn⟩
  | await w k ih => exact fun o => ih o (hp o) hn
  | release l k ih => exact ih hp hn
  | spawn body k _ ih => exact ⟨hp.1, fun t => ih t (hp.2 t) hn⟩
  | cancel t k ih => exact ih hp hn
  | hasEnded t k ih => exact fun b => ih b (hp b) hn

/-- A lock that two programs shun is shunned by the one followed by the other. -/
theorem Shuns.andThen {l : LockId} {p : Program σ α} {next : Outcome α → Program σ β} (hp : p.Shuns l)
    (hn : ∀ o, (next o).Shuns l) : (p.andThen next).Shuns l := by
  induction p with
  | done o => exact hn o
  | act f k ih => exact fun s => ih s (hp s) hn
  | await w k ih => exact ⟨hp.1, fun o => ih o (hp.2 o) hn⟩
  | release k next ih => exact ⟨hp.1, ih hp.2 hn⟩
  | spawn body k _ ih => exact ⟨hp.1, fun t => ih t (hp.2 t) hn⟩
  | cancel t k ih => exact ih hp hn
  | hasEnded t k ih => exact fun b => ih b (hp b) hn

/-- What leaves a part alone leaves alone what is read from it. -/
theorem Keeps.map {part : σ → τ} {p : Program σ α} (hp : p.Keeps part) (f : τ → υ) : p.Keeps fun s => f (part s) := by
  induction p with
  | done o => exact trivial
  | act g k ih => exact ⟨fun s => congrArg f (hp.1 s), fun s => ih s (hp.2 s)⟩
  | await w k ih => exact fun o => ih o (hp o)
  | release l k ih => exact ih hp
  | spawn body k ihb ih => exact ⟨ihb hp.1, fun t => ih t (hp.2 t)⟩
  | cancel t k ih => exact ih hp
  | hasEnded t k ih => exact fun b => ih b (hp b)

/-- There is a part that is always the same, which everything leaves alone. -/
theorem keeps_const (p : Program σ α) (x : τ) : p.Keeps fun _ => x := by
  induction p with
  | done o => exact trivial
  | act f k ih => exact ⟨fun _ => rfl, fun s => ih s⟩
  | await w k ih => exact fun o => ih o
  | release l k ih => exact ih
  | spawn body k ihb ih => exact ⟨ihb, fun t => ih t⟩
  | cancel t k ih => exact ih
  | hasEnded t k ih => exact fun b => ih b

/-! ## Small programs -/

theorem keeps_read (part : σ → τ) (f : σ → α) : (Program.read f).Keeps part := ⟨fun _ => rfl, fun _ => trivial⟩

theorem shuns_read (l : LockId) (f : σ → α) : (Program.read f).Shuns l := fun _ => trivial

theorem keeps_ofExcept (part : σ → τ) (e : Except Failure α) : (Program.ofExcept e).Keeps part := by
  cases e <;> exact trivial

theorem shuns_ofExcept (l : LockId) (e : Except Failure α) : (Program.ofExcept e : Program σ α).Shuns l := by
  cases e <;> exact trivial

/-- A change of the state keeps what it is said to keep. -/
theorem keeps_change {part : σ → τ} {f : σ → σ} (hf : ∀ s, part (f s) = part s) : (Program.change f).Keeps part :=
  ⟨hf, fun _ => trivial⟩

/-- A change of the state takes no lock. -/
theorem shuns_change (l : LockId) (f : σ → σ) : (Program.change f).Shuns l := fun _ => trivial

/-- Waiting changes nothing. -/
theorem keeps_wait (part : σ → τ) (w : Wait) : (Program.wait w).Keeps part := fun _ => trivial

/-- Waiting for something else than a lock shuns it. -/
theorem shuns_wait {l : LockId} {w : Wait} (hw : w ≠ .lock l) : (Program.wait w : Program σ Unit).Shuns l :=
  ⟨hw, fun _ => trivial⟩

/-- What a program and all that may come after its value leave alone, they leave alone together. -/
theorem Keeps.bind {part : σ → τ} {p : Program σ α} {next : α → Program σ β} (hp : p.Keeps part)
    (hn : ∀ a, (next a).Keeps part) : (p >>= next).Keeps part := by
  refine hp.andThen fun o => ?_
  cases o with
  | value a => exact hn a
  | failed f => exact trivial
  | cancelled => exact trivial

/-- A lock that a program and all that may come after its value shun, they shun together. -/
theorem Shuns.bind {l : LockId} {p : Program σ α} {next : α → Program σ β} (hp : p.Shuns l)
    (hn : ∀ a, (next a).Shuns l) : (p >>= next).Shuns l := by
  refine hp.andThen fun o => ?_
  cases o with
  | value a => exact hn a
  | failed f => exact trivial
  | cancelled => exact trivial

/-- To catch a failure changes nothing by itself. -/
theorem Keeps.attempt {part : σ → τ} {p : Program σ α} (hp : p.Keeps part) : p.attempt.Keeps part := by
  refine hp.andThen fun o => ?_
  cases o <;> exact trivial

/-- What a program leaves alone it leaves alone under a lock. -/
theorem Keeps.withLock {part : σ → τ} {p : Program σ α} (hp : p.Keeps part) (l : LockId) : (Program.withLock l p).Keeps part := by
  intro o
  cases o with
  | value _ => exact hp.andThen fun _ => trivial
  | failed f => exact trivial
  | cancelled => exact trivial

/-- Giving way to the others changes nothing. -/
theorem keeps_pauses (part : σ → τ) (n : Nat) : (Program.pauses n).Keeps part := by
  induction n with
  | zero => exact trivial
  | succ n ih => exact (keeps_wait part .turn).bind fun _ => ih

/-- What is done on another thread reads the state without changing it. -/
theorem keeps_onThread (part : σ → τ) (f : σ → Except Failure α) : (Program.onThread f).Keeps part := by
  have hpause : (Program.pause : Program σ Unit).Keeps part := keeps_wait part .turn
  exact hpause.bind fun _ => (keeps_read part f).bind fun e => keeps_ofExcept part e

/-- Giving way to the others takes no lock. -/
theorem shuns_pauses (l : LockId) (n : Nat) : (Program.pauses n : Program σ Unit).Shuns l := by
  induction n with
  | zero => exact trivial
  | succ n ih =>
    have hpause : (Program.pause : Program σ Unit).Shuns l := shuns_wait nofun
    exact hpause.bind fun _ => ih

/-- A program that is put together from pieces of some kinds, and may make tasks that are put together likewise. -/
inductive Built (piece : ∀ α : Type, Program σ α → Prop) : {α : Type} → Program σ α → Prop
  | piece {α : Type} {p : Program σ α} : piece α p → Built piece p
  | start {α : Type} {body : Program σ Unit} {next : TaskId → Program σ α} :
      Built piece body → (∀ t, Built piece (next t)) → Built piece (.spawn body next)
  | andThen {α β : Type} {p : Program σ α} {next : Outcome α → Program σ β} :
      Built piece p → (∀ o, Built piece (next o)) → Built piece (p.andThen next)

/-- Programs that are put together from pieces may be put one after the other. -/
theorem Built.bind {piece : ∀ α : Type, Program σ α → Prop} (hdone : ∀ (α : Type) (o : Outcome α), piece α (.done o))
    {p : Program σ α} {next : α → Program σ β} (hp : p.Built piece) (hn : ∀ a, (next a).Built piece) :
    (p >>= next).Built piece := by
  refine .andThen hp fun o => ?_
  cases o with
  | value a => exact hn a
  | failed f => exact .piece (hdone β _)
  | cancelled => exact .piece (hdone β _)

end Program

end SignedCall
