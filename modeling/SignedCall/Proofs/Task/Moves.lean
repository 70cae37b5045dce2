import Mathlib.Data.List.Nodup
import SignedCall.Proofs.Task.Frame
import SignedCall.Task.Pool

/-!
# What can happen in a pool

A `Move` is one thing that can happen to a pool: a ready task has its turn, what a task waits for from outside comes, a task is
cancelled, a task is made, the state changes from outside. A run is a list of moves, in any order: it need not give the turns to
those that have been ready for longest. The schedules that `settle` and `runUntil` follow are runs of this kind
(`settle_eq_steps`, `runUntil_eq_steps`). What a run comes to from a pool without tasks is `Reached`.

Two pools are `Alike` if they differ in no more than who has been woken, and in the lines before the locks.
-/

namespace SignedCall

/-- What happens next in a pool. -/
inductive Move (σ : Type) : Type 1 where
  | turn (t : TaskId)
  | arrival (t : TaskId)
  | cancel (t : TaskId)
  | start (body : Program σ Unit)
  | change (f : σ → σ)

/-- A move of a run whose tasks are put together from some pieces, and where nothing else changes a part of the state. -/
def Move.Within {σ τ : Type} (piece : ∀ α : Type, Program σ α → Prop) (part : σ → τ) : Move σ → Prop
  | .start body => body.Built piece
  | .change f => ∀ s, part (f s) = part s
  | _ => True

/-- A task as if it had not been woken. -/
def TaskState.unwoken {σ : Type} : TaskState σ → TaskState σ
  | .waiting on _ next => .waiting on none next
  | s => s

namespace Pool

variable {σ : Type}

/-- What a task waits for from outside comes. -/
def arrive (p : Pool σ) (t : TaskId) : Pool σ :=
  match p.blockedOn? t with
  | some (.signal _) => p.wake t (.value ())
  | _ => p

/-- A pool after a move. -/
def step (p : Pool σ) : Move σ → Pool σ
  | .turn t => p.resume t
  | .arrival t => p.arrive t
  | .cancel t => p.cancel t
  | .start body => (p.spawn body).2
  | .change f => { p with state := f p.state }

/-- A pool after some moves. -/
def steps (p : Pool σ) (moves : List (Move σ)) : Pool σ := moves.foldl step p

@[simp] theorem steps_nil (p : Pool σ) : p.steps [] = p := rfl

@[simp] theorem steps_cons (p : Pool σ) (m : Move σ) (ms : List (Move σ)) : p.steps (m :: ms) = (p.step m).steps ms := rfl

/-- The pools that are reached from an empty one by moves of some kind. -/
inductive Reached (start : σ → Prop) (ok : Move σ → Prop) : Pool σ → Prop
  | start {s : σ} : start s → Reached start ok { state := s }
  | step {p : Pool σ} {m : Move σ} : Reached start ok p → ok m → Reached start ok (p.step m)

/-- A run may go on with more moves of the same kind. -/
theorem Reached.steps {start : σ → Prop} {ok : Move σ → Prop} {p : Pool σ} (hp : Reached start ok p) {ms : List (Move σ)}
    (hms : ∀ m ∈ ms, ok m) : Reached start ok (p.steps ms) := by
  induction ms generalizing p with
  | nil => exact hp
  | cons m ms ih => exact ih (hp.step (hms m List.mem_cons_self)) fun m' hm' => hms m' (List.mem_cons_of_mem m hm')

/-! ## The schedules that run -/

/-- Giving the ready tasks their turns is a run. -/
theorem settle_eq_steps (n : Nat) (p : Pool σ) : ∃ ms : List (Move σ), (∀ m ∈ ms, ∃ t, m = .turn t) ∧ p.settle n = p.steps ms := by
  induction n generalizing p with
  | zero => exact ⟨[], by simp, rfl⟩
  | succ n ih =>
    rw [settle]
    split
    · exact ⟨[], by simp, rfl⟩
    · rename_i t rest _
      obtain ⟨ms, hms, h⟩ := ih (p.resume t)
      exact ⟨.turn t :: ms, by simpa using hms, h⟩

/-- Waking the task that has been waiting for a signal for longest is a move. -/
theorem signal?_eq_step {p q : Pool σ} {s : Signal} (h : p.signal? s = some q) : ∃ t, q = p.step (.arrival t) := by
  obtain ⟨t, ht, rfl⟩ := Option.map_eq_some_iff.1 h
  have hb : p.blockedOn? t = some (.signal s) := by simpa using List.find?_some ht
  exact ⟨t, by simp [step, arrive, hb]⟩

/-- Giving the ready tasks their turns until one has ended, and letting the time pass when none is ready, is a run. -/
theorem runUntil_eq_steps (t : TaskId) (n : Nat) (p : Pool σ) :
    ∃ ms : List (Move σ), (∀ m ∈ ms, ∃ u, m = .turn u ∨ m = .arrival u) ∧ p.runUntil t n = p.steps ms := by
  induction n generalizing p with
  | zero => exact ⟨[], by simp, rfl⟩
  | succ n ih =>
    rw [runUntil]
    split
    · exact ⟨[], by simp, rfl⟩
    · split
      · rename_i u rest _
        obtain ⟨ms, hms, h⟩ := ih (p.resume u)
        exact ⟨.turn u :: ms, by simpa using hms, h⟩
      · split
        · rename_i q hq
          obtain ⟨u, rfl⟩ := signal?_eq_step hq
          obtain ⟨ms, hms, h⟩ := ih (p.step (.arrival u))
          exact ⟨.arrival u :: ms, by simpa using hms, h⟩
        · exact ⟨[], by simp, rfl⟩

/-! ## Pools that differ in who has been woken -/

/-- Two pools with the same state, the same locks held, and the same tasks but for who has been woken. -/
structure Alike (p q : Pool σ) : Prop where
  state : q.state = p.state
  held : ∀ l, (q.locks l).held = (p.locks l).held
  tasks : q.tasks.map TaskState.unwoken = p.tasks.map TaskState.unwoken

theorem Alike.refl (p : Pool σ) : Alike p p := ⟨rfl, fun _ => rfl, rfl⟩

theorem Alike.symm {p q : Pool σ} (h : Alike p q) : Alike q p := ⟨h.state.symm, fun l => (h.held l).symm, h.tasks.symm⟩

theorem Alike.trans {p q r : Pool σ} (h : Alike p q) (h' : Alike q r) : Alike p r :=
  ⟨h'.state.trans h.state, fun l => (h'.held l).trans (h.held l), h'.tasks.trans h.tasks⟩

/-- Pools that are alike have as many tasks. -/
theorem Alike.length {p q : Pool σ} (h : Alike p q) : q.tasks.length = p.tasks.length := by
  simpa using congrArg List.length h.tasks

/-- Pools with the same tasks but for who has been woken agree so on each of them. -/
theorem unwoken_task? {p q : Pool σ} (h : q.tasks.map TaskState.unwoken = p.tasks.map TaskState.unwoken) (t : TaskId) :
    (q.task? t).map TaskState.unwoken = (p.task? t).map TaskState.unwoken := by
  simpa [task?] using congrArg (fun ts => ts[t]?) h

/-- Where the tasks are the same but for who has been woken, the same ones wait, for the same. -/
theorem waiting_of_unwoken {p q : Pool σ} (h : q.tasks.map TaskState.unwoken = p.tasks.map TaskState.unwoken) {t : TaskId}
    {on : Wait} {wake : Option (Outcome Unit)} {next : Outcome Unit → Program σ Unit}
    (hq : q.task? t = some (.waiting on wake next)) : ∃ wake', p.task? t = some (.waiting on wake' next) := by
  have ht := unwoken_task? h t
  rw [hq] at ht
  match hp : p.task? t, ht with
  | some (.waiting on' wake' next'), ht =>
    simp only [Option.map_some, TaskState.unwoken, Option.some.injEq, TaskState.waiting.injEq, true_and] at ht
    obtain ⟨rfl, rfl⟩ := ht
    exact ⟨wake', rfl⟩

/-- A task that waits in one of two such pools waits for the same in the other. -/
theorem Alike.waiting {p q : Pool σ} (h : Alike p q) {t : TaskId} {on : Wait} {wake : Option (Outcome Unit)}
    {next : Outcome Unit → Program σ Unit} (hq : q.task? t = some (.waiting on wake next)) :
    ∃ wake', p.task? t = some (.waiting on wake' next) :=
  waiting_of_unwoken h.tasks hq

/-- A task that is running in one of two such pools is running in the other. -/
theorem Alike.running {p q : Pool σ} (h : Alike p q) {t : TaskId} (hp : p.task? t = some .running) :
    q.task? t = some .running := by
  have ht := unwoken_task? h.tasks t
  rw [hp] at ht
  match hq : q.task? t, ht with
  | some .running, _ => rfl

/-! ## Steps that wake or change lines -/

/-- Where a task is given a new state, it has that state, and every other one its own. -/
theorem task?_setTask (p : Pool σ) (t u : TaskId) (s : TaskState σ) :
    (p.setTask t s).task? u = if t = u then (p.task? u).map fun _ => s else p.task? u := by
  simp only [task?, setTask, List.getElem?_set]
  by_cases h : t = u
  · subst h
    by_cases ht : t < p.tasks.length
    · simp [ht]
    · simp [ht]
  · simp [h]

theorem task?_setTask_of_ne {p : Pool σ} {t u : TaskId} (h : t ≠ u) (s : TaskState σ) : (p.setTask t s).task? u = p.task? u := by
  rw [task?_setTask, if_neg h]

theorem task?_setTask_self {p : Pool σ} {t : TaskId} {s : TaskState σ} (h : p.task? t = some s) (s' : TaskState σ) :
    (p.setTask t s').task? t = some s' := by
  rw [task?_setTask, if_pos rfl, h, Option.map_some]

/-- A task after one was replaced is the replacement, or it was there before. -/
theorem task?_setTask_cases {p : Pool σ} {t u : TaskId} {s s' : TaskState σ} (h : (p.setTask t s).task? u = some s') :
    (u = t ∧ s' = s) ∨ (u ≠ t ∧ p.task? u = some s') := by
  by_cases hut : u = t
  · rw [task?_setTask, if_pos hut.symm] at h
    obtain ⟨_, -, he⟩ := Option.map_eq_some_iff.1 h
    exact Or.inl ⟨hut, he.symm⟩
  · rw [task?_setTask_of_ne (Ne.symm hut)] at h
    exact Or.inr ⟨hut, h⟩

/-- The task whose turn it is does not wait. -/
theorem ne_of_running {p : Pool σ} {t u : TaskId} (ht : p.task? t = some .running) {on : Wait} {wake : Option (Outcome Unit)}
    {next : Outcome Unit → Program σ Unit} (hu : p.task? u = some (.waiting on wake next)) : t ≠ u := by
  rintro rfl
  rw [hu] at ht
  cases ht

@[simp] theorem task?_setLock (p : Pool σ) (l : LockId) (lock : Lock) (t : TaskId) : (p.setLock l lock).task? t = p.task? t := rfl

@[simp] theorem locks_setTask (p : Pool σ) (t : TaskId) (s : TaskState σ) : (p.setTask t s).locks = p.locks := rfl

theorem locks_setLock (p : Pool σ) (l k : LockId) (lock : Lock) :
    (p.setLock l lock).locks k = if k = l then lock else p.locks k := rfl

/-- Waking a waiting task, for whatever reason and again, leaves a pool alike. -/
theorem setTask_alike {p : Pool σ} {t : TaskId} {on : Wait} {wake : Option (Outcome Unit)}
    {next : Outcome Unit → Program σ Unit} (h : p.task? t = some (.waiting on wake next)) (wake' : Option (Outcome Unit)) :
    Alike p (p.setTask t (.waiting on wake' next)) := by
  refine ⟨rfl, fun _ => rfl, ?_⟩
  simp only [setTask, List.map_set]
  refine List.ext_getElem? fun u => ?_
  by_cases hu : t = u
  · subst hu
    obtain ⟨ht, he⟩ := List.getElem?_eq_some_iff.1 h
    simp [ht, he, TaskState.unwoken]
  · simp [hu]

/-- Another line before a lock leaves a pool alike. -/
theorem setLock_alike (p : Pool σ) (l : LockId) (line : List (TaskId × Place)) :
    Alike p (p.setLock l { p.locks l with line }) := by
  refine ⟨rfl, fun k => ?_, rfl⟩
  rw [locks_setLock]
  split
  · next h => rw [h]
  · rfl

theorem wake_alike (p : Pool σ) (t : TaskId) (o : Outcome Unit) : Alike p (p.wake t o) := by
  unfold wake
  split
  · next on next h =>
    have ha := setTask_alike h (some o)
    exact ⟨ha.state, ha.held, ha.tasks⟩
  · exact Alike.refl p

theorem callNext_alike (p : Pool σ) (l : LockId) : Alike p (p.callNext l) := by
  unfold callNext
  split
  · exact (setLock_alike p l _).trans (wake_alike _ _ _)
  · exact Alike.refl p

theorem giveUp_alike (p : Pool σ) (t : TaskId) (l : LockId) : Alike p (p.giveUp t l) := setLock_alike p l _

/-- A cancellation only wakes, or is passed on. -/
theorem cancelWithin_alike (n : Nat) (t : TaskId) (p : Pool σ) : Alike p (cancelWithin n t p) := by
  induction n generalizing t p with
  | zero => exact Alike.refl p
  | succ n ih =>
    unfold cancelWithin
    split
    · next h => exact setTask_alike h _
    · exact ih _ _
    · exact (giveUp_alike p _ _).trans (wake_alike _ _ _)
    · exact wake_alike p _ _
    · exact Alike.refl p

theorem cancel_alike (p : Pool σ) (t : TaskId) : Alike p (p.cancel t) := cancelWithin_alike _ _ _

theorem arrive_alike (p : Pool σ) (t : TaskId) : Alike p (p.arrive t) := by
  unfold arrive
  split
  · exact wake_alike p _ _
  · exact Alike.refl p

theorem wakeAll_alike (ts : List TaskId) (o : Outcome Unit) (p : Pool σ) : Alike p (ts.foldl (fun p u => p.wake u o) p) := by
  induction ts generalizing p with
  | nil => exact Alike.refl p
  | cons u ts ih => exact (wake_alike p u o).trans (ih _)

/-- Giving a lock back leaves a pool alike to the one where it is just not held any more. -/
theorem unlock_alike (p : Pool σ) (l : LockId) : Alike (p.setLock l { p.locks l with held := false }) (p.unlock l) :=
  callNext_alike _ l

/-! ## New tasks -/

/-- Making a task leaves the others as they are. -/
theorem spawn_task? {p : Pool σ} {t : TaskId} {s : TaskState σ} (h : p.task? t = some s) (body : Program σ Unit) :
    (p.spawn body).2.task? t = some s := by
  have ht : t < p.tasks.length := (List.getElem?_eq_some_iff.1 h).1
  simpa [spawn, task?, List.getElem?_append_left ht] using h

/-- A task that waits after a task was made waited before, or is the new one. -/
theorem spawn_task?_cases {p : Pool σ} {t : TaskId} {body : Program σ Unit} {on : Wait} {wake : Option (Outcome Unit)}
    {next : Outcome Unit → Program σ Unit} (h : (p.spawn body).2.task? t = some (.waiting on wake next)) :
    p.task? t = some (.waiting on wake next) ∨
      (t = p.tasks.length ∧ on = .turn ∧ next = Program.onValue fun _ => body) := by
  simp only [spawn, task?] at h ⊢
  rcases Nat.lt_trichotomy t p.tasks.length with ht | rfl | ht
  · rw [List.getElem?_append_left ht] at h
    exact Or.inl h
  · simp only [List.getElem?_concat_length, Option.some.injEq, TaskState.waiting.injEq] at h
    exact Or.inr ⟨rfl, h.1.symm, h.2.2.symm⟩
  · rw [List.getElem?_eq_none (by simp; omega)] at h
    cases h

/-! ## The course of a turn -/

/-- A pool where a task begins its turn. -/
def beginTurn (p : Pool σ) (t : TaskId) (on : Wait) (o : Outcome Unit) : Pool σ :=
  (Pool.setTask { p with ready := p.ready.erase t } t .running).comeBack t on o

/-- A pool where the turn of a task ends. -/
def endTurn (p : Pool σ) (t : TaskId) : Stop σ Unit → Pool σ
  | .ended o => p.finish t o
  | .waiting on next => p.layDown t on next

/-- A turn begins, the program runs up to its next stop, and the turn ends. -/
theorem resume_eq {p : Pool σ} {t : TaskId} {on : Wait} {o : Outcome Unit} {next : Outcome Unit → Program σ Unit}
    (ht : p.task? t = some (.waiting on (some o) next)) :
    p.resume t = (run (next o) (p.beginTurn t on o)).2.endTurn t (run (next o) (p.beginTurn t on o)).1 := by
  unfold resume
  rw [ht]
  simp only [beginTurn]
  split <;> next hrun => rw [hrun]; rfl

/-- A task that is ready has a turn, and a task that is not has none. -/
theorem resume_cases (p : Pool σ) (t : TaskId) :
    (∃ on o next, p.task? t = some (.waiting on (some o) next) ∧
      p.resume t = (run (next o) (p.beginTurn t on o)).2.endTurn t (run (next o) (p.beginTurn t on o)).1) ∨ p.resume t = p := by
  by_cases hw : ∃ on o next, p.task? t = some (.waiting on (some o) next)
  · obtain ⟨on, o, next, ht⟩ := hw
    exact Or.inl ⟨on, o, next, ht, resume_eq ht⟩
  · refine Or.inr ?_
    unfold resume
    split
    · next on o next ht => exact absurd ⟨on, o, next, ht⟩ hw
    · rfl

/-- The end of a turn leaves the state as the turn made it. -/
theorem endTurn_state (p : Pool σ) (t : TaskId) (stop : Stop σ Unit) : (p.endTurn t stop).state = p.state := by
  cases stop with
  | ended o => exact (wakeAll_alike _ o _).state
  | waiting on next => cases on <;> rfl

/-- The tasks that wait at the end of a turn waited during it, or it is the one whose turn it was. -/
theorem endTurn_waiting {p : Pool σ} {t u : TaskId} {stop : Stop σ Unit} {on : Wait} {wake : Option (Outcome Unit)}
    {next : Outcome Unit → Program σ Unit} (h : (p.endTurn t stop).task? u = some (.waiting on wake next)) :
    (u = t ∧ stop = .waiting on next) ∨ (u ≠ t ∧ ∃ wake', p.task? u = some (.waiting on wake' next)) := by
  cases stop with
  | ended o =>
    obtain ⟨wake', h⟩ := (wakeAll_alike _ o _).waiting h
    rcases task?_setTask_cases h with ⟨-, he⟩ | ⟨hut, hp⟩
    · cases he
    · exact Or.inr ⟨hut, wake', hp⟩
  | waiting on' next' =>
    have hset : ∃ q wake', Alike p q ∧ (q.setTask t (.waiting on' wake' next')).task? u = some (.waiting on wake next) := by
      cases on' with
      | turn => exact ⟨p, _, Alike.refl p, h⟩
      | task v => exact ⟨p, _, Alike.refl p, h⟩
      | signal s => exact ⟨p, _, Alike.refl p, h⟩
      | lock l => exact ⟨_, _, setLock_alike p l _, h⟩
    obtain ⟨q, wake', ha, h⟩ := hset
    rcases task?_setTask_cases h with ⟨hut, he⟩ | ⟨hut, hq⟩
    · obtain ⟨rfl, -, rfl⟩ := TaskState.waiting.inj he
      exact Or.inl ⟨hut, rfl⟩
    · exact Or.inr ⟨hut, ha.waiting hq⟩

end Pool

end SignedCall
