import SignedCall.Proofs.Task.Journal
import SignedCall.Proofs.Task.Lines

/-!
# Tasks that have ended

A task that has ended stays so, whatever happens, and no turn is given to it (`hasEnded_steps`, `resume_of_hasEnded`). A task that
waits for another one goes on only when that one has ended, even if it was cancelled meanwhile: the cancellation is passed on to the
one that is waited for (`Prompt`).

So a program knows of some tasks that they have ended: those that it has waited for, and those that it has looked at. `Vouches` says
of a program that makes notes that each note tells only of tasks that are known to have ended, and then the notes of all runs tell the
truth (`Reached.vouched`).
-/

namespace SignedCall

/-- The task that is known to have ended when a wait is over. -/
def Wait.awaited : Wait → List TaskId
  | .task t => [t]
  | _ => []

namespace Program

variable {σ ν α β : Type} {told : ν → Option TaskId} {known known' : List TaskId}

/-- A program whose notes tell only of tasks that have ended: of the known ones, and of those that it finds ended itself. -/
def Vouches (told : ν → Option TaskId) : {α : Type} → Program (σ × List ν) α → List TaskId → Prop
  | _, .done _, _ => True
  | _, .act f next, known =>
    ∀ s, (∃ es, (f s).2 = s.2 ++ es ∧ ∀ e ∈ es, ∀ t, told e = some t → t ∈ known) ∧ (next s).Vouches told known
  | _, .await w next, known => ∀ o, (next o).Vouches told (w.awaited ++ known)
  | _, .release _ next, known => next.Vouches told known
  | _, .spawn body next, known => body.Vouches told [] ∧ ∀ t, (next t).Vouches told known
  | _, .cancel _ next, known => next.Vouches told known
  | _, .hasEnded t next, known => (next false).Vouches told known ∧ (next true).Vouches told (t :: known)

/-- A program that vouches for its notes on some knowledge does so on more. -/
theorem Vouches.mono {p : Program (σ × List ν) α} (hp : p.Vouches told known) (h : known ⊆ known') : p.Vouches told known' := by
  induction p generalizing known known' with
  | done o => exact trivial
  | act f k ih =>
    intro s
    obtain ⟨⟨es, hes, htold⟩, hk⟩ := hp s
    exact ⟨⟨es, hes, fun e he t ht => h (htold e he t ht)⟩, ih s hk h⟩
  | await w k ih =>
    have hmore : w.awaited ++ known ⊆ w.awaited ++ known' :=
      List.append_subset.2 ⟨List.subset_append_left w.awaited known', List.Subset.trans h (List.subset_append_right w.awaited known')⟩
    exact fun o => ih o (hp o) hmore
  | release l k ih => exact ih hp h
  | spawn body k _ ih => exact ⟨hp.1, fun t => ih t (hp.2 t) h⟩
  | cancel t k ih => exact ih hp h
  | hasEnded t k ih => exact ⟨ih false hp.1 h, ih true hp.2 (List.cons_subset_cons t h)⟩

/-- A program followed by another vouches for its notes if both do, the second without knowing anything. -/
theorem Vouches.andThen {p : Program (σ × List ν) α} {next : Outcome α → Program (σ × List ν) β} (hp : p.Vouches told known)
    (hn : ∀ o, (next o).Vouches told []) : (p.andThen next).Vouches told known := by
  induction p generalizing known with
  | done o => exact (hn o).mono (List.nil_subset known)
  | act f k ih => exact fun s => ⟨(hp s).1, ih s (hp s).2 hn⟩
  | await w k ih => exact fun o => ih o (hp o) hn
  | release l k ih => exact ih hp hn
  | spawn body k _ ih => exact ⟨hp.1, fun t => ih t (hp.2 t) hn⟩
  | cancel t k ih => exact ih hp hn
  | hasEnded t k ih => exact ⟨ih false hp.1 hn, ih true hp.2 hn⟩

/-- What makes no notes tells nothing that is not so. -/
theorem Vouches.of_keeps {p : Program (σ × List ν) α} (hp : p.Keeps Prod.snd) (known : List TaskId) : p.Vouches told known := by
  induction p generalizing known with
  | done o => exact trivial
  | act f k ih => exact fun s => ⟨⟨[], by rw [hp.1 s, List.append_nil], nofun⟩, ih s (hp.2 s) known⟩
  | await w k ih => exact fun o => ih o (hp o) _
  | release l k ih => exact ih hp known
  | spawn body k ihb ih => exact ⟨ihb hp.1 [], fun t => ih t (hp.2 t) known⟩
  | cancel t k ih => exact ih hp known
  | hasEnded t k ih => exact ⟨ih false (hp false) known, ih true (hp true) _⟩

/-- A note at the beginning may tell of a task that is known to have ended. -/
theorem Vouches.announced {p : Program (σ × List ν) α} {e : σ → ν} (he : ∀ s t, told (e s) = some t → t ∈ known)
    (hp : p.Vouches told known) : (p.announced e).Vouches told known :=
  fun s => ⟨⟨[e s.1], rfl, List.forall_mem_singleton.2 (he s.1)⟩, hp⟩

theorem vouches_read {f : σ × List ν → α} {next : α → Program (σ × List ν) β} (h : ∀ a, (next a).Vouches told known) :
    (Program.read f >>= next).Vouches told known := fun s => ⟨⟨[], (List.append_nil s.2).symm, nofun⟩, h (f s)⟩

theorem vouches_change {f : σ × List ν → σ × List ν} {next : Unit → Program (σ × List ν) β} (hf : ∀ s, (f s).2 = s.2)
    (h : (next ()).Vouches told known) : (Program.change f >>= next).Vouches told known :=
  fun s => ⟨⟨[], by rw [hf, List.append_nil], nofun⟩, h⟩

/-- A program vouches for its notes if all the pieces that it is put together from do. -/
theorem vouches_built {piece : ∀ α : Type, Program (σ × List ν) α → Prop} (hpiece : ∀ α p, piece α p → p.Vouches told [])
    {p : Program (σ × List ν) α} (hp : p.Built piece) : p.Vouches told [] := by
  induction hp with
  | piece hp => exact hpiece _ _ hp
  | start _ _ hbody hnext => exact ⟨hbody, hnext⟩
  | andThen _ _ hp hnext => exact hp.andThen hnext

end Program

namespace Pool

section Ended

variable {σ α : Type} {p q : Pool σ}

/-! ## Once and for all -/

/-- A task has ended if its state says so. -/
theorem hasEnded_iff {t : TaskId} : p.hasEnded t = true ↔ ∃ o, p.task? t = some (.ended o) := by
  unfold hasEnded outcome?
  split
  · next o ht => simp [ht]
  · next hne =>
    refine ⟨nofun, ?_⟩
    rintro ⟨o, ht⟩
    exact absurd ht (hne o)

/-- Where the tasks are the same but for who has been woken, the same ones have ended. -/
theorem hasEnded_of_unwoken (h : q.tasks.map TaskState.unwoken = p.tasks.map TaskState.unwoken) {t : TaskId}
    (hp : p.hasEnded t = true) : q.hasEnded t = true := by
  obtain ⟨o, ho⟩ := hasEnded_iff.1 hp
  have ht := unwoken_task? h t
  rw [ho] at ht
  match hq : q.task? t, ht with
  | some (.ended o'), _ => exact hasEnded_iff.2 ⟨o', hq⟩

/-- Pools that differ in no more than who has been woken have the same tasks ended. -/
theorem Alike.hasEnded (h : Alike p q) {t : TaskId} (hp : p.hasEnded t = true) : q.hasEnded t = true :=
  hasEnded_of_unwoken h.tasks hp

/-- A task that has not ended may be put into any state. -/
theorem hasEnded_setTask {t u : TaskId} (hu : p.hasEnded u = true) {s : TaskState σ} (ht : p.task? t = some s)
    (hs : ∀ o, s ≠ .ended o) (s' : TaskState σ) : (p.setTask t s').hasEnded u = true := by
  obtain ⟨o, ho⟩ := hasEnded_iff.1 hu
  refine hasEnded_iff.2 ⟨o, ?_⟩
  rw [task?_setTask_of_ne, ho]
  rintro rfl
  rw [ht] at ho
  exact hs o (Option.some.inj ho)

theorem hasEnded_spawn {u : TaskId} (hu : p.hasEnded u = true) (body : Program σ Unit) : (p.spawn body).2.hasEnded u = true := by
  obtain ⟨o, ho⟩ := hasEnded_iff.1 hu
  exact hasEnded_iff.2 ⟨o, spawn_task? ho body⟩

theorem hasEnded_atOnce? {w : Wait} {o : Outcome Unit} (hw : p.atOnce? w = some (o, q)) {u : TaskId} (hu : p.hasEnded u = true) :
    q.hasEnded u = true := hasEnded_of_unwoken (congrArg _ (atOnce?_eq hw).2) hu

/-- A wait for a task is over at once only if the task has ended. -/
theorem hasEnded_of_atOnce? {w : Wait} {o : Outcome Unit} (hw : p.atOnce? w = some (o, q)) : ∀ u ∈ w.awaited, p.hasEnded u = true := by
  intro u hu
  cases w with
  | turn => cases hu
  | lock l => cases hu
  | signal s => cases hu
  | task t =>
    obtain rfl := List.mem_singleton.1 hu
    obtain ⟨o', ho', -⟩ := Option.map_eq_some_iff.1 hw
    rw [hasEnded, ho', Option.isSome_some]

theorem hasEnded_run {u : TaskId} (k : Program σ α) (hu : p.hasEnded u = true) : (run k p).2.hasEnded u = true := by
  induction k generalizing p with
  | done o => exact hu
  | act f next ih => exact ih p.state (p := { p with state := f p.state }) hu
  | await w next ih =>
    unfold Pool.run
    split
    · next o p' hw => exact ih o (hasEnded_atOnce? hw hu)
    · exact hu
  | release l next ih => exact ih ((unlock_alike p l).hasEnded hu)
  | spawn body next _ ih => exact ih _ (hasEnded_spawn hu body)
  | cancel t next ih => exact ih ((cancel_alike p t).hasEnded hu)
  | hasEnded t next ih => exact ih _ hu

/-- The beginning of a turn leaves those tasks ended that have ended: it is given to one that waits. -/
theorem hasEnded_beginTurn {t u : TaskId} {on : Wait} {o : Outcome Unit} {next : Outcome Unit → Program σ Unit}
    (ht : p.task? t = some (.waiting on (some o) next)) (hu : p.hasEnded u = true) : (p.beginTurn t on o).hasEnded u = true :=
  hasEnded_of_unwoken (beginTurn_unwoken p t on o).2 (hasEnded_setTask hu ht nofun _)

/-- The end of a turn leaves those tasks ended that have ended: it is the end for one that runs. -/
theorem hasEnded_endTurn {t u : TaskId} (ht : p.task? t = some .running) (stop : Stop σ Unit) (hu : p.hasEnded u = true) :
    (p.endTurn t stop).hasEnded u = true := by
  cases stop with
  | ended o => exact (wakeAll_alike _ o _).hasEnded (hasEnded_setTask hu ht nofun _)
  | waiting on next =>
    cases on with
    | turn => exact hasEnded_setTask hu ht nofun _
    | task v => exact hasEnded_setTask hu ht nofun _
    | signal s => exact hasEnded_setTask hu ht nofun _
    | lock l => exact hasEnded_setTask ((setLock_alike p l _).hasEnded hu) ht nofun _

/-- A task that has ended stays so in every move. -/
theorem hasEnded_step {u : TaskId} (hu : p.hasEnded u = true) (m : Move σ) : (p.step m).hasEnded u = true := by
  cases m with
  | turn t =>
    rcases resume_cases p t with ⟨on, o, next, ht, hresume⟩ | hresume
    · rw [step, hresume]
      exact hasEnded_endTurn (run_running _ (beginTurn_task? ht)) _ (hasEnded_run _ (hasEnded_beginTurn ht hu))
    · rw [step, hresume]
      exact hu
  | arrival t => exact (arrive_alike p t).hasEnded hu
  | cancel t => exact (cancel_alike p t).hasEnded hu
  | start body => exact hasEnded_spawn hu body
  | change f => exact hu

/-- A task that has ended stays so in every run. -/
theorem hasEnded_steps {u : TaskId} (hu : p.hasEnded u = true) (ms : List (Move σ)) : (p.steps ms).hasEnded u = true := by
  induction ms generalizing p with
  | nil => exact hu
  | cons m ms ih => exact ih (hasEnded_step hu m)

/-- A task that has ended has no turns. -/
theorem resume_of_hasEnded {u : TaskId} (hu : p.hasEnded u = true) : p.resume u = p := by
  obtain ⟨o, ho⟩ := hasEnded_iff.1 hu
  unfold resume
  rw [ho]

/-! ## Waits for a task -/

/-- A pool where every wait for a task that is over was for one that has ended. -/
def Prompt (p : Pool σ) : Prop :=
  ∀ t on o next, p.task? t = some (.waiting on (some o) next) → ∀ u ∈ on.awaited, p.hasEnded u = true

namespace Prompt

/-- What matters is who has ended, and which waits are over. -/
theorem of_tasks (h : Prompt p) (hended : ∀ u, p.hasEnded u = true → q.hasEnded u = true)
    (hwoken : ∀ t on o next, q.task? t = some (.waiting on (some o) next) →
      (∀ u ∈ on.awaited, q.hasEnded u = true) ∨ ∃ o', p.task? t = some (.waiting on (some o') next)) : Prompt q := by
  intro t on o next ht u hu
  rcases hwoken t on o next ht with hover | ⟨o', hold⟩
  · exact hover u hu
  · exact hended u (h t on o' next hold u hu)

/-- A task is put into another state, where it waits for nothing that has not ended if its wait is over. -/
theorem setTask (h : Prompt p) {t : TaskId} {s s' : TaskState σ} (ht : p.task? t = some s) (hs : ∀ o, s ≠ .ended o)
    (hs' : ∀ on o next, s' = .waiting on (some o) next → ∀ u ∈ on.awaited, p.hasEnded u = true) : Prompt (p.setTask t s') := by
  have hended : ∀ u, p.hasEnded u = true → (p.setTask t s').hasEnded u = true := fun u hu => hasEnded_setTask hu ht hs s'
  refine h.of_tasks hended fun u on o next hu => ?_
  rcases task?_setTask_cases hu with ⟨-, rfl⟩ | ⟨-, hold⟩
  · exact Or.inl fun v hv => hended v (hs' on o next rfl v hv)
  · exact Or.inr ⟨o, hold⟩

/-- A task may be woken if the one that it waits for has ended. -/
theorem wake (h : Prompt p) {t : TaskId}
    (ht : ∀ on next, p.task? t = some (.waiting on none next) → ∀ u ∈ on.awaited, p.hasEnded u = true) (o : Outcome Unit) :
    Prompt (p.wake t o) := by
  unfold Pool.wake
  split
  · next on next hw =>
    refine h.setTask hw nofun fun on' o' next' he => ?_
    obtain ⟨rfl, -, -⟩ := TaskState.waiting.inj he
    exact ht on next hw
  · exact h

/-- Several tasks may be woken if each one that they wait for has ended. -/
theorem wakeAll {o : Outcome Unit} (ts : List TaskId) (h : Prompt p)
    (hts : ∀ t ∈ ts, ∀ on wake next, p.task? t = some (.waiting on wake next) → ∀ u ∈ on.awaited, p.hasEnded u = true) :
    Prompt (ts.foldl (fun p u => p.wake u o) p) := by
  induction ts generalizing p with
  | nil => exact h
  | cons t ts ih =>
    have ha := wake_alike p t o
    refine ih (h.wake (fun on => hts t List.mem_cons_self on none) o) fun u hu on wake next hw v hv => ?_
    obtain ⟨wake', hold⟩ := ha.waiting hw
    exact ha.hasEnded (hts u (List.mem_cons_of_mem t hu) on wake' next hold v hv)

/-- Who is let go for a lock has waited for that lock. -/
theorem callNext (h : Prompt p) {l : LockId}
    (hline : ∀ t place, (t, place) ∈ (p.locks l).line → ∃ wake next, p.task? t = some (.waiting (.lock l) wake next)) :
    Prompt (p.callNext l) := by
  unfold Pool.callNext
  split
  · next t rest hl =>
    obtain ⟨wake, next, ht⟩ := hline t .waiting (hl ▸ List.mem_cons_self)
    refine Prompt.wake (p := p.setLock l _) h (fun on next' hw => ?_) _
    obtain ⟨rfl, -, -⟩ := TaskState.waiting.inj (Option.some.inj (ht.symm.trans hw))
    exact List.forall_mem_nil _
  · exact h

/-- Giving a lock back wakes only those that wait for the lock, and they wait for no task. -/
theorem unlock (ho : Orderly p) (h : Prompt p) (l : LockId) : Prompt (p.unlock l) := by
  refine callNext (p := p.setLock l _) h fun t place hmem => ?_
  rw [locks_setLock, if_pos rfl] at hmem
  obtain ⟨wake, next, ht, -⟩ := ho.waits l t place hmem
  exact ⟨wake, next, ht⟩

/-- A cancellation wakes no one that waits for a task: it is passed on to that task. -/
theorem cancelWithin (n : Nat) (t : TaskId) (h : Prompt p) : Prompt (Pool.cancelWithin n t p) := by
  induction n generalizing t with
  | zero => exact h
  | succ n ih =>
    unfold Pool.cancelWithin
    split
    · next on o next ht =>
      refine h.setTask ht nofun fun on' o' next' he => ?_
      obtain ⟨rfl, -, -⟩ := TaskState.waiting.inj he
      exact h t on o next ht
    · exact ih _
    · next l next ht =>
      refine Prompt.wake (p := p.giveUp t l) h (fun on next' hw => ?_) _
      obtain ⟨rfl, -, -⟩ := TaskState.waiting.inj (Option.some.inj (ht.symm.trans hw))
      exact List.forall_mem_nil _
    · next on next htask hlock ht =>
      refine h.wake (fun on' next' hw => ?_) _
      obtain ⟨rfl, -, -⟩ := TaskState.waiting.inj (Option.some.inj (ht.symm.trans hw))
      cases on with
      | task u => exact absurd rfl (htask u)
      | turn => exact List.forall_mem_nil _
      | lock l => exact List.forall_mem_nil _
      | signal s => exact List.forall_mem_nil _
    · exact h

/-- What comes from outside wakes only those that wait for no task. -/
theorem arrive (h : Prompt p) (t : TaskId) : Prompt (p.arrive t) := by
  unfold Pool.arrive
  split
  · next s hs =>
    refine h.wake (fun on next hw => ?_) _
    obtain rfl : on = .signal s := by simpa [blockedOn?, hw] using hs
    exact List.forall_mem_nil _
  · exact h

/-- A new task has been woken and waits for no other. -/
theorem spawn (h : Prompt p) (body : Program σ Unit) : Prompt (p.spawn body).2 := by
  refine h.of_tasks (fun u hu => hasEnded_spawn hu body) fun t on o next hw => ?_
  rcases spawn_task?_cases hw with hold | ⟨-, rfl, -⟩
  · exact Or.inr ⟨o, hold⟩
  · exact Or.inl (List.forall_mem_nil _)

/-- Running a program up to its next stop wakes no one too early. -/
theorem run (k : Program σ α) (ho : Orderly p) (h : Prompt p) : Prompt (Pool.run k p).2 := by
  induction k generalizing p with
  | done o => exact h
  | act f next ih => exact ih p.state (p := { p with state := f p.state }) (ho.of_tasks rfl fun _ _ _ _ => Iff.rfl) h
  | await w next ih =>
    unfold Pool.run
    split
    · next o p' hw =>
      have hsame : ∀ t, p'.task? t = p.task? t := atOnce?_task? hw
      exact ih o (ho.atOnce hw) (h.of_tasks (fun u => hasEnded_atOnce? hw) fun t on o next ht => Or.inr ⟨o, hsame t ▸ ht⟩)
    · exact h
  | release l next ih => exact ih (ho.unlock l) (h.unlock ho l)
  | spawn body next _ ih => exact ih _ (ho.spawn body) (h.spawn body)
  | cancel u next ih => exact ih (ho.cancel u) (h.cancelWithin _ u)
  | hasEnded u next ih => exact ih _ ho h

/-- The beginning of a turn wakes no one. -/
theorem beginTurn (ho : Orderly p) (h : Prompt p) {t : TaskId} {on : Wait} {o : Outcome Unit} {next : Outcome Unit → Program σ Unit}
    (ht : p.task? t = some (.waiting on (some o) next)) : Prompt (p.beginTurn t on o) := by
  have hrunning : Prompt (Pool.setTask { p with ready := p.ready.erase t } t .running) :=
    setTask (p := { p with ready := p.ready.erase t }) h ht nofun nofun
  unfold Pool.beginTurn comeBack
  split
  · next l =>
    -- The lines are those from before the turn, and the task itself is not in the one that it leaves.
    have hleft : ∀ u place, (u, place) ∈ (p.locks l).line.filter (fun e => e.1 != t) →
        ∃ wake next, (p.setTask t .running).task? u = some (.waiting (.lock l) wake next) := by
      intro u place hmem
      obtain ⟨hmem, hne⟩ := List.mem_filter.1 hmem
      obtain ⟨wake, next, hu, -⟩ := ho.waits l u place hmem
      exact ⟨wake, next, (task?_setTask_of_ne (Ne.symm (by simpa using hne)) _).trans hu⟩
    have hset : Prompt (Pool.setLock (Pool.setTask { p with ready := p.ready.erase t } t .running) l
        { p.locks l with line := (p.locks l).line.filter fun e => e.1 != t }) := hrunning
    have hcalled := hset.callNext (l := l) fun u place hmem => hleft u place (by rwa [locks_setLock, if_pos rfl] at hmem)
    unfold Pool.leaveLine
    cases o with
    | value u => exact hrunning
    | failed f =>
      dsimp only
      split
      · exact hrunning
      · exact hcalled
    | cancelled =>
      dsimp only
      split
      · exact hrunning
      · exact hcalled
  · exact hrunning

/-- The end of a task wakes those that waited for it, which has ended now. -/
theorem endTurn (h : Prompt p) {t : TaskId} (ht : p.task? t = some .running) (stop : Stop σ Unit) : Prompt (p.endTurn t stop) := by
  cases stop with
  | ended o =>
    have hset : Prompt (p.setTask t (.ended o)) := h.setTask ht (by simp) (by simp)
    refine hset.wakeAll _ fun u hu on wake next hw v hv => ?_
    have hblocked := (List.mem_filter.1 hu).2
    cases wake with
    | none =>
      obtain rfl : on = .task t := by simpa [blockedOn?, hw] using hblocked
      obtain rfl := List.mem_singleton.1 hv
      exact hasEnded_iff.2 ⟨o, task?_setTask_self ht _⟩
    | some o' => simp [blockedOn?, hw] at hblocked
  | waiting on next =>
    cases on with
    | turn =>
      refine h.setTask ht (by simp) fun on' o' next' he => ?_
      obtain ⟨rfl, -, -⟩ := TaskState.waiting.inj he
      exact List.forall_mem_nil _
    | task u => exact h.setTask ht (by simp) (by simp)
    | signal s => exact h.setTask ht (by simp) (by simp)
    | lock l => exact setTask (p := p.setLock l _) h ht (by simp) (by simp)

/-- In every move, a task that waits for another one goes on waiting until that one has ended. -/
theorem step (ho : Orderly p) (h : Prompt p) (m : Move σ) : Prompt (p.step m) := by
  cases m with
  | turn t =>
    rcases resume_cases p t with ⟨on, o, next, ht, hresume⟩ | hresume
    · rw [Pool.step, hresume]
      exact ((h.beginTurn ho ht).run (next o) (ho.beginTurn ht)).endTurn (run_running (next o) (beginTurn_task? ht)) _
    · rw [Pool.step, hresume]
      exact h
  | arrival t => exact h.arrive t
  | cancel t => exact h.cancelWithin _ t
  | start body => exact h.spawn body
  | change f => exact h

end Prompt

end Ended

/-! ## Notes about tasks that have ended -/

section Vouched

variable {σ ν α : Type} {told : ν → Option TaskId} {p q : Pool (σ × List ν)} {known : List TaskId}

/-- A pool whose notes tell only of tasks that have ended, and go on to do so from where the tasks wait. -/
structure Vouched (told : ν → Option TaskId) (p : Pool (σ × List ν)) : Prop where
  journal : ∀ e ∈ p.state.2, ∀ u, told e = some u → p.hasEnded u = true
  waits : ∀ t on wake next, p.task? t = some (.waiting on wake next) →
    ∃ known, (∀ u ∈ known, p.hasEnded u = true) ∧ (Program.await on next).Vouches told known

namespace Vouched

/-- What matters is who has ended, who waits, and the notes, where more may be made of tasks that have ended. -/
theorem grown (h : Vouched told p) (hended : ∀ u, p.hasEnded u = true → q.hasEnded u = true) {es : List ν}
    (hjournal : q.state.2 = p.state.2 ++ es) (hes : ∀ e ∈ es, ∀ u, told e = some u → p.hasEnded u = true)
    (hwaiting : ∀ t on wake next, q.task? t = some (.waiting on wake next) → ∃ wake', p.task? t = some (.waiting on wake' next)) :
    Vouched told q := by
  refine ⟨fun e he u hu => hended u ?_, fun t on wake next hw => ?_⟩
  · rcases List.mem_append.1 (hjournal ▸ he) with he | he
    · exact h.journal e he u hu
    · exact hes e he u hu
  · obtain ⟨wake', hold⟩ := hwaiting t on wake next hw
    obtain ⟨known, hknown, hk⟩ := h.waits t on wake' next hold
    exact ⟨known, fun u hu => hended u (hknown u hu), hk⟩

/-- Notes stay vouched for where no note is made, those that have ended stay so, and waits are only woken. -/
theorem of_tasks (h : Vouched told p) (hended : ∀ u, p.hasEnded u = true → q.hasEnded u = true) (hjournal : q.state.2 = p.state.2)
    (hwaiting : ∀ t on wake next, q.task? t = some (.waiting on wake next) → ∃ wake', p.task? t = some (.waiting on wake' next)) :
    Vouched told q := by
  have hsame : q.state.2 = p.state.2 ++ [] := by rw [hjournal, List.append_nil]
  exact h.grown hended hsame nofun hwaiting

theorem of_unwoken (h : Vouched told p) (hstate : q.state = p.state)
    (htasks : q.tasks.map TaskState.unwoken = p.tasks.map TaskState.unwoken) : Vouched told q :=
  h.of_tasks (fun _ => hasEnded_of_unwoken htasks) (congrArg Prod.snd hstate) fun _ _ _ _ => waiting_of_unwoken htasks

theorem alike (h : Vouched told p) (ha : Alike p q) : Vouched told q := h.of_unwoken ha.state ha.tasks

/-- A task may be made if it vouches for its notes without knowing anything. -/
theorem spawn (h : Vouched told p) {body : Program (σ × List ν) Unit} (hbody : body.Vouches told []) :
    Vouched told (p.spawn body).2 := by
  refine ⟨fun e he u hu => hasEnded_spawn (h.journal e he u hu) body, fun t on wake next hw => ?_⟩
  rcases spawn_task?_cases hw with hold | ⟨-, rfl, rfl⟩
  · obtain ⟨known, hknown, hk⟩ := h.waits t on wake next hold
    exact ⟨known, fun u hu => hasEnded_spawn (hknown u hu) body, hk⟩
  · refine ⟨[], nofun, fun o => ?_⟩
    cases o with
    | value u => exact hbody
    | failed f => exact trivial
    | cancelled => exact trivial

/-- A program that vouches, run up to its next stop. -/
theorem run (k : Program (σ × List ν) α) (h : Vouched told p) (hknown : ∀ u ∈ known, p.hasEnded u = true)
    (hk : k.Vouches told known) : Vouched told (Pool.run k p).2 ∧ ∀ on next, (Pool.run k p).1 = .waiting on next →
      ∃ known', (∀ u ∈ known', (Pool.run k p).2.hasEnded u = true) ∧ (Program.await on next).Vouches told known' := by
  induction k generalizing p known with
  | done o => exact ⟨h, nofun⟩
  | act f next ih =>
    obtain ⟨⟨es, hes, htold⟩, hnext⟩ := hk p.state
    have h' : Vouched told { p with state := f p.state } :=
      h.grown (fun _ hu => hu) hes (fun e he u hu => hknown u (htold e he u hu)) fun _ _ wake _ hw => ⟨wake, hw⟩
    exact ih p.state h' hknown hnext
  | await w next ih =>
    unfold Pool.run
    split
    · next o p' hw =>
      obtain ⟨hstate, htasks⟩ := atOnce?_eq hw
      refine ih o (h.of_unwoken hstate (congrArg _ htasks)) (fun u hu => hasEnded_atOnce? hw ?_) (hk o)
      rcases List.mem_append.1 hu with hu | hu
      · exact hasEnded_of_atOnce? hw u hu
      · exact hknown u hu
    · refine ⟨h, fun on next' he => ?_⟩
      obtain ⟨rfl, rfl⟩ := Stop.waiting.inj he
      exact ⟨known, hknown, hk⟩
  | release l next ih =>
    have ha := unlock_alike p l
    exact ih (h.of_unwoken ha.state ha.tasks) (fun u hu => ha.hasEnded (hknown u hu)) hk
  | spawn body next _ ih => exact ih _ (h.spawn hk.1) (fun u hu => hasEnded_spawn (hknown u hu) body) (hk.2 _)
  | cancel t next ih =>
    have ha := cancel_alike p t
    exact ih (h.alike ha) (fun u hu => ha.hasEnded (hknown u hu)) hk
  | hasEnded t next ih =>
    cases ht : p.hasEnded t with
    | false =>
      simp only [Pool.run, ht]
      exact ih false h hknown hk.1
    | true =>
      simp only [Pool.run, ht]
      exact ih true h (List.forall_mem_cons.2 ⟨ht, hknown⟩) hk.2

/-- A turn keeps the notes vouched for: the task that was waited for has ended when the turn begins. -/
theorem resume (hprompt : Prompt p) (h : Vouched told p) (t : TaskId) : Vouched told (p.resume t) := by
  rcases resume_cases p t with ⟨on, o, next, ht, hresume⟩ | hresume
  · obtain ⟨hstate, htasks⟩ := beginTurn_unwoken p t on o
    have hbegun : Vouched told (p.beginTurn t on o) := by
      refine h.of_tasks (fun u => hasEnded_beginTurn ht) (congrArg Prod.snd hstate) fun u on' wake' next' hu => ?_
      obtain ⟨wake'', hset⟩ := waiting_of_unwoken htasks hu
      rcases task?_setTask_cases hset with ⟨-, he⟩ | ⟨-, hold⟩
      · cases he
      · exact ⟨wake'', hold⟩
    obtain ⟨known, hknown, hk⟩ := h.waits t on _ next ht
    have hover : ∀ u ∈ on.awaited ++ known, (p.beginTurn t on o).hasEnded u = true := by
      intro u hu
      rcases List.mem_append.1 hu with hu | hu
      · exact hasEnded_beginTurn ht (hprompt t on o next ht u hu)
      · exact hasEnded_beginTurn ht (hknown u hu)
    obtain ⟨hrun, hstop⟩ := hbegun.run (next o) hover (hk o)
    have hstill := run_running (next o) (beginTurn_task? ht)
    rw [hresume]
    refine ⟨fun e he u hu => hasEnded_endTurn hstill _ (hrun.journal e ?_ u hu), fun u on' wake' next' hw => ?_⟩
    · rwa [endTurn_state] at he
    · rcases endTurn_waiting hw with ⟨rfl, he⟩ | ⟨-, wake'', hold⟩
      · obtain ⟨known', hknown', hk'⟩ := hstop on' next' he
        exact ⟨known', fun u hu => hasEnded_endTurn hstill _ (hknown' u hu), hk'⟩
      · obtain ⟨known', hknown', hk'⟩ := hrun.waits u on' wake'' next' hold
        exact ⟨known', fun u hu => hasEnded_endTurn hstill _ (hknown' u hu), hk'⟩
  · rw [hresume]
    exact h

end Vouched

/-- A move where tasks that are made vouch for their notes, and no notes are made from outside. -/
def Vouching (told : ν → Option TaskId) : Move (σ × List ν) → Prop
  | .start body => body.Vouches told []
  | .change f => ∀ s, (f s).2 = s.2
  | _ => True

/-- The moves of runs whose tasks are put together from pieces that vouch for their notes. -/
theorem vouching_of_within {τ : Type} {piece : ∀ α : Type, Program (σ × List ν) α → Prop} {part : σ → τ}
    (hpiece : ∀ α p, piece α p → p.Vouches told []) {m : Move (σ × List ν)} (hm : m.Within piece fun s => (part s.1, s.2)) :
    Vouching told m := by
  cases m with
  | start body => exact Program.vouches_built hpiece hm
  | change f => exact fun s => (Prod.mk.inj (hm s)).2
  | turn t => exact trivial
  | arrival t => exact trivial
  | cancel t => exact trivial

/-- A move keeps the notes vouched for. -/
theorem Vouched.step (hprompt : Prompt p) (h : Vouched told p) {m : Move (σ × List ν)} (hm : Vouching told m) :
    Vouched told (p.step m) := by
  cases m with
  | turn t => exact h.resume hprompt t
  | arrival t => exact h.alike (arrive_alike p t)
  | cancel t => exact h.alike (cancel_alike p t)
  | start body => exact h.spawn hm
  | change f => exact h.of_tasks (fun _ hu => hu) (hm p.state) fun _ _ wake _ hw => ⟨wake, hw⟩

/-- At every point of every run the notes tell only of tasks that have ended. -/
theorem Reached.vouched {start : σ × List ν → Prop} {ok : Move (σ × List ν) → Prop} (hstart : ∀ s, start s → s.2 = [])
    (hok : ∀ m, ok m → Vouching told m) (hp : Reached start ok p) :
    ∀ e ∈ p.state.2, ∀ u, told e = some u → p.hasEnded u = true := by
  have hvouched : Orderly p ∧ Prompt p ∧ Vouched told p := by
    induction hp with
    | @start s hs =>
      refine ⟨orderly_empty s, nofun, fun e he => ?_, nofun⟩
      rw [hstart s hs] at he
      cases he
    | step _ hm ih =>
      obtain ⟨ho, hprompt, h⟩ := ih
      exact ⟨ho.step _, hprompt.step ho _, h.step hprompt (hok _ hm)⟩
  exact hvouched.2.2.journal

end Vouched

end Pool

end SignedCall
