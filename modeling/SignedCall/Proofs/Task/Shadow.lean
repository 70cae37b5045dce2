import SignedCall.Proofs.Task.Record

/-!
# Runs with notes

A pool whose tasks make notes goes through the same states as the pool of the same tasks without notes: they are ready, wait, hold
locks and end alike (`Pool.Noting`), and stay so under every move (`Pool.Noting.step`). So every run without notes is a run with
notes but for the notes (`Pool.Reached.noting`).
-/

namespace SignedCall

variable {σ ν : Type}

/-- A task that is another one but for its notes. -/
inductive TaskState.Noting : TaskState (σ × List ν) → TaskState σ → Prop
  | waiting (on : Wait) (wake : Option (Outcome Unit)) {k : Outcome Unit → Program (σ × List ν) Unit}
      {l : Outcome Unit → Program σ Unit} : (∀ o, (k o).Noting (l o)) → Noting (.waiting on wake k) (.waiting on wake l)
  | running : Noting .running .running
  | ended (o : Outcome Unit) : Noting (.ended o) (.ended o)

/-- A stop of a program that is another one but for its notes. -/
inductive Stop.Noting {α : Type} : Stop (σ × List ν) α → Stop σ α → Prop
  | ended (o : Outcome α) : Noting (.ended o) (.ended o)
  | waiting (on : Wait) {k : Outcome Unit → Program (σ × List ν) α} {l : Outcome Unit → Program σ α} :
      (∀ o, (k o).Noting (l o)) → Noting (.waiting on k) (.waiting on l)

/-- A move that is another one but for notes. -/
inductive Move.Noting : Move (σ × List ν) → Move σ → Prop
  | turn (t : TaskId) : Noting (.turn t) (.turn t)
  | arrival (t : TaskId) : Noting (.arrival t) (.arrival t)
  | cancel (t : TaskId) : Noting (.cancel t) (.cancel t)
  | start {b : Program (σ × List ν) Unit} {c : Program σ Unit} : b.Noting c → Noting (.start b) (.start c)
  | change {g : σ × List ν → σ × List ν} {f : σ → σ} : (∀ s, (g s).1 = f s.1) → Noting (.change g) (.change f)

namespace Pool

/-- A pool that is another one but for the notes of its tasks. -/
structure Noting (p : Pool (σ × List ν)) (q : Pool σ) : Prop where
  state : p.state.1 = q.state
  length : p.tasks.length = q.tasks.length
  task : ∀ t, Option.Rel TaskState.Noting (p.task? t) (q.task? t)
  ready : p.ready = q.ready
  blocked : p.blocked = q.blocked
  locks : p.locks = q.locks

namespace Noting

variable {α : Type} {p : Pool (σ × List ν)} {q : Pool σ}

/-- A task is in both pools, but for its notes, or in neither. -/
theorem task_cases (h : Noting p q) (t : TaskId) :
    (p.task? t = none ∧ q.task? t = none) ∨ ∃ x y, p.task? t = some x ∧ q.task? t = some y ∧ x.Noting y := by
  have ht := h.task t
  cases hp : p.task? t with
  | none =>
    rw [hp] at ht
    cases hq : q.task? t with
    | none => exact Or.inl ⟨rfl, rfl⟩
    | some y =>
      rw [hq] at ht
      cases ht
  | some x =>
    rw [hp] at ht
    cases hq : q.task? t with
    | none =>
      rw [hq] at ht
      cases ht
    | some y =>
      rw [hq] at ht
      cases ht with
      | some hs => exact Or.inr ⟨x, y, rfl, rfl, hs⟩

/-- Tasks end alike with notes and without. -/
theorem outcome?_eq (h : Noting p q) (t : TaskId) : p.outcome? t = q.outcome? t := by
  unfold Pool.outcome?
  rcases h.task_cases t with ⟨hp, hq⟩ | ⟨x, y, hp, hq, hs⟩
  · rw [hp, hq]
  · rw [hp, hq]
    cases hs <;> rfl

/-- Tasks wait for the same with notes and without. -/
theorem blockedOn?_eq (h : Noting p q) (t : TaskId) : p.blockedOn? t = q.blockedOn? t := by
  unfold Pool.blockedOn?
  rcases h.task_cases t with ⟨hp, hq⟩ | ⟨x, y, hp, hq, hs⟩
  · rw [hp, hq]
  · rw [hp, hq]
    cases hs with
    | waiting on wake _ => cases wake <;> rfl
    | running => rfl
    | ended o => rfl

/-! ## What keeps pools together -/

/-- A task may change in both pools, if the new states differ in no more than notes. -/
theorem setTask (h : Noting p q) (t : TaskId) {x : TaskState (σ × List ν)} {y : TaskState σ} (hs : x.Noting y) :
    Noting (p.setTask t x) (q.setTask t y) := by
  refine ⟨h.state, by simp [Pool.setTask, h.length], fun u => ?_, h.ready, h.blocked, h.locks⟩
  rw [task?_setTask, task?_setTask]
  split
  · rcases h.task_cases u with ⟨hp, hq⟩ | ⟨_, _, hp, hq, -⟩
    · rw [hp, hq]
      exact .none
    · rw [hp, hq]
      exact .some hs
  · exact h.task u

theorem setLock (h : Noting p q) (l : LockId) (lock : Lock) : Noting (p.setLock l lock) (q.setLock l lock) :=
  ⟨h.state, h.length, h.task, h.ready, h.blocked, funext fun k => by rw [locks_setLock, locks_setLock, h.locks]⟩

/-- Waking a task does the same with notes and without. -/
theorem wake (h : Noting p q) (t : TaskId) (o : Outcome Unit) : Noting (p.wake t o) (q.wake t o) := by
  unfold Pool.wake
  rcases h.task_cases t with ⟨hp, hq⟩ | ⟨x, y, hp, hq, hs⟩
  · rw [hp, hq]
    exact h
  · rw [hp, hq]
    cases hs with
    | waiting on wake hk =>
      cases wake with
      | none =>
        have hset := h.setTask t (.waiting on (some o) hk)
        exact ⟨hset.state, hset.length, hset.task, congrArg (· ++ [t]) h.ready, congrArg (List.erase · t) h.blocked, hset.locks⟩
      | some o => exact h
    | running => exact h
    | ended o => exact h

theorem callNext (h : Noting p q) (l : LockId) : Noting (p.callNext l) (q.callNext l) := by
  unfold Pool.callNext
  rw [h.locks]
  split
  · exact (h.setLock l _).wake _ _
  · exact h

theorem unlock (h : Noting p q) (l : LockId) : Noting (p.unlock l) (q.unlock l) := by
  unfold Pool.unlock
  rw [h.locks]
  exact (h.setLock l _).callNext l

theorem leaveLine (h : Noting p q) (t : TaskId) (l : LockId) (o : Outcome Unit) : Noting (p.leaveLine t l o) (q.leaveLine t l o) := by
  unfold Pool.leaveLine
  rw [h.locks]
  cases o with
  | value u => exact h.setLock l _
  | failed f =>
    dsimp only
    split
    · exact h.setLock l _
    · exact (h.setLock l _).callNext l
  | cancelled =>
    dsimp only
    split
    · exact h.setLock l _
    · exact (h.setLock l _).callNext l

theorem giveUp (h : Noting p q) (t : TaskId) (l : LockId) : Noting (p.giveUp t l) (q.giveUp t l) := by
  unfold Pool.giveUp
  rw [h.locks]
  exact h.setLock l _

theorem cancelWithin (n : Nat) (h : Noting p q) (t : TaskId) : Noting (Pool.cancelWithin n t p) (Pool.cancelWithin n t q) := by
  induction n generalizing t with
  | zero => exact h
  | succ n ih =>
    unfold Pool.cancelWithin
    rcases h.task_cases t with ⟨hp, hq⟩ | ⟨x, y, hp, hq, hs⟩
    · rw [hp, hq]
      exact h
    · rw [hp, hq]
      cases hs with
      | waiting on wake hk =>
        cases wake with
        | none =>
          cases on with
          | turn => exact h.wake t _
          | lock l => exact (h.giveUp t l).wake t _
          | task u => exact ih u
          | signal s => exact h.wake t _
        | some o => exact h.setTask t (.waiting on _ hk)
      | running => exact h
      | ended o => exact h

theorem cancel (h : Noting p q) (t : TaskId) : Noting (p.cancel t) (q.cancel t) := by
  unfold Pool.cancel
  rw [h.length]
  exact h.cancelWithin _ t

theorem arrive (h : Noting p q) (t : TaskId) : Noting (p.arrive t) (q.arrive t) := by
  unfold Pool.arrive
  rw [h.blockedOn?_eq]
  split
  · exact h.wake t _
  · exact h

/-- A task may be made in both pools, if the programs differ in no more than notes. -/
theorem spawn (h : Noting p q) {b : Program (σ × List ν) Unit} {c : Program σ Unit} (hb : b.Noting c) :
    Noting (p.spawn b).2 (q.spawn c).2 := by
  have hnew : TaskState.Noting (.waiting .turn (some (.value ())) (Program.onValue fun _ => b))
      (.waiting .turn (some (.value ())) (Program.onValue fun _ => c)) := by
    refine .waiting _ _ fun o => ?_
    cases o with
    | value u => exact hb
    | failed f => exact .done _
    | cancelled => exact .done _
  refine ⟨h.state, by simp [Pool.spawn, h.length], fun t => ?_, ?_, h.blocked, h.locks⟩
  · simp only [Pool.spawn, Pool.task?]
    rcases Nat.lt_trichotomy t p.tasks.length with ht | rfl | ht
    · rw [List.getElem?_append_left ht, List.getElem?_append_left (h.length ▸ ht)]
      exact h.task t
    · rw [List.getElem?_concat_length, h.length, List.getElem?_concat_length]
      exact .some hnew
    · rw [List.getElem?_eq_none (by simp; omega), List.getElem?_eq_none (by simp [← h.length]; omega)]
      exact .none
  · simp [Pool.spawn, h.ready, h.length]

/-! ## Turns -/

/-- A wait is over at once in both pools or in neither. -/
theorem atOnce_cases (h : Noting p q) (w : Wait) :
    (p.atOnce? w = none ∧ q.atOnce? w = none) ∨
      ∃ o p' q', p.atOnce? w = some (o, p') ∧ q.atOnce? w = some (o, q') ∧ Noting p' q' := by
  unfold Pool.atOnce?
  cases w with
  | turn => exact Or.inl ⟨rfl, rfl⟩
  | signal s => exact Or.inl ⟨rfl, rfl⟩
  | task t =>
    dsimp only
    rw [h.outcome?_eq t]
    cases q.outcome? t with
    | none => exact Or.inl ⟨rfl, rfl⟩
    | some o => exact Or.inr ⟨o, p, q, rfl, rfl, h⟩
  | lock l =>
    dsimp only
    rw [h.locks]
    split
    · exact Or.inr ⟨_, _, _, rfl, rfl, h.setLock l _⟩
    · exact Or.inl ⟨rfl, rfl⟩

/-- A program that makes notes stops where the program without them does. -/
theorem run {a : Program (σ × List ν) α} {b : Program σ α} (hab : a.Noting b) (h : Noting p q) :
    (Pool.run a p).1.Noting (Pool.run b q).1 ∧ Noting (Pool.run a p).2 (Pool.run b q).2 := by
  induction hab generalizing p q with
  | done o => exact ⟨.ended o, h⟩
  | note e _ ih => exact ih ⟨h.state, h.length, h.task, h.ready, h.blocked, h.locks⟩
  | act hf _ ih =>
    simp only [Pool.run]
    rw [← h.state]
    exact ih p.state ⟨congrArg Prod.fst (hf p.state), h.length, h.task, h.ready, h.blocked, h.locks⟩
  | await w hk ih =>
    unfold Pool.run
    rcases h.atOnce_cases w with ⟨hp, hq⟩ | ⟨o, p', q', hp, hq, hpq⟩
    · rw [hp, hq]
      exact ⟨.waiting w hk, h⟩
    · rw [hp, hq]
      exact ih o hpq
  | release l _ ih => exact ih (h.unlock l)
  | spawn hb _ _ ih =>
    have hspawn := h.spawn hb
    unfold Pool.run
    rw [show (q.spawn _).1 = p.tasks.length from h.length.symm]
    exact ih p.tasks.length hspawn
  | cancel t _ ih => exact ih (h.cancel t)
  | hasEnded t _ ih =>
    unfold Pool.run
    rw [Pool.hasEnded, Pool.hasEnded, h.outcome?_eq]
    exact ih _ h

/-- A task may end in both pools. -/
theorem finish (h : Noting p q) (t : TaskId) (o : Outcome Unit) : Noting (p.finish t o) (q.finish t o) := by
  have hwakeAll : ∀ (ts : List TaskId) {p : Pool (σ × List ν)} {q : Pool σ}, Noting p q →
      Noting (ts.foldl (fun p u => p.wake u o) p) (ts.foldl (fun q u => q.wake u o) q) := by
    intro ts
    induction ts with
    | nil => exact fun h => h
    | cons u ts ih => exact fun h => ih (h.wake u o)
  have hended := h.setTask t (.ended o)
  have hblocked : (fun u => decide ((p.setTask t (.ended o)).blockedOn? u = some (.task t))) =
      fun u => decide ((q.setTask t (.ended o)).blockedOn? u = some (.task t)) :=
    funext fun u => by rw [hended.blockedOn?_eq]
  unfold Pool.finish
  dsimp only
  rw [hended.blocked, hblocked]
  exact hwakeAll _ hended

/-- A task may stop to wait in both pools, if it goes on alike but for notes. -/
theorem layDown (h : Noting p q) (t : TaskId) (on : Wait) {k : Outcome Unit → Program (σ × List ν) Unit}
    {l : Outcome Unit → Program σ Unit} (hk : ∀ o, (k o).Noting (l o)) : Noting (p.layDown t on k) (q.layDown t on l) := by
  cases on with
  | turn =>
    have hset := h.setTask t (.waiting .turn (some (.value ())) hk)
    exact ⟨hset.state, hset.length, hset.task, congrArg (· ++ [t]) h.ready, h.blocked, h.locks⟩
  | task u =>
    have hset := h.setTask t (.waiting (.task u) none hk)
    exact ⟨hset.state, hset.length, hset.task, h.ready, congrArg (· ++ [t]) h.blocked, h.locks⟩
  | signal s =>
    have hset := h.setTask t (.waiting (.signal s) none hk)
    exact ⟨hset.state, hset.length, hset.task, h.ready, congrArg (· ++ [t]) h.blocked, h.locks⟩
  | lock i =>
    unfold Pool.layDown
    dsimp only
    rw [h.locks]
    have hset := (h.setLock i { q.locks i with line := (q.locks i).line ++ [(t, .waiting)] }).setTask t
      (.waiting (.lock i) none hk)
    exact ⟨hset.state, hset.length, hset.task, h.ready, congrArg (· ++ [t]) h.blocked, hset.locks⟩

theorem beginTurn (h : Noting p q) (t : TaskId) (on : Wait) (o : Outcome Unit) :
    Noting (p.beginTurn t on o) (q.beginTurn t on o) := by
  have hready : Noting ({ p with ready := p.ready.erase t } : Pool (σ × List ν)) { q with ready := q.ready.erase t } :=
    ⟨h.state, h.length, h.task, congrArg (List.erase · t) h.ready, h.blocked, h.locks⟩
  have hrun := hready.setTask t .running
  cases on with
  | lock l => exact hrun.leaveLine t l o
  | turn => exact hrun
  | task u => exact hrun
  | signal s => exact hrun

theorem endTurn (h : Noting p q) (t : TaskId) {a : Stop (σ × List ν) Unit} {b : Stop σ Unit} (hab : a.Noting b) :
    Noting (p.endTurn t a) (q.endTurn t b) := by
  cases hab with
  | ended o => exact h.finish t o
  | waiting on hk => exact h.layDown t on hk

/-- A turn does the same with notes and without. -/
theorem resume (h : Noting p q) (t : TaskId) : Noting (p.resume t) (q.resume t) := by
  rcases h.task_cases t with ⟨hp, hq⟩ | ⟨x, y, hp, hq, hs⟩
  · unfold Pool.resume
    rw [hp, hq]
    exact h
  · cases hs with
    | waiting on wake hk =>
      cases wake with
      | some o =>
        obtain ⟨hstop, hrun⟩ := (h.beginTurn t on o).run (hk o)
        rw [resume_eq hp, resume_eq hq]
        exact hrun.endTurn t hstop
      | none =>
        unfold Pool.resume
        rw [hp, hq]
        exact h
    | running =>
      unfold Pool.resume
      rw [hp, hq]
      exact h
    | ended o =>
      unfold Pool.resume
      rw [hp, hq]
      exact h

/-- Pools that are the same but for notes stay so under every move. -/
theorem step (h : Noting p q) {m : Move (σ × List ν)} {n : Move σ} (hm : m.Noting n) : Noting (p.step m) (q.step n) := by
  cases hm with
  | turn t => exact h.resume t
  | arrival t => exact h.arrive t
  | cancel t => exact h.cancel t
  | start hb => exact h.spawn hb
  | change hf => exact ⟨(hf p.state).trans (congrArg _ h.state), h.length, h.task, h.ready, h.blocked, h.locks⟩

end Noting

/-! ## Runs without notes -/

variable {τ : Type} {piece : ∀ α : Type, Program σ α → Prop} {piece' : ∀ α : Type, Program (σ × List ν) α → Prop}

/-- Where each piece is another one, of the kinds that make notes, but for the notes, so is what is put together from pieces. -/
theorem built_noting (hpiece : ∀ α q, piece α q → ∃ p, piece' α p ∧ p.Noting q) {α : Type} {q : Program σ α}
    (hq : q.Built piece) : ∃ p : Program (σ × List ν) α, p.Built piece' ∧ p.Noting q := by
  induction hq with
  | piece hq =>
    obtain ⟨p, hp, hpq⟩ := hpiece _ _ hq
    exact ⟨p, .piece hp, hpq⟩
  | start _ _ hbody hnext =>
    obtain ⟨b, hb, hbq⟩ := hbody
    choose k hk hkq using hnext
    exact ⟨.spawn b k, .start hb hk, .spawn hbq hkq⟩
  | andThen _ _ hp hnext =>
    obtain ⟨p, hp, hpq⟩ := hp
    choose k hk hkq using hnext
    exact ⟨p.andThen k, .andThen hp hk, hpq.andThen hkq⟩

/-- A move of programs without notes is, but for the notes, one of programs with notes. -/
theorem within_noting (hpiece : ∀ α q, piece α q → ∃ p, piece' α p ∧ p.Noting q) {part : σ → τ} {n : Move σ}
    (hn : n.Within piece part) : ∃ m : Move (σ × List ν), m.Within piece' (fun s => (part s.1, s.2)) ∧ m.Noting n := by
  cases n with
  | turn t => exact ⟨.turn t, trivial, .turn t⟩
  | arrival t => exact ⟨.arrival t, trivial, .arrival t⟩
  | cancel t => exact ⟨.cancel t, trivial, .cancel t⟩
  | start body =>
    obtain ⟨b, hb, hbn⟩ := built_noting hpiece hn
    exact ⟨.start b, hb, .start hbn⟩
  | change f => exact ⟨.change fun s => (f s.1, s.2), fun s => congrArg (·, s.2) (hn s.1), .change fun _ => rfl⟩

/-- Every run without notes is a run with notes, but for the notes. -/
theorem Reached.noting (hpiece : ∀ α q, piece α q → ∃ p, piece' α p ∧ p.Noting q) {part : σ → τ} {start : σ → Prop} {q : Pool σ}
    (hq : Reached start (Move.Within piece part) q) :
    ∃ p : Pool (σ × List ν),
      Reached (fun s => start s.1 ∧ s.2 = []) (Move.Within piece' fun s => (part s.1, s.2)) p ∧ Noting p q := by
  induction hq with
  | @start s hs => exact ⟨{ state := (s, []) }, .start ⟨hs, rfl⟩, rfl, rfl, fun _ => .none, rfl, rfl, rfl⟩
  | step _ hn ih =>
    obtain ⟨p, hp, h⟩ := ih
    obtain ⟨m, hm, hmn⟩ := within_noting hpiece hn
    exact ⟨p.step m, hp.step hm, h.step hmn⟩

/-- And there is a record of who makes which note in it. -/
theorem Reached.exists_recorded_noting (hpiece : ∀ α q, piece α q → ∃ p, piece' α p ∧ p.Noting q) {part : σ → τ} {start : σ → Prop}
    {q : Pool σ} (hq : Reached start (Move.Within piece part) q) :
    ∃ (p : Pool (σ × List ν)) (record : Record ν),
      Recorded (fun s => start s.1 ∧ s.2 = []) (Move.Within piece' fun s => (part s.1, s.2)) p record ∧ Noting p q := by
  obtain ⟨p, hp, hnoting⟩ := hq.noting hpiece
  obtain ⟨record, hrecord⟩ := hp.exists_recorded
  exact ⟨p, record, hrecord, hnoting⟩

end Pool

end SignedCall
