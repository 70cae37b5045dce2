import SignedCall.Proofs.Task.Frame
import SignedCall.Proofs.Task.Lines

/-!
# Turn by turn

A `Conduct` says what every turn of a task does, from the state at its beginning to the state at its end, whatever the others
have done since the turn before. `Turns` says of a program, somewhere in a turn, that this turn and all later ones are of that kind;
it is computed along the program, and programs are put together by `Turns.andThen`. A task whose program conducts itself does so
in every run (`Conducts.step`, `Conducts.resume`).
-/

namespace SignedCall

/-- What every turn of a task does, what the others may do between its turns, and what tasks it may make. -/
structure Conduct (σ : Type) where
  turn : σ → σ → Prop
  others : σ → σ → Prop := fun _ _ => True
  child : Program σ Unit → Prop := fun _ => True

/-- The conduct of a task that may do anything. -/
def Conduct.any (σ : Type) : Conduct σ where
  turn _ _ := True

namespace Program

variable {σ τ α β : Type} {c : Conduct σ}

/-- A program that conducts itself. Its present turn began in state `s₀` and has come to state `s`; where it ends, `post` holds of
the outcome and of the last turn. -/
def Turns (c : Conduct σ) : {α : Type} → Program σ α → (Outcome α → σ → σ → Prop) → σ → σ → Prop
  | _, .done o, post, s₀, s => post o s₀ s
  | _, .act f next, post, s₀, s => (next s).Turns c post s₀ (f s)
  | _, .await _ next, post, s₀, s =>
    c.turn s₀ s ∧ (∀ o s', c.others s s' → (next o).Turns c post s' s') ∧ ∀ o, (next o).Turns c post s₀ s
  | _, .release _ next, post, s₀, s => next.Turns c post s₀ s
  | _, .spawn body next, post, s₀, s => c.child body ∧ ∀ t, (next t).Turns c post s₀ s
  | _, .cancel _ next, post, s₀, s => next.Turns c post s₀ s
  | _, .hasEnded _ next, post, s₀, s => ∀ b, (next b).Turns c post s₀ s

/-- A program followed by another conducts itself if both do, the second from wherever the turn has come to. -/
theorem Turns.andThen {p : Program σ α} {next : Outcome α → Program σ β} {mid : Outcome α → σ → σ → Prop}
    {post : Outcome β → σ → σ → Prop} {s₀ s : σ} (hp : p.Turns c mid s₀ s)
    (hn : ∀ o s₀ s, mid o s₀ s → (next o).Turns c post s₀ s) : (p.andThen next).Turns c post s₀ s := by
  induction p generalizing s₀ s with
  | done o => exact hn o s₀ s hp
  | act f k ih => exact ih s hp hn
  | await w k ih => exact ⟨hp.1, fun o s' hs' => ih o (hp.2.1 o s' hs') hn, fun o => ih o (hp.2.2 o) hn⟩
  | release l k ih => exact ih hp hn
  | spawn body k _ ih => exact ⟨hp.1, fun t => ih t (hp.2 t) hn⟩
  | cancel t k ih => exact ih hp hn
  | hasEnded t k ih => exact fun b => ih b (hp b) hn

/-- What holds of the last turn may be weakened. -/
theorem Turns.mono {p : Program σ α} {post post' : Outcome α → σ → σ → Prop} {s₀ s : σ} (hp : p.Turns c post s₀ s)
    (hpost : ∀ o s₀ s, post o s₀ s → post' o s₀ s) : p.Turns c post' s₀ s := by
  rw [← p.andThen_done]
  exact hp.andThen hpost

/-- A program that leaves alone what its conduct looks at. `K` holds of the state at the beginning of a turn and of what is looked
at, at the beginning of every turn and therefore all along. -/
theorem Turns.of_keeps {view : σ → τ} {K : σ → τ → Prop} {p : Program σ α} (hp : p.Keeps view)
    (hfresh : ∀ s₀ s s', K s₀ (view s) → c.others s s' → K s' (view s')) (hturn : ∀ s₀ s, K s₀ (view s) → c.turn s₀ s)
    (hchild : ∀ body : Program σ Unit, body.Keeps view → c.child body) {post : Outcome α → σ → σ → Prop}
    (hpost : ∀ o s₀ s, K s₀ (view s) → post o s₀ s) {s₀ s : σ} (h : K s₀ (view s)) : p.Turns c post s₀ s := by
  induction p generalizing s₀ s with
  | done o => exact hpost o s₀ s h
  | act f k ih => exact ih s (hp.2 s) hpost ((hp.1 s).symm ▸ h)
  | await w k ih =>
    exact ⟨hturn s₀ s h, fun o s' hs' => ih o (hp o) hpost (hfresh s₀ s s' h hs'), fun o => ih o (hp o) hpost h⟩
  | release l k ih => exact ih hp hpost h
  | spawn body k _ ih => exact ⟨hchild body hp.1, fun t => ih t (hp.2 t) hpost h⟩
  | cancel t k ih => exact ih hp hpost h
  | hasEnded t k ih => exact fun b => ih b (hp b) hpost h

theorem turns_read {f : σ → α} {next : α → Program σ β} {post : Outcome β → σ → σ → Prop} {s₀ s : σ}
    (h : (next (f s)).Turns c post s₀ s) : (Program.read f >>= next).Turns c post s₀ s := h

/-- Work under a lock, which goes on in the present turn or begins in a later one. -/
theorem Turns.withLock {l : LockId} {body : Program σ α} {post : Outcome α → σ → σ → Prop} (hrefl : ∀ s, c.turn s s)
    (hbody : ∀ s₀ s, c.turn s₀ s → body.Turns c post s₀ s)
    (hfail : ∀ o s₀ s, (∀ a, o ≠ .value a) → c.turn s₀ s → post o s₀ s) {s₀ s : σ} (h : c.turn s₀ s) :
    (Program.withLock l body).Turns c post s₀ s := by
  have hlocked : ∀ (o : Outcome Unit) (s₀ s : σ), c.turn s₀ s →
      (onValue (fun _ => body.andThen fun o => .release l (.done o)) o).Turns c post s₀ s := by
    intro o s₀ s h
    cases o with
    | value u => exact (hbody s₀ s h).andThen fun _ _ _ ho => ho
    | failed f => exact hfail _ s₀ s nofun h
    | cancelled => exact hfail _ s₀ s nofun h
  exact ⟨h, fun o s' _ => hlocked o s' s' (hrefl s'), fun o => hlocked o s₀ s h⟩

/-- A task that conducts itself ends with a turn of the same kind. -/
def LastTurn (c : Conduct σ) (_ : Outcome α) (s₀ s : σ) : Prop := c.turn s₀ s

/-- Every program keeps to the conduct that allows anything. -/
theorem turns_any (p : Program σ α) (s₀ s : σ) : p.Turns (Conduct.any σ) (LastTurn (Conduct.any σ)) s₀ s := by
  induction p generalizing s₀ s with
  | done o => exact trivial
  | act f k ih => exact ih s s₀ (f s)
  | await w k ih => exact ⟨trivial, fun o s' _ => ih o s' s', fun o => ih o s₀ s⟩
  | release l k ih => exact ih s₀ s
  | spawn body k _ ih => exact ⟨trivial, fun t => ih t s₀ s⟩
  | cancel t k ih => exact ih s₀ s
  | hasEnded t k ih => exact fun b => ih b s₀ s

end Program

namespace Pool

variable {σ α : Type} {c : Conduct σ}

/-- A task of a pool that conducts itself from its next turn on. -/
def Conducts (c : Conduct σ) (p : Pool σ) (t : TaskId) : Prop :=
  ∀ on wake next, p.task? t = some (.waiting on wake next) → ∀ o s, (next o).Turns c (Program.LastTurn c) s s

/-- A program that conducts itself, run up to its next stop. -/
theorem run_turns (hothers : ∀ s s', c.others s s') (q : Program σ α) {post : Outcome α → σ → σ → Prop} {p : Pool σ} {s₀ : σ}
    (hq : q.Turns c post s₀ p.state) :
    match (run q p).1 with
    | .ended o => post o s₀ (run q p).2.state
    | .waiting _ next => c.turn s₀ (run q p).2.state ∧ ∀ o s, (next o).Turns c post s s := by
  induction q generalizing p with
  | done o => exact hq
  | act f next ih => exact ih p.state hq
  | await w next ih =>
    cases hw : p.atOnce? w with
    | some r =>
      simp only [Pool.run, hw]
      refine ih r.1 ?_
      rw [(atOnce?_eq hw).1]
      exact hq.2.2 r.1
    | none =>
      simp only [Pool.run, hw]
      exact ⟨hq.1, fun o s => hq.2.1 o s (hothers _ _)⟩
  | release l next ih =>
    refine ih ?_
    rw [(unlock_alike p l).state]
    exact hq
  | spawn body next _ ih => exact ih _ (p := (p.spawn body).2) (hq.2 _)
  | cancel u next ih =>
    refine ih ?_
    rw [(cancel_alike p u).state]
    exact hq
  | hasEnded u next ih => exact ih _ (hq _)

/-! ## Tasks that wait -/

theorem beginTurn_length (p : Pool σ) (t : TaskId) (on : Wait) (o : Outcome Unit) :
    (p.beginTurn t on o).tasks.length = p.tasks.length := by
  simpa [setTask] using congrArg List.length (beginTurn_unwoken p t on o).2

theorem endTurn_length (p : Pool σ) (t : TaskId) (stop : Stop σ Unit) : (p.endTurn t stop).tasks.length = p.tasks.length := by
  cases stop with
  | ended o => exact (wakeAll_alike _ o _).length.trans List.length_set
  | waiting on next => cases on <;> exact List.length_set

/-- Tasks stay while a program runs. -/
theorem length_le_run (q : Program σ α) (p : Pool σ) : p.tasks.length ≤ (run q p).2.tasks.length := by
  induction q generalizing p with
  | done o => exact Nat.le_refl _
  | act f k ih => exact ih p.state { p with state := f p.state }
  | await w k ih =>
    unfold Pool.run
    split
    · next o p' hp' => exact (atOnce?_eq hp').2 ▸ ih o p'
    · exact Nat.le_refl _
  | release l k ih => exact (unlock_alike p l).length ▸ ih (p.unlock l)
  | spawn body k _ ih =>
    have hmade : (p.spawn body).2.tasks.length = p.tasks.length + 1 := by simp [spawn]
    exact Nat.le_trans (by omega) (ih _ (p.spawn body).2)
  | cancel u k ih => exact (cancel_alike p u).length ▸ ih (p.cancel u)
  | hasEnded u k ih => exact ih _ p

/-- Tasks stay after every move. -/
theorem length_le_step (p : Pool σ) (m : Move σ) : p.tasks.length ≤ (p.step m).tasks.length := by
  cases m with
  | arrival u => exact Nat.le_of_eq (arrive_alike p u).length.symm
  | cancel u => exact Nat.le_of_eq (cancel_alike p u).length.symm
  | change f => exact Nat.le_refl _
  | start body => simp [step, spawn]
  | turn t =>
    rcases resume_cases p t with ⟨on, o, next, -, hresume⟩ | hresume
    · rw [step, hresume, endTurn_length, ← beginTurn_length p t on o]
      exact length_le_run _ _
    · exact Nat.le_of_eq (congrArg (·.tasks.length) hresume).symm

/-- The tasks that wait after a program ran waited before, or are new and of the kind that it may make. -/
theorem run_waiting (q : Program σ α) {post : Outcome α → σ → σ → Prop} {p : Pool σ} {s₀ : σ} (hq : q.Turns c post s₀ p.state)
    {u : TaskId} {on : Wait} {wake : Option (Outcome Unit)} {next : Outcome Unit → Program σ Unit}
    (hw : (run q p).2.task? u = some (.waiting on wake next)) :
    (∃ wake', p.task? u = some (.waiting on wake' next)) ∨
      (p.tasks.length ≤ u ∧ ∃ body, c.child body ∧ next = Program.onValue fun _ => body) := by
  induction q generalizing p with
  | done o => exact Or.inl ⟨wake, hw⟩
  | act f k ih => exact ih p.state (p := { p with state := f p.state }) hq hw
  | await w k ih =>
    unfold Pool.run at hw
    split at hw
    · next o p' hp' =>
      rcases ih o (by rw [(atOnce?_eq hp').1]; exact hq.2.2 o) hw with h | h
      · rw [atOnce?_task? hp'] at h
        exact Or.inl h
      · rw [(atOnce?_eq hp').2] at h
        exact Or.inr h
    · exact Or.inl ⟨wake, hw⟩
  | release l k ih =>
    have ha := unlock_alike p l
    rcases ih (by rw [ha.state]; exact hq) hw with ⟨wake', h⟩ | h
    · exact Or.inl (ha.waiting h)
    · rw [ha.length] at h
      exact Or.inr h
  | spawn body k _ ih =>
    rcases ih _ (p := (p.spawn body).2) (hq.2 _) hw with ⟨wake', h⟩ | h
    · rcases spawn_task?_cases h with h | ⟨rfl, -, rfl⟩
      · exact Or.inl ⟨wake', h⟩
      · exact Or.inr ⟨Nat.le_refl _, body, hq.1, rfl⟩
    · refine Or.inr ⟨Nat.le_trans ?_ h.1, h.2⟩
      simp [spawn]
  | cancel v k ih =>
    have ha := cancel_alike p v
    rcases ih (by rw [ha.state]; exact hq) hw with ⟨wake', h⟩ | h
    · exact Or.inl (ha.waiting h)
    · rw [ha.length] at h
      exact Or.inr h
  | hasEnded v k ih => exact ih _ (hq _) hw

/-- The tasks that wait after a turn: those that waited before, the one whose turn it was, and new ones. -/
theorem resume_waiting (hothers : ∀ s s', c.others s s') {p : Pool σ} {t : TaskId} (ht : Conducts c p t) {u : TaskId}
    {on : Wait} {wake : Option (Outcome Unit)} {next : Outcome Unit → Program σ Unit}
    (hu : (p.resume t).task? u = some (.waiting on wake next)) :
    (u ≠ t ∧ ∃ wake', p.task? u = some (.waiting on wake' next)) ∨
      (u = t ∧ ∀ o s, (next o).Turns c (Program.LastTurn c) s s) ∨
      (p.tasks.length ≤ u ∧ ∃ body, c.child body ∧ next = Program.onValue fun _ => body) := by
  rcases resume_cases p t with ⟨on₀, o₀, next₀, ht₀, hresume⟩ | hresume
  · obtain ⟨hstate, htasks⟩ := beginTurn_unwoken p t on₀ o₀
    have hq : (next₀ o₀).Turns c (Program.LastTurn c) p.state (p.beginTurn t on₀ o₀).state :=
      hstate ▸ ht on₀ (some o₀) next₀ ht₀ o₀ p.state
    have hstop := run_turns hothers (next₀ o₀) hq
    rw [hresume] at hu
    rcases endTurn_waiting hu with ⟨rfl, hnext⟩ | ⟨hut, wake', hrun⟩
    · rw [hnext] at hstop
      exact Or.inr (Or.inl ⟨rfl, hstop.2⟩)
    · rcases run_waiting (next₀ o₀) hq hrun with ⟨wake'', hbegin⟩ | hnew
      · obtain ⟨wake₃, hset⟩ := waiting_of_unwoken htasks hbegin
        rw [task?_setTask_of_ne (Ne.symm hut)] at hset
        exact Or.inl ⟨hut, wake₃, hset⟩
      · refine Or.inr (Or.inr ?_)
        rwa [beginTurn_length] at hnew
  · rw [hresume] at hu
    by_cases hut : u = t
    · subst hut
      exact Or.inr (Or.inl ⟨rfl, ht on wake next hu⟩)
    · exact Or.inl ⟨hut, wake, hu⟩

/-- A turn of a task that conducts itself is of the kind that its conduct says, or the task is not ready. -/
theorem Conducts.resume (hothers : ∀ s s', c.others s s') {p : Pool σ} {t : TaskId} (ht : Conducts c p t) :
    c.turn p.state (p.resume t).state ∨ p.resume t = p := by
  rcases resume_cases p t with ⟨on, o, next, ht₀, hresume⟩ | hresume
  · have hq : (next o).Turns c (Program.LastTurn c) p.state (p.beginTurn t on o).state :=
      (beginTurn_unwoken p t on o).1 ▸ ht on (some o) next ht₀ o p.state
    have hstop := run_turns hothers (next o) hq
    rw [hresume, endTurn_state]
    cases hs : (run (next o) (p.beginTurn t on o)).1 with
    | ended o' =>
      rw [hs] at hstop
      exact Or.inl hstop
    | waiting on' next' =>
      rw [hs] at hstop
      exact Or.inl hstop.1
  · exact Or.inr hresume

/-! ## Moves -/

/-- A task that is made conducts itself if its program does. -/
theorem turns_onValue {body : Program σ Unit} (hbody : ∀ s, body.Turns c (Program.LastTurn c) s s) (hrefl : ∀ s, c.turn s s)
    (o : Outcome Unit) (s : σ) : (Program.onValue (fun _ => body) o).Turns c (Program.LastTurn c) s s := by
  cases o with
  | value u => exact hbody s
  | failed f => exact hrefl s
  | cancelled => exact hrefl s

/-- A task conducts itself in every pool that differs in no more than who has been woken. -/
theorem Conducts.alike {p q : Pool σ} {t : TaskId} (h : Conducts c p t) (ha : Alike p q) : Conducts c q t := by
  intro on wake next hw
  obtain ⟨wake', hw'⟩ := ha.waiting hw
  exact h on wake' next hw'

/-- A task that is there conducts itself on after every move, whatever the other tasks do. -/
theorem Conducts.step (hothers : ∀ s s', c.others s s') {p : Pool σ} {t : TaskId} (ht : t < p.tasks.length)
    (h : Conducts c p t) (m : Move σ) : Conducts c (p.step m) t := by
  cases m with
  | arrival u => exact h.alike (arrive_alike p u)
  | cancel u => exact h.alike (cancel_alike p u)
  | change f => exact h
  | start body =>
    intro on wake next hw
    rcases spawn_task?_cases hw with hw | ⟨rfl, -⟩
    · exact h on wake next hw
    · exact absurd ht (Nat.lt_irrefl _)
  | turn u =>
    intro on wake next hw
    by_cases hut : u = t
    · subst hut
      rcases resume_waiting hothers h hw with ⟨hne, -⟩ | ⟨-, hnext⟩ | ⟨hlen, -⟩
      · exact absurd rfl hne
      · exact hnext
      · exact absurd ht (Nat.not_lt.2 hlen)
    · have hany : Conducts (Conduct.any σ) p u := fun on wake next _ o s => Program.turns_any _ _ _
      rcases resume_waiting (fun _ _ => trivial) hany hw with ⟨-, wake', hw'⟩ | ⟨hne, -⟩ | ⟨hlen, -⟩
      · exact h on wake' next hw'
      · exact absurd hne.symm hut
      · exact absurd ht (Nat.not_lt.2 hlen)

/-- A task that is made and that conducts itself does so at every later point of the run, whatever the other tasks do. -/
theorem conducts_steps (hothers : ∀ s s', c.others s s') (hrefl : ∀ s, c.turn s s) (p : Pool σ) {body : Program σ Unit}
    (hbody : ∀ s, body.Turns c (Program.LastTurn c) s s) (ms : List (Move σ)) :
    Conducts c ((p.step (.start body)).steps ms) p.tasks.length := by
  have hmade : ∀ (q : Pool σ) (ms : List (Move σ)), p.tasks.length < q.tasks.length → Conducts c q p.tasks.length →
      Conducts c (q.steps ms) p.tasks.length := by
    intro q ms
    induction ms generalizing q with
    | nil => exact fun _ hq => hq
    | cons m ms ih => exact fun hlen hq => ih _ (Nat.lt_of_lt_of_le hlen (length_le_step q m)) (hq.step hothers hlen m)
  refine hmade _ ms (by simp [step, spawn]) fun on wake next hw => ?_
  rcases spawn_task?_cases hw with hw | ⟨-, -, rfl⟩
  · exact absurd (List.getElem?_eq_some_iff.1 hw).1 (Nat.lt_irrefl _)
  · exact turns_onValue hbody hrefl

/-- Where all tasks conduct themselves, and so do those that are made, they do so on after every move. -/
theorem conducts_step (hothers : ∀ s s', c.others s s') (hrefl : ∀ s, c.turn s s)
    (hchild : ∀ body, c.child body → ∀ s, body.Turns c (Program.LastTurn c) s s) {p : Pool σ} (h : ∀ t, Conducts c p t)
    {m : Move σ} (hm : ∀ body, m = .start body → c.child body) (t : TaskId) : Conducts c (p.step m) t := by
  cases m with
  | arrival u => exact (h t).alike (arrive_alike p u)
  | cancel u => exact (h t).alike (cancel_alike p u)
  | change f => exact h t
  | start body =>
    intro on wake next hw
    rcases spawn_task?_cases hw with hw | ⟨-, -, rfl⟩
    · exact h t on wake next hw
    · exact turns_onValue (hchild body (hm body rfl)) hrefl
  | turn u =>
    intro on wake next hw
    rcases resume_waiting hothers (h u) hw with ⟨-, wake', hw'⟩ | ⟨-, hnext⟩ | ⟨-, body, hbody, rfl⟩
    · exact h t on wake' next hw'
    · exact hnext
    · exact turns_onValue (hchild body hbody) hrefl

end Pool

end SignedCall
