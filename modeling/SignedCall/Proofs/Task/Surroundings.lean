import SignedCall.Proofs.Task.Play

/-!
# Runs without interruption

`runIn` runs a program to its end in surroundings where no wait is broken off: every lock is granted, every sleep and every turn is
over some time. What the others have done to the state meanwhile is theirs to say. Runs of composed programs are composed of runs, so one
may calculate with them; `Delivers` says to what outcome a program comes from all states of a kind, and is proved along the program.
Main statements: `runIn_andThen`, `runIn_play` (such a run is one of those that a program may meet), `Keeps.runIn` and
`Delivers.bind`.
-/

namespace SignedCall

/-- What goes on around a program: what the others have made of the state when a wait is over, which task is made, and which tasks
have ended. -/
structure Surroundings (σ : Type) where
  during : Wait → σ → σ := fun _ s => s
  made : σ → TaskId := fun _ => 0
  ended : TaskId → σ → Bool := fun _ _ => true

/-- Surroundings in which nobody else does anything. -/
def Surroundings.quiet {σ : Type} : Surroundings σ := {}

/-- The outcome of a computation without waits. -/
def Outcome.of {α : Type} : Except Failure α → Outcome α
  | .ok a => .value a
  | .error f => .failed f

namespace Outcome

variable {α : Type} {e e' : Except Failure α}

/-- A computation without waits has a value if it comes out well. -/
theorem of_eq_value {a : α} (h : of e = .value a) : e = .ok a := by
  cases e <;> cases h
  rfl

/-- A computation without waits fails as it says. -/
theorem of_eq_failed {f : Failure} (h : of e = .failed f) : e = .error f := by
  cases e <;> cases h
  rfl

/-- A computation without waits is not cancelled. -/
theorem of_ne_cancelled : of e ≠ .cancelled := by
  cases e <;> exact nofun

theorem of_injective (h : of e = of e') : e = e' := by
  cases e' with
  | ok a => exact of_eq_value h
  | error f => exact of_eq_failed h

end Outcome

namespace Program

variable {σ τ α β : Type} {w : Surroundings σ} {s : σ}

/-- A program run to its end. -/
def runIn (w : Surroundings σ) : {α : Type} → Program σ α → σ → Outcome α × σ
  | _, .done o, s => (o, s)
  | _, .act f next, s => (next s).runIn w (f s)
  | _, .await wait next, s => (next (.value ())).runIn w (w.during wait s)
  | _, .release _ next, s => next.runIn w s
  | _, .spawn _ next, s => (next (w.made s)).runIn w s
  | _, .cancel _ next, s => next.runIn w s
  | _, .hasEnded t next, s => (next (w.ended t s)).runIn w s

/-- What comes after a program runs from where the program ended. -/
theorem runIn_andThen (p : Program σ α) (next : Outcome α → Program σ β) (s : σ) :
    (p.andThen next).runIn w s = (next (p.runIn w s).1).runIn w (p.runIn w s).2 := by
  induction p generalizing s with
  | done o => rfl
  | act f k ih => exact ih s next (f s)
  | await wait k ih => exact ih (.value ()) next (w.during wait s)
  | release l k ih => exact ih next s
  | spawn body k _ ih => exact ih (w.made s) next s
  | cancel t k ih => exact ih next s
  | hasEnded t k ih => exact ih (w.ended t s) next s

/-- So does what is bound to its value. -/
theorem runIn_bind (p : Program σ α) (next : α → Program σ β) (s : σ) :
    (p >>= next).runIn w s = (onValue next (p.runIn w s).1).runIn w (p.runIn w s).2 :=
  runIn_andThen p (onValue next) s

/-- A chain of two steps comes to a value through both of them. -/
theorem runIn_bind_value {p : Program σ α} {next : α → Program σ β} {b : β} {s' : σ}
    (h : (p >>= next).runIn w s = (.value b, s')) :
    ∃ a s₁, p.runIn w s = (.value a, s₁) ∧ (next a).runIn w s₁ = (.value b, s') := by
  rw [runIn_bind] at h
  cases hp : p.runIn w s with
  | mk o s₁ =>
    rw [hp] at h
    cases o with
    | value a => exact ⟨a, s₁, rfl, h⟩
    | failed f => cases h
    | cancelled => cases h

/-- What comes after an attempt runs from its value or from its failure. -/
theorem runIn_attempt_bind (p : Program σ α) (next : Except Failure α → Program σ β) (s : σ) :
    (p.attempt >>= next).runIn w s = match p.runIn w s with
      | (.value a, s') => (next (.ok a)).runIn w s'
      | (.failed f, s') => (next (.error f)).runIn w s'
      | (.cancelled, s') => (.cancelled, s') := by
  rw [runIn_bind, attempt, runIn_andThen]
  cases p.runIn w s with
  | mk o s' => cases o <;> rfl

/-- Work under a lock is the work, once the lock is granted. -/
theorem runIn_withLock (l : LockId) (body : Program σ α) (s : σ) :
    (withLock l body).runIn w s = body.runIn w (w.during (.lock l) s) :=
  runIn_andThen body (fun o => .release l (.done o)) (w.during (.lock l) s)

theorem runIn_ofExcept (e : Except Failure α) (s : σ) : (ofExcept e : Program σ α).runIn w s = (.of e, s) := by
  cases e <;> rfl

/-- What is done on another thread reads the state when its turn comes. -/
theorem runIn_onThread (f : σ → Except Failure α) (s : σ) :
    (onThread f).runIn w s = (.of (f (w.during .turn s)), w.during .turn s) :=
  runIn_ofExcept (f (w.during .turn s)) (w.during .turn s)

/-- Reactions all of which let a wait end as it should, with one more in front. -/
theorem before_value {first : Reaction σ} (hfirst : first.outcome = .value ()) {env : Nat → Reaction σ}
    (henv : ∀ n, (env n).outcome = .value ()) : ∀ n, (first.before env n).outcome = .value ()
  | 0 => hfirst
  | n + 1 => henv n

/-- A run is one of those that a program may meet, all of whose waits end as they should. -/
theorem runIn_play (p : Program σ α) (s : σ) :
    ∃ env : Nat → Reaction σ, (∀ n, (env n).outcome = .value ()) ∧ p.play env s = p.runIn w s := by
  induction p generalizing s with
  | done o => exact ⟨fun _ => {}, fun _ => rfl, rfl⟩
  | act f k ih => exact ih s (f s)
  | await wait k ih =>
    obtain ⟨env, hvalue, henv⟩ := ih (.value ()) (w.during wait s)
    exact ⟨Reaction.before { change := fun _ => w.during wait s } env, before_value rfl hvalue, henv⟩
  | release l k ih => exact ih s
  | spawn body k _ ih =>
    obtain ⟨env, hvalue, henv⟩ := ih (w.made s) s
    exact ⟨Reaction.before { task := w.made s } env, before_value rfl hvalue, henv⟩
  | cancel t k ih => exact ih s
  | hasEnded t k ih =>
    obtain ⟨env, hvalue, henv⟩ := ih (w.ended t s) s
    exact ⟨Reaction.before { ended := w.ended t s } env, before_value rfl hvalue, henv⟩

/-- What a program leaves alone is left if the others leave it alone, too. -/
theorem Keeps.runIn {part : σ → τ} {p : Program σ α} (hp : p.Keeps part) (hw : ∀ wait s, part (w.during wait s) = part s)
    (s : σ) : part (p.runIn w s).2 = part s := by
  induction p generalizing s with
  | done o => rfl
  | act f k ih => exact (ih s (hp.2 s) (f s)).trans (hp.1 s)
  | await wait k ih => exact (ih (.value ()) (hp _) _).trans (hw wait s)
  | release l k ih => exact ih hp s
  | spawn body k _ ih => exact ih _ (hp.2 _) s
  | cancel t k ih => exact ih hp s
  | hasEnded t k ih => exact ih _ (hp _) s

end Program

/-! ## What a run delivers -/

/-- An outcome whose value is good, or which is a failure of some kind. A cancellation is neither. -/
def Outcome.Meets {α : Type} (good : α → Prop) (fails : Failure → Prop) : Outcome α → Prop
  | .value a => good a
  | .failed f => fails f
  | .cancelled => False

/-- What holds of an outcome may be weakened. -/
theorem Outcome.Meets.mono {α : Type} {good good' : α → Prop} {fails fails' : Failure → Prop} {o : Outcome α}
    (h : o.Meets good fails) (hgood : ∀ a, good a → good' a) (hfails : ∀ f, fails f → fails' f) : o.Meets good' fails' := by
  cases o with
  | value a => exact hgood a h
  | failed f => exact hfails f h
  | cancelled => exact h

namespace Program

variable {σ α β : Type} {w : Surroundings σ} {I : σ → Prop} {good : α → Prop} {good' : β → Prop} {fails fails' : Failure → Prop}

/-- From every state of a kind a program comes to an end in such a state, with a good value or a failure of some kind. -/
def Delivers (w : Surroundings σ) (I : σ → Prop) (p : Program σ α) (good : α → Prop) (fails : Failure → Prop) : Prop :=
  ∀ s, I s → (p.runIn w s).1.Meets good fails ∧ I (p.runIn w s).2

/-- What a program delivers may be weakened. -/
theorem Delivers.mono {good₁ : α → Prop} {p : Program σ α} (h : p.Delivers w I good fails) (hgood : ∀ a, good a → good₁ a)
    (hfails : ∀ f, fails f → fails' f) : p.Delivers w I good₁ fails' :=
  fun s hs => ⟨(h s hs).1.mono hgood hfails, (h s hs).2⟩

/-- What a program delivers is what the next one goes on from. -/
theorem Delivers.andThen {p : Program σ α} {next : Outcome α → Program σ β} (hp : p.Delivers w I good fails)
    (hnext : ∀ o, o.Meets good fails → (next o).Delivers w I good' fails') : (p.andThen next).Delivers w I good' fails' := by
  intro s hs
  rw [runIn_andThen]
  exact hnext _ (hp s hs).1 _ (hp s hs).2

theorem delivers_value {a : α} (h : good a) : (.done (.value a) : Program σ α).Delivers w I good fails := fun _ hs => ⟨h, hs⟩

theorem delivers_failed {f : Failure} (h : fails f) : (.done (.failed f) : Program σ α).Delivers w I good fails :=
  fun _ hs => ⟨h, hs⟩

/-- A chain of two steps fails as its steps do. -/
theorem Delivers.bind {p : Program σ α} {next : α → Program σ β} (hp : p.Delivers w I good fails)
    (hnext : ∀ a, good a → (next a).Delivers w I good' fails) : (p >>= next).Delivers w I good' fails := by
  refine hp.andThen fun o ho => ?_
  cases o with
  | value a => exact hnext a ho
  | failed f => exact delivers_failed ho
  | cancelled => exact ho.elim

/-- An attempt comes to a value, which tells of a failure. -/
theorem Delivers.attempt {p : Program σ α} (hp : p.Delivers w I good fails) :
    p.attempt.Delivers w I (fun | .ok a => good a | .error f => fails f) fails' := by
  refine hp.andThen fun o ho => ?_
  cases o with
  | value a => exact delivers_value ho
  | failed f => exact delivers_value ho
  | cancelled => exact ho.elim

/-- A computation without waits delivers what it comes to. -/
theorem delivers_ofExcept {e : Except Failure α} (h : (Outcome.of e).Meets good fails) :
    (ofExcept e : Program σ α).Delivers w I good fails := by
  cases e with
  | ok a => exact delivers_value h
  | error f => exact delivers_failed h

/-- What is read comes from a state of the kind. -/
theorem delivers_read (f : σ → α) : (read f).Delivers w I (fun a => ∃ s, I s ∧ f s = a) fails :=
  fun s hs => ⟨⟨s, hs, rfl⟩, hs⟩

theorem delivers_change {f : σ → σ} (h : ∀ s, I s → I (f s)) : (change f).Delivers w I (fun _ => True) fails :=
  fun s hs => ⟨trivial, h s hs⟩

/-- A wait is over some time, in a state of the same kind. -/
theorem delivers_wait (hothers : ∀ wait s, I s → I (w.during wait s)) (wait : Wait) :
    (Program.wait wait).Delivers w I (fun _ => True) fails :=
  fun s hs => ⟨trivial, hothers wait s hs⟩

/-- What is done on another thread delivers what it comes to in every state of the kind. -/
theorem delivers_onThread (hothers : ∀ wait s, I s → I (w.during wait s)) {f : σ → Except Failure α}
    (h : ∀ s, I s → (Outcome.of (f s)).Meets good fails) : (onThread f).Delivers w I good fails := by
  refine (delivers_wait hothers .turn).bind fun _ _ => (delivers_read f).bind fun e he => ?_
  obtain ⟨s, hs, rfl⟩ := he
  exact delivers_ofExcept (h s hs)

/-- Under a lock a program delivers what it delivers without. -/
theorem delivers_withLock (hothers : ∀ wait s, I s → I (w.during wait s)) {l : LockId} {body : Program σ α}
    (h : body.Delivers w I good fails) : (withLock l body).Delivers w I good fails := by
  intro s hs
  rw [runIn_withLock]
  exact h _ (hothers (.lock l) s hs)

end Program

end SignedCall
