import SignedCall.Proofs.Task.Journal
import SignedCall.Proofs.Task.Turns

/-!
# Whole runs of one program

`play` runs a program to its end against everything that it may meet: how each wait ends, what the others do to the state
meanwhile, which tasks are made and which have ended. It is total, so a program ends whenever its waits do. What a pool does with a
program up to its next stop is the beginning of such a run (`run_play`), and a program that conducts itself ends as it says
(`Turns.play`). `ComesTo` says what a program comes to in every run in some `Company`, and is proved along the program.
-/

namespace SignedCall

/-- An outcome that is passed on as it is, since it has no value. -/
inductive Outcome.Passes {α β : Type} : Outcome α → Outcome β → Prop
  | failed (f : Failure) : Passes (.failed f) (.failed f)
  | cancelled : Passes .cancelled .cancelled

namespace Outcome.Passes

variable {α β γ : Type} {o : Outcome α} {o' : Outcome β} {o'' : Outcome γ}

/-- An outcome that is passed on is no value. -/
theorem value_ne (h : o.Passes o') (a : α) : o ≠ .value a := by
  cases h <;> exact nofun

/-- What an outcome is passed on as is no value. -/
theorem ne_value (h : o.Passes o') (b : β) : o' ≠ .value b := by
  cases h <;> exact nofun

/-- A failure is passed on as the same failure. -/
theorem eq_failed {f : Failure} (h : (Outcome.failed f : Outcome α).Passes o') : o' = .failed f := by
  cases h
  rfl

theorem trans (h : o.Passes o') (h' : o'.Passes o'') : o.Passes o'' := by
  cases h <;> cases h' <;> constructor

end Outcome.Passes

/-- What a program meets: how its wait ends and what the others have done meanwhile, the task that was made, whether a task has
ended. -/
structure Reaction (σ : Type) where
  outcome : Outcome Unit := .value ()
  change : σ → σ := id
  task : TaskId := 0
  ended : Bool := false

/-- What comes after a first reaction. -/
def Reaction.before {σ : Type} (first : Reaction σ) (rest : Nat → Reaction σ) : Nat → Reaction σ
  | 0 => first
  | n + 1 => rest n

/-- A reaction of others who leave a journal alone. -/
def Reaction.beside {σ ν : Type} (r : Reaction σ) : Reaction (σ × List ν) where
  outcome := r.outcome
  change s := (r.change s.1, s.2)
  task := r.task
  ended := r.ended

/-- How waits end against some reactions. -/
def Reaction.ends {σ : Type} (env : Nat → Reaction σ) (o : Outcome Unit) : Prop := ∃ n, (env n).outcome = o

/-- What a program may meet: how its waits end, and what the others do to the state meanwhile. -/
structure Company (σ : Type) where
  ends : Outcome Unit → Prop
  others : σ → σ → Prop

/-- Reactions as they come in some company. -/
def Company.Gives {σ : Type} (w : Company σ) (env : Nat → Reaction σ) : Prop :=
  ∀ n, w.ends (env n).outcome ∧ ∀ s, w.others s ((env n).change s)

namespace Program

variable {σ α : Type} {c : Conduct σ}

/-- A program run to its end against some reactions. -/
def play : {α : Type} → Program σ α → (Nat → Reaction σ) → σ → Outcome α × σ
  | _, .done o, _, s => (o, s)
  | _, .act f next, env, s => (next s).play env (f s)
  | _, .await _ next, env, s => (next (env 0).outcome).play (fun n => env (n + 1)) ((env 0).change s)
  | _, .release _ next, env, s => next.play env s
  | _, .spawn _ next, env, s => (next (env 0).task).play (fun n => env (n + 1)) s
  | _, .cancel _ next, env, s => next.play env s
  | _, .hasEnded _ next, env, s => (next (env 0).ended).play (fun n => env (n + 1)) s

/-- What comes after a program meets what comes after that which the program meets. -/
theorem play_andThen {β : Type} (p : Program σ α) (next : Outcome α → Program σ β) (env : Nat → Reaction σ) (s : σ) :
    ∃ m, (p.andThen next).play env s = (next (p.play env s).1).play (fun n => env (n + m)) (p.play env s).2 := by
  induction p generalizing env s with
  | done o => exact ⟨0, rfl⟩
  | act f k ih => exact ih s next env (f s)
  | await w k ih =>
    obtain ⟨m, hm⟩ := ih _ next (fun n => env (n + 1)) ((env 0).change s)
    exact ⟨m + 1, hm⟩
  | release l k ih => exact ih next env s
  | spawn body k _ ih =>
    obtain ⟨m, hm⟩ := ih _ next (fun n => env (n + 1)) s
    exact ⟨m + 1, hm⟩
  | cancel t k ih => exact ih next env s
  | hasEnded t k ih =>
    obtain ⟨m, hm⟩ := ih _ next (fun n => env (n + 1)) s
    exact ⟨m + 1, hm⟩

/-- What a program comes to, whatever it meets in some company. -/
def ComesTo (w : Company σ) (p : Program σ α) (post : Outcome α → σ → Prop) (s : σ) : Prop :=
  ∀ env, w.Gives env → post (p.play env s).1 (p.play env s).2

section ComesTo

variable {β τ : Type} {w : Company σ} {mid : Outcome α → σ → Prop} {post : Outcome β → σ → Prop} {s : σ}

theorem comesTo_done {o : Outcome β} (h : post o s) : (done o : Program σ β).ComesTo w post s := fun _ _ => h

theorem comesTo_read {f : σ → α} {next : α → Program σ β} (h : (next (f s)).ComesTo w post s) :
    (read f >>= next).ComesTo w post s := h

theorem comesTo_change {f : σ → σ} {next : Unit → Program σ β} (h : (next ()).ComesTo w post (f s)) :
    (change f >>= next).ComesTo w post s := h

/-- Putting something into a slot comes to a state where it is there. -/
theorem comesTo_put {slot : Slot σ τ} {x : τ} {post : Outcome Unit → σ → Prop} (h : post (.value ()) (slot.set x s)) :
    (put slot x).ComesTo w post s := fun _ _ => h

/-- A program that notes its beginning goes on after the note. -/
theorem ComesTo.announced {ν : Type} {w : Company (σ × List ν)} {p : Program (σ × List ν) β} {post : Outcome β → σ × List ν → Prop}
    {e : σ → ν} {s : σ × List ν} (h : p.ComesTo w post (inscribe e s)) : (p.announced e).ComesTo w post s := h

/-- What two programs come to, the one followed by the other comes to. -/
theorem ComesTo.andThen {p : Program σ α} {next : Outcome α → Program σ β} (hp : p.ComesTo w mid s)
    (hn : ∀ o s, mid o s → (next o).ComesTo w post s) : (p.andThen next).ComesTo w post s := by
  intro env henv
  obtain ⟨m, hm⟩ := play_andThen p next env s
  rw [hm]
  exact hn _ _ (hp env henv) _ fun n => henv (n + m)

/-- What a program comes to may be weakened. -/
theorem ComesTo.mono {p : Program σ β} {post' : Outcome β → σ → Prop} (hp : p.ComesTo w post s)
    (h : ∀ o s, post o s → post' o s) : p.ComesTo w post' s := fun env henv => h _ _ (hp env henv)

/-- What comes of a program is handed over if it is a value, and anything else ends it. -/
theorem ComesTo.bind {p : Program σ α} {next : α → Program σ β} (hp : p.ComesTo w mid s)
    (hvalue : ∀ a s, mid (.value a) s → (next a).ComesTo w post s) (hfailed : ∀ f s, mid (.failed f) s → post (.failed f) s)
    (hcancelled : ∀ s, mid .cancelled s → post .cancelled s) : (p >>= next).ComesTo w post s := by
  refine hp.andThen fun o s h => ?_
  cases o with
  | value a => exact hvalue a s h
  | failed f => exact comesTo_done (hfailed f s h)
  | cancelled => exact comesTo_done (hcancelled s h)

/-- What comes of a program is handed over as a value or as a failure, and a cancellation ends it. -/
theorem ComesTo.attempt {p : Program σ α} {next : Except Failure α → Program σ β} (hp : p.ComesTo w mid s)
    (hvalue : ∀ a s, mid (.value a) s → (next (.ok a)).ComesTo w post s)
    (hfailed : ∀ f s, mid (.failed f) s → (next (.error f)).ComesTo w post s)
    (hcancelled : ∀ s, mid .cancelled s → post .cancelled s) : (p.attempt >>= next).ComesTo w post s := by
  refine (show (p.attempt >>= next) = _ from andThen_andThen _ _ _) ▸ hp.andThen fun o s h => ?_
  cases o with
  | value a => exact hvalue a s h
  | failed f => exact hfailed f s h
  | cancelled => exact comesTo_done (hcancelled s h)

/-- What a program leaves alone stays the same in company that leaves it alone. -/
theorem Keeps.comesTo {view : σ → τ} {p : Program σ α} (hp : p.Keeps view) (hothers : ∀ s s', w.others s s' → view s' = view s)
    (s : σ) : p.ComesTo w (fun _ s' => view s' = view s) s := by
  intro env henv
  induction p generalizing env s with
  | done o => rfl
  | act f k ih => exact (ih s (hp.2 s) (f s) env henv).trans (hp.1 s)
  | await wait k ih => exact (ih _ (hp _) _ _ fun n => henv (n + 1)).trans (hothers _ _ ((henv 0).2 s))
  | release l k ih => exact ih hp s env henv
  | spawn body k _ ih => exact ih _ (hp.2 _) s _ fun n => henv (n + 1)
  | cancel t k ih => exact ih hp s env henv
  | hasEnded t k ih => exact ih _ (hp _) s _ fun n => henv (n + 1)

/-- Work under a lock begins when the wait for it is over, or not at all. -/
theorem ComesTo.withLock {l : LockId} {body : Program σ β} (hbody : ∀ s', w.others s s' → body.ComesTo w post s')
    (hcut : ∀ (o : Outcome Unit) (o' : Outcome β) s', w.ends o → w.others s s' → o.Passes o' → post o' s') :
    (Program.withLock l body).ComesTo w post s := by
  intro env henv
  obtain ⟨hends, hothers⟩ := henv 0
  have hrun : (Program.withLock l body).play env s = (onValue (fun _ => body.andThen fun o => .release l (.done o))
      (env 0).outcome).play (fun n => env (n + 1)) ((env 0).change s) := rfl
  rw [hrun]
  cases ho : (env 0).outcome with
  | value u =>
    exact (hbody _ (hothers s)).andThen (fun o s h => show (Program.release l (.done o)).ComesTo w post s from comesTo_done h) _
      fun n => henv (n + 1)
  | failed f => exact hcut _ _ _ (ho ▸ hends) (hothers s) (.failed f)
  | cancelled => exact hcut _ _ _ (ho ▸ hends) (hothers s) .cancelled

end ComesTo

/-- A program that conducts itself ends as its conduct says, if the others keep to what it expects of them. -/
theorem Turns.play {p : Program σ α} {post : Outcome α → σ → σ → Prop} {s₀ s : σ} (hp : p.Turns c post s₀ s)
    {env : Nat → Reaction σ} (henv : ∀ n s, c.others s ((env n).change s)) :
    ∃ s₁, post (p.play env s).1 s₁ (p.play env s).2 := by
  induction p generalizing s₀ s env with
  | done o => exact ⟨s₀, hp⟩
  | act f next ih => exact ih s hp henv
  | await w next ih => exact ih _ (hp.2.1 _ _ (henv 0 s)) fun n => henv (n + 1)
  | release l next ih => exact ih hp henv
  | spawn body next _ ih => exact ih _ (hp.2 _) fun n => henv (n + 1)
  | cancel t next ih => exact ih hp henv
  | hasEnded t next ih => exact ih _ (hp _) fun n => henv (n + 1)

/-- Notes do not change how a program ends, and in which state. -/
theorem Noting.play {ν : Type} {p : Program (σ × List ν) α} {q : Program σ α} (h : p.Noting q) (env : Nat → Reaction σ) (s : σ)
    (js : List ν) : ∃ js', p.play (fun n => (env n).beside) (s, js) = ((q.play env s).1, (q.play env s).2, js') := by
  induction h generalizing env s js with
  | done o => exact ⟨js, rfl⟩
  | note e _ ih => exact ih env s (js ++ [e s])
  | act hf _ ih =>
    simp only [Program.play, hf]
    exact ih (s, js) env _ js
  | await w _ ih => exact ih _ (fun n => env (n + 1)) _ js
  | release l _ ih => exact ih env s js
  | spawn _ _ _ ih => exact ih _ (fun n => env (n + 1)) s js
  | cancel t _ ih => exact ih env s js
  | hasEnded t _ ih => exact ih _ (fun n => env (n + 1)) s js

end Program

/-- What a pool does with a program up to its next stop is the beginning of a run of the program. -/
theorem Pool.run_play {σ α : Type} (q : Program σ α) (p : Pool σ) (rest : Nat → Reaction σ) :
    ∃ env, q.play env p.state =
      match (Pool.run q p).1 with
      | .ended o => (o, (Pool.run q p).2.state)
      | .waiting w next => (Program.await w next).play rest (Pool.run q p).2.state := by
  induction q generalizing p with
  | done o => exact ⟨rest, rfl⟩
  | act f next ih => exact ih p.state { p with state := f p.state }
  | await w next ih =>
    cases hw : p.atOnce? w with
    | some r =>
      obtain ⟨env, henv⟩ := ih r.1 r.2
      rw [(Pool.atOnce?_eq hw).1] at henv
      refine ⟨Reaction.before { outcome := r.1 } env, ?_⟩
      simp only [Pool.run, hw]
      exact henv
    | none =>
      simp only [Pool.run, hw]
      exact ⟨rest, rfl⟩
  | release l next ih =>
    obtain ⟨env, henv⟩ := ih (p.unlock l)
    exact ⟨env, (Pool.unlock_alike p l).state ▸ henv⟩
  | spawn body next _ ih =>
    obtain ⟨env, henv⟩ := ih (p.spawn body).1 (p.spawn body).2
    exact ⟨Reaction.before { task := (p.spawn body).1 } env, henv⟩
  | cancel t next ih =>
    obtain ⟨env, henv⟩ := ih (p.cancel t)
    exact ⟨env, (Pool.cancel_alike p t).state ▸ henv⟩
  | hasEnded t next ih =>
    obtain ⟨env, henv⟩ := ih (p.hasEnded t) p
    exact ⟨Reaction.before { ended := p.hasEnded t } env, henv⟩

end SignedCall
