import SignedCall.Proofs.Task.Frame

/-!
# Journals

A journal is a list beside the state, which programs add notes to and never read. A program on the state works `beside` a journal
without touching it, `reported` notes how it ended, and `announced` notes that it begins. What a program leaves alone it leaves
alone beside a journal, along with the journal. `Noting p q` says that `p` is `q` but for the notes that it makes. Notes may carry the
state as it was; `Recalls` says that a part of the state always is what the notes before tell.
-/

namespace SignedCall

/-- A state with a note added to its journal. -/
def inscribe {σ ν : Type} (e : σ → ν) (s : σ × List ν) : σ × List ν := (s.1, s.2 ++ [e s.1])

/-- A note that stands in a journal to which one note was added is that one, or stood there before. -/
theorem append_singleton_cases {ν : Type} {js ks ls : List ν} {e x : ν} (h : js ++ [e] = ks ++ x :: ls) :
    (ls = [] ∧ x = e ∧ ks = js) ∨ ∃ ls', ls = ls' ++ [e] ∧ js = ks ++ x :: ls' := by
  rcases List.eq_nil_or_concat ls with rfl | ⟨ls', e', rfl⟩
  · obtain ⟨rfl, he⟩ := List.append_inj' h rfl
    exact Or.inl ⟨rfl, (List.singleton_inj.1 he).symm, rfl⟩
  · rw [List.concat_eq_append] at h ⊢
    rw [← List.cons_append, ← List.append_assoc] at h
    obtain ⟨rfl, he⟩ := List.append_inj' h rfl
    exact Or.inr ⟨ls', by rw [List.singleton_inj.1 he], rfl⟩

/-- What holds after some notes, and did not before them, holds because of one of them. -/
theorem exists_of_foldl {τ ν : Type} {f : τ → ν → τ} {P : τ → Prop} {Q : ν → Prop} (hstep : ∀ x e, P (f x e) → Q e ∨ P x) {x : τ}
    (hx : ¬P x) {js : List ν} (h : P (js.foldl f x)) : ∃ e ∈ js, Q e := by
  induction js generalizing x with
  | nil => exact absurd h hx
  | cons e js ih =>
    by_cases he : P (f x e)
    · exact ⟨e, List.mem_cons_self, (hstep x e he).resolve_right hx⟩
    · obtain ⟨e', hmem, hq⟩ := ih he h
      exact ⟨e', List.mem_cons_of_mem e hmem, hq⟩

section Recalls

variable {σ τ ε : Type} {part : σ → τ} {told : List (ε × σ) → τ} {js ks : List (ε × σ)} {x y : τ} {s : σ}

/-- A part of the state is what the notes before tell: now, and at each note in the state that it carries. -/
structure Recalls (part : σ → τ) (told : List (ε × σ) → τ) (now : τ) (journal : List (ε × σ)) : Prop where
  now : now = told journal
  before : ∀ js e ks, journal = js ++ e :: ks → part e.2 = told js

/-- A part of the state when some notes are still to come: at the first of them, or now if there is none. -/
def partBefore (part : σ → τ) (later : List (ε × σ)) (s : σ) : τ := later.head?.elim (part s) fun e => part e.2

/-- Before the first note the part is what no notes tell. -/
theorem Recalls.start {s : σ × List (ε × σ)} (hpart : part s.1 = told []) (hjournal : s.2 = []) :
    Recalls part told (part s.1) s.2 := by
  rw [hjournal]
  exact ⟨hpart, by simp⟩

/-- After one more note, the part is what that note makes of it. -/
theorem Recalls.concat {event : ε} (h : Recalls part told (part s) js) (hy : y = told (js ++ [(event, s)])) :
    Recalls part told y (js ++ [(event, s)]) := by
  refine ⟨hy, fun ks e ls hsplit => ?_⟩
  rcases append_singleton_cases hsplit with ⟨-, rfl, rfl⟩ | ⟨ls', -, hsplit⟩
  · exact h.now
  · exact h.before ks e ls' hsplit

/-- Where the notes tell one after the other what becomes of the part, it is what they tell after one more note if that note does to it
what it tells. -/
theorem Recalls.step {s s' : σ × List (ε × σ)} {f : τ → ε × σ → τ} (htold : ∀ js e, told (js ++ [e]) = f (told js) e)
    (h : Recalls part told (part s.1) s.2) {event : ε} (hjournal : s'.2 = s.2 ++ [(event, s.1)])
    (hpart : part s'.1 = f (part s.1) (event, s.1)) : Recalls part told (part s'.1) s'.2 := by
  rw [hjournal]
  refine h.concat ?_
  rw [htold, ← h.now]
  exact hpart

/-- At every place in a journal the part is what the notes before that place tell. -/
theorem Recalls.partBefore (h : Recalls part told (part s) (js ++ ks)) : partBefore part ks s = told js := by
  cases ks with
  | nil => exact h.now.trans (by rw [List.append_nil])
  | cons e ks => exact h.before js e ks rfl

end Recalls

namespace Program

variable {σ τ ν α β : Type}

/-- A program on a state that has a journal beside it. -/
def beside : {α : Type} → Program σ α → Program (σ × List ν) α
  | _, .done o => .done o
  | _, .act f next => .act (Slot.fst.modify f) fun s => (next s.1).beside
  | _, .await w next => .await w fun o => (next o).beside
  | _, .release l next => .release l next.beside
  | _, .spawn body next => .spawn body.beside fun t => (next t).beside
  | _, .cancel t next => .cancel t next.beside
  | _, .hasEnded t next => .hasEnded t fun b => (next b).beside

/-- Notes that a program begins. -/
def announced (e : σ → ν) (p : Program (σ × List ν) α) : Program (σ × List ν) α := .act (inscribe e) fun _ => p

/-- Notes how a program ended. -/
def reported (e : Outcome α → σ → ν) (p : Program (σ × List ν) α) : Program (σ × List ν) α :=
  p.andThen fun o => .act (inscribe (e o)) fun _ => .done o

/-- A program that is another one but for the notes that it makes. -/
inductive Noting : {α : Type} → Program (σ × List ν) α → Program σ α → Prop
  | done {α : Type} (o : Outcome α) : Noting (.done o) (.done o)
  | note {α : Type} (e : σ → ν) {p : Program (σ × List ν) α} {q : Program σ α} : Noting p q → Noting (.act (inscribe e) fun _ => p) q
  | act {α : Type} {g : σ × List ν → σ × List ν} {f : σ → σ} {k : σ × List ν → Program (σ × List ν) α} {l : σ → Program σ α} :
      (∀ s, g s = (f s.1, s.2)) → (∀ s, Noting (k s) (l s.1)) → Noting (.act g k) (.act f l)
  | await {α : Type} (w : Wait) {k : Outcome Unit → Program (σ × List ν) α} {l : Outcome Unit → Program σ α} :
      (∀ o, Noting (k o) (l o)) → Noting (.await w k) (.await w l)
  | release {α : Type} (i : LockId) {p : Program (σ × List ν) α} {q : Program σ α} :
      Noting p q → Noting (.release i p) (.release i q)
  | spawn {α : Type} {b : Program (σ × List ν) Unit} {c : Program σ Unit} {k : TaskId → Program (σ × List ν) α}
      {l : TaskId → Program σ α} : Noting b c → (∀ t, Noting (k t) (l t)) → Noting (.spawn b k) (.spawn c l)
  | cancel {α : Type} (t : TaskId) {p : Program (σ × List ν) α} {q : Program σ α} :
      Noting p q → Noting (.cancel t p) (.cancel t q)
  | hasEnded {α : Type} (t : TaskId) {k : Bool → Program (σ × List ν) α} {l : Bool → Program σ α} :
      (∀ b, Noting (k b) (l b)) → Noting (.hasEnded t k) (.hasEnded t l)

/-- What works beside a journal leaves it alone. -/
theorem beside_keeps (p : Program σ α) : (p.beside : Program (σ × List ν) α).Keeps Prod.snd := by
  induction p with
  | done o => exact trivial
  | act f k ih => exact ⟨fun _ => rfl, fun s => ih s.1⟩
  | await w k ih => exact fun o => ih o
  | release l k ih => exact ih
  | spawn body k ihb ih => exact ⟨ihb, fun t => ih t⟩
  | cancel t k ih => exact ih
  | hasEnded t k ih => exact fun b => ih b

/-- What a program leaves alone it leaves alone beside a journal, and the journal too. -/
theorem Keeps.beside {part : σ → τ} {p : Program σ α} (hp : p.Keeps part) :
    (p.beside : Program (σ × List ν) α).Keeps fun s => (part s.1, s.2) := by
  induction p with
  | done o => exact trivial
  | act f k ih => exact ⟨fun s => congrArg (·, s.2) (hp.1 s.1), fun s => ih s.1 (hp.2 s.1)⟩
  | await w k ih => exact fun o => ih o (hp o)
  | release l k ih => exact ih hp
  | spawn body k ihb ih => exact ⟨ihb hp.1, fun t => ih t (hp.2 t)⟩
  | cancel t k ih => exact ih hp
  | hasEnded t k ih => exact fun b => ih b (hp b)

/-- A lock that a program shuns it shuns beside a journal. -/
theorem Shuns.beside {l : LockId} {p : Program σ α} (hp : p.Shuns l) : (p.beside : Program (σ × List ν) α).Shuns l := by
  induction p with
  | done o => exact trivial
  | act f k ih => exact fun s => ih s.1 (hp s.1)
  | await w k ih => exact ⟨hp.1, fun o => ih o (hp.2 o)⟩
  | release k next ih => exact ⟨hp.1, ih hp.2⟩
  | spawn body k ihb ih => exact ⟨ihb hp.1, fun t => ih t (hp.2 t)⟩
  | cancel t k ih => exact ih hp
  | hasEnded t k ih => exact fun b => ih b (hp b)

/-! ## Programs that make notes -/

/-- Beside a journal a program is itself, without a note. -/
theorem noting_beside (p : Program σ α) : Noting (p.beside : Program (σ × List ν) α) p := by
  induction p with
  | done o => exact .done o
  | act f k ih => exact .act (fun _ => rfl) fun s => ih s.1
  | await w k ih => exact .await w ih
  | release l k ih => exact .release l ih
  | spawn body k ihb ih => exact .spawn ihb ih
  | cancel t k ih => exact .cancel t ih
  | hasEnded t k ih => exact .hasEnded t ih

/-- Programs that are others but for their notes are so one after the other. -/
theorem Noting.andThen {p : Program (σ × List ν) α} {q : Program σ α} {next : Outcome α → Program (σ × List ν) β}
    {next' : Outcome α → Program σ β} (h : Noting p q) (hn : ∀ o, Noting (next o) (next' o)) :
    Noting (p.andThen next) (q.andThen next') := by
  induction h with
  | done o => exact hn o
  | note e _ ih => exact .note e (ih hn)
  | act hf _ ih => exact .act hf fun s => ih s hn
  | await w _ ih => exact .await w fun o => ih o hn
  | release l _ ih => exact .release l (ih hn)
  | spawn hb _ _ ih => exact .spawn hb fun t => ih t hn
  | cancel t _ ih => exact .cancel t (ih hn)
  | hasEnded t _ ih => exact .hasEnded t fun b => ih b hn

/-- Programs that are others but for their notes are so when one goes on with the value of the other. -/
theorem Noting.bind {p : Program (σ × List ν) α} {q : Program σ α} {next : α → Program (σ × List ν) β} {next' : α → Program σ β}
    (h : Noting p q) (hn : ∀ a, Noting (next a) (next' a)) : Noting (p >>= next) (q >>= next') := by
  refine h.andThen fun o => ?_
  cases o with
  | value a => exact hn a
  | failed f => exact .done _
  | cancelled => exact .done _

/-- A program that is another one but for its notes is so when its failures are caught. -/
theorem Noting.attempt {p : Program (σ × List ν) α} {q : Program σ α} (h : Noting p q) : Noting p.attempt q.attempt := by
  refine h.andThen fun o => ?_
  cases o <;> exact .done _

/-- What comes of a program is handed over as a value or as a failure, and both are gone on with alike. -/
theorem Noting.attempt_bind {p : Program (σ × List ν) α} {q : Program σ α} {next : Except Failure α → Program (σ × List ν) β}
    {next' : Except Failure α → Program σ β} (h : Noting p q) (hok : ∀ a, Noting (next (.ok a)) (next' (.ok a)))
    (herror : ∀ f, Noting (next (.error f)) (next' (.error f))) : Noting (p.attempt >>= next) (q.attempt >>= next') := by
  refine h.attempt.bind fun result => ?_
  cases result with
  | ok a => exact hok a
  | error f => exact herror f

/-- The end of a program is noted after it, and changes nothing about it. -/
theorem Noting.reported {p : Program (σ × List ν) α} {q : Program σ α} (h : Noting p q) (e : Outcome α → σ → ν) :
    Noting (p.reported e) q := by
  rw [← q.andThen_done]
  exact h.andThen fun o => .note (e o) (.done o)

/-- A program that is another one but for its notes is so under a lock. -/
theorem Noting.withLock {p : Program (σ × List ν) α} {q : Program σ α} (h : Noting p q) (l : LockId) :
    Noting (Program.withLock l p) (Program.withLock l q) := by
  refine .await _ fun o => ?_
  cases o with
  | value u => exact h.andThen fun o => .release l (.done o)
  | failed f => exact .done _
  | cancelled => exact .done _

theorem noting_read {f : σ × List ν → α} {g : σ → α} (hf : ∀ s, f s = g s.1) : Noting (Program.read f) (Program.read g) := by
  refine .act (fun s => rfl) fun s => ?_
  rw [hf]
  exact .done _

theorem noting_change {g : σ × List ν → σ × List ν} {f : σ → σ} (hf : ∀ s, g s = (f s.1, s.2)) :
    Noting (Program.change g) (Program.change f) := .act hf fun _ => .done _

theorem noting_ofExcept (e : Except Failure α) : Noting (Program.ofExcept e : Program (σ × List ν) α) (Program.ofExcept e) := by
  cases e <;> exact .done _

theorem noting_onThread {f : σ × List ν → Except Failure α} {g : σ → Except Failure α} (hf : ∀ s, f s = g s.1) :
    Noting (Program.onThread f) (Program.onThread g) := by
  have hpause : Noting (Program.pause : Program (σ × List ν) Unit) Program.pause := .await _ fun o => .done o
  exact hpause.bind fun _ => (noting_read hf).bind fun e => noting_ofExcept e

end Program

end SignedCall
