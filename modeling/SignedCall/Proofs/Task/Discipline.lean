import SignedCall.Proofs.Task.Lines
import SignedCall.Proofs.Task.Record
import SignedCall.Proofs.Task.Turns

/-!
# Disciplined work

A `Discipline` is what tasks that work beside a journal keep to: what holds of a part of the state and of the journal whenever no
task is at work, and which note a task may make after its own notes in the same piece of work. `Follows` says of a program that it
does so, whatever the others do meanwhile; it is computed along the program, and programs are put together by `Follows.andThen`. When
all tasks of a pool follow a discipline, the notes of each of them are proper at every point of every run
(`Recorded.disciplined`).
-/

namespace SignedCall

/-- What tasks keep to that work beside a journal. -/
structure Discipline (σ τ ν : Type) where
  part : σ → τ
  rests : τ → List ν → Prop
  ends : ν → Bool
  may : List ν → ν → Prop

/-- How a wait may end: a lock is got or the wait is cancelled, and other waits may end in any way. -/
def Wait.Allows (w : Wait) (o : Outcome Unit) : Prop := ∀ l f, w = .lock l → o ≠ .failed f

namespace Discipline

variable {σ τ ν : Type}

/-- What a discipline looks at. -/
def view (d : Discipline σ τ ν) (s : σ × List ν) : τ × List ν := (d.part s.1, s.2)

/-- Whether a state is one where no task need be at work. -/
def Rests (d : Discipline σ τ ν) (s : σ × List ν) : Prop := d.rests (d.part s.1) s.2

/-- The notes of the piece of work in hand after one more note. -/
def after (d : Discipline σ τ ν) (cur : List ν) (e : ν) : List ν := if d.ends e then [] else cur ++ [e]

/-- How work ends that leaves nothing in hand. -/
def Ended (d : Discipline σ τ ν) {α : Type} (_ : Outcome α) (cur : List ν) (s : σ × List ν) : Prop := cur = [] ∧ d.Rests s

/-- Whether a state is one of rest depends on no more than what the discipline looks at. -/
theorem rests_of_view {d : Discipline σ τ ν} {s s' : σ × List ν} (h : d.view s' = d.view s) (hs : d.Rests s) : d.Rests s' := by
  obtain ⟨hpart, hjournal⟩ := Prod.mk.inj h
  unfold Rests
  rw [hpart, hjournal]
  exact hs

end Discipline

namespace Program

variable {σ τ ν α β : Type}

/-- A program that follows a discipline, and what holds when it ends. It goes on from a state after some notes of the piece of work
in hand. -/
def Follows (d : Discipline σ τ ν) : {α : Type} → Program (σ × List ν) α → (Outcome α → List ν → σ × List ν → Prop) →
    List ν → σ × List ν → Prop
  | _, .done o, post, cur, s => post o cur s
  | _, .act f next, post, cur, s =>
    ((f s).2 = s.2 ∧ (next s).Follows d post cur (f s)) ∨
      ∃ e, (f s).2 = s.2 ++ [e] ∧ d.may cur e ∧ (next s).Follows d post (d.after cur e) (f s)
  | _, .await w next, post, cur, s =>
    d.Rests s ∧ ∀ o s', w.Allows o → d.Rests s' → (next o).Follows d post cur s'
  | _, .release _ next, post, cur, s => next.Follows d post cur s
  | _, .spawn body next, post, cur, s => (∀ s', d.Rests s' → body.Follows d d.Ended [] s') ∧ ∀ t, (next t).Follows d post cur s
  | _, .cancel _ next, post, cur, s => next.Follows d post cur s
  | _, .hasEnded _ next, post, cur, s => ∀ b, (next b).Follows d post cur s

variable {d : Discipline σ τ ν} {post : Outcome α → List ν → σ × List ν → Prop} {cur : List ν} {s : σ × List ν}

/-- A program followed by another follows a discipline if both do, the second from whatever holds where the first ends. -/
theorem Follows.andThen {p : Program (σ × List ν) α} {next : Outcome α → Program (σ × List ν) β}
    {mid : Outcome α → List ν → σ × List ν → Prop} {post : Outcome β → List ν → σ × List ν → Prop} (hp : p.Follows d mid cur s)
    (hn : ∀ o cur s, mid o cur s → (next o).Follows d post cur s) : (p.andThen next).Follows d post cur s := by
  induction p generalizing cur s with
  | done o => exact hn o cur s hp
  | act f k ih =>
    rcases hp with ⟨hkeep, hk⟩ | ⟨e, hnote, hmay, hk⟩
    · exact Or.inl ⟨hkeep, ih s hk hn⟩
    · exact Or.inr ⟨e, hnote, hmay, ih s hk hn⟩
  | await w k ih => exact ⟨hp.1, fun o s' ho hs' => ih o (hp.2 o s' ho hs') hn⟩
  | release l k ih => exact ih hp hn
  | spawn body k _ ih => exact ⟨hp.1, fun t => ih t (hp.2 t) hn⟩
  | cancel t k ih => exact ih hp hn
  | hasEnded t k ih => exact fun b => ih b (hp b) hn

/-- What holds at the end of a program that follows a discipline may be weakened. -/
theorem Follows.mono {p : Program (σ × List ν) α} {post' : Outcome α → List ν → σ × List ν → Prop} (hp : p.Follows d post cur s)
    (h : ∀ o cur s, post o cur s → post' o cur s) : p.Follows d post' cur s := by
  rw [← p.andThen_done]
  exact hp.andThen h

/-- What leaves the journal and the part alone may be done at any time, and rests when it ends. -/
theorem Follows.of_keeps {p : Program (σ × List ν) α} (hp : p.Keeps d.view) (cur : List ν) (hs : d.Rests s) :
    p.Follows d (fun _ cur' s' => cur' = cur ∧ d.Rests s') cur s := by
  induction p generalizing cur s with
  | done o => exact ⟨rfl, hs⟩
  | act f k ih => exact Or.inl ⟨(Prod.mk.inj (hp.1 s)).2, ih s (hp.2 s) cur (Discipline.rests_of_view (hp.1 s) hs)⟩
  | await w k ih => exact ⟨hs, fun o s' _ hs' => ih o (hp o) cur hs'⟩
  | release l k ih => exact ih hp cur hs
  | spawn body k ihb ih => exact ⟨fun s' hs' => ihb hp.1 [] hs', fun t => ih t (hp.2 t) cur hs⟩
  | cancel t k ih => exact ih hp cur hs
  | hasEnded t k ih => exact fun b => ih b (hp b) cur hs

/-- A program may be announced by a note that is allowed next, if it follows the discipline from there. -/
theorem Follows.announced {p : Program (σ × List ν) α} {e : σ → ν} (he : d.may cur (e s.1))
    (hp : p.Follows d post (d.after cur (e s.1)) (inscribe e s)) : (p.announced e).Follows d post cur s :=
  Or.inr ⟨e s.1, rfl, he, hp⟩

/-- How a program ended may be noted if the note is allowed wherever the program ends. -/
theorem Follows.reported {p : Program (σ × List ν) α} {e : Outcome α → σ → ν} {mid : Outcome α → List ν → σ × List ν → Prop}
    (hp : p.Follows d mid cur s)
    (he : ∀ o cur s, mid o cur s → d.may cur (e o s.1) ∧ post o (d.after cur (e o s.1)) (inscribe (e o) s)) :
    (p.reported e).Follows d post cur s :=
  hp.andThen fun o cur s h => Or.inr ⟨e o s.1, rfl, he o cur s h⟩

theorem follows_read {f : σ × List ν → α} {next : α → Program (σ × List ν) β} {post : Outcome β → List ν → σ × List ν → Prop}
    (h : (next (f s)).Follows d post cur s) : (Program.read f >>= next).Follows d post cur s := Or.inl ⟨rfl, h⟩

theorem follows_change {f : σ × List ν → σ × List ν} {next : Unit → Program (σ × List ν) β}
    {post : Outcome β → List ν → σ × List ν → Prop} (hf : (f s).2 = s.2) (h : (next ()).Follows d post cur (f s)) :
    (Program.change f >>= next).Follows d post cur s := Or.inl ⟨hf, h⟩

/-- What comes of a program is handed over if it is a value, and anything else ends it. -/
theorem Follows.bind {p : Program (σ × List ν) α} {mid : Outcome α → List ν → σ × List ν → Prop}
    {next : α → Program (σ × List ν) β} {post : Outcome β → List ν → σ × List ν → Prop} (hp : p.Follows d mid cur s)
    (hvalue : ∀ a cur s, mid (.value a) cur s → (next a).Follows d post cur s)
    (hfailed : ∀ f cur s, mid (.failed f) cur s → post (.failed f) cur s)
    (hcancelled : ∀ cur s, mid .cancelled cur s → post .cancelled cur s) : (p >>= next).Follows d post cur s := by
  refine hp.andThen fun o cur s h => ?_
  cases o with
  | value a => exact hvalue a cur s h
  | failed f => exact hfailed f cur s h
  | cancelled => exact hcancelled cur s h

/-- What comes of a program is handed over as a value or as a failure, and a cancellation ends it. -/
theorem Follows.attempt {p : Program (σ × List ν) α} {mid : Outcome α → List ν → σ × List ν → Prop}
    {next : Except Failure α → Program (σ × List ν) β} {post : Outcome β → List ν → σ × List ν → Prop} (hp : p.Follows d mid cur s)
    (hvalue : ∀ a cur s, mid (.value a) cur s → (next (.ok a)).Follows d post cur s)
    (hfailed : ∀ f cur s, mid (.failed f) cur s → (next (.error f)).Follows d post cur s)
    (hcancelled : ∀ cur s, mid .cancelled cur s → post .cancelled cur s) : (p.attempt >>= next).Follows d post cur s := by
  refine (show (p.attempt >>= next) = _ from andThen_andThen _ _ _) ▸ hp.andThen fun o cur s h => ?_
  cases o with
  | value a => exact hvalue a cur s h
  | failed f => exact hfailed f cur s h
  | cancelled => exact hcancelled cur s h

/-- Work under a lock, which may be cancelled before it begins. -/
theorem Follows.withLock {l : LockId} {body : Program (σ × List ν) α} (hs : d.Rests s)
    (hbody : ∀ s, d.Rests s → body.Follows d post cur s) (hcancelled : ∀ s, d.Rests s → post .cancelled cur s) :
    (Program.withLock l body).Follows d post cur s := by
  refine ⟨hs, fun o s' ho hs' => ?_⟩
  cases o with
  | value u => exact (hbody s' hs').andThen fun _ _ _ h => h
  | failed f => exact absurd rfl (ho l f rfl)
  | cancelled => exact hcancelled s' hs'

/-- What is put together from pieces that follow a discipline and leave nothing in hand does so too. -/
theorem follows_built {piece : ∀ α : Type, Program (σ × List ν) α → Prop}
    (hpiece : ∀ α p, piece α p → ∀ s, d.Rests s → p.Follows d d.Ended [] s) {p : Program (σ × List ν) α} (hp : p.Built piece)
    (hs : d.Rests s) : p.Follows d d.Ended [] s := by
  induction hp generalizing s with
  | piece hp => exact hpiece _ _ hp s hs
  | start _ _ hbody hnext => exact ⟨fun s' hs' => hbody hs', fun t => hnext t hs⟩
  | andThen _ _ hp hnext =>
    refine (hp hs).andThen ?_
    rintro o _ s' ⟨rfl, hs'⟩
    exact hnext o hs'

end Program

namespace Pool

variable {σ τ ν α : Type} {d : Discipline σ τ ν}

/-- What holds of a program that follows a discipline where it stops. -/
def AtStop (d : Discipline σ τ ν) (post : Outcome α → List ν → σ × List ν → Prop) (cur : List ν) (s : σ × List ν) :
    Stop (σ × List ν) α → Prop
  | .ended o => post o cur s
  | .waiting on next => (Program.await on next).Follows d post cur s

/-- A move that a discipline allows: tasks that are made follow it, and what it looks at does not change from outside. -/
def Admits (d : Discipline σ τ ν) : Move (σ × List ν) → Prop
  | .start body => ∀ s, d.Rests s → body.Follows d d.Ended [] s
  | .change f => ∀ s, d.view (f s) = d.view s
  | _ => True

/-- A discipline allows the moves of runs whose tasks are put together from pieces that follow it. -/
theorem admits_of_within {piece : ∀ α : Type, Program (σ × List ν) α → Prop}
    (hpiece : ∀ α p, piece α p → ∀ s, d.Rests s → p.Follows d d.Ended [] s) {m : Move (σ × List ν)} (hm : m.Within piece d.view) :
    Admits d m := by
  cases m with
  | start body => exact fun s hs => Program.follows_built hpiece hm hs
  | change f => exact hm
  | turn t => exact trivial
  | arrival t => exact trivial
  | cancel t => exact trivial

/-- A pool whose tasks have followed a discipline so far, and do so on from where they wait. -/
structure Keeping (d : Discipline σ τ ν) (p : Pool (σ × List ν)) (record : Record ν) : Prop where
  journal : p.state.2 = record.journal
  made : ∀ t, p.tasks.length ≤ t → record.trail t = []
  proper : ∀ t, Proper d.ends d.may (record.trail t)
  follows : ∀ t on wake next, p.task? t = some (.waiting on wake next) →
    ∀ o s, on.Allows o → d.Rests s → (next o).Follows d d.Ended (since d.ends (record.trail t)) s

namespace Keeping

variable {p q : Pool (σ × List ν)} {record : Record ν}

/-- What matters is the journal, and the tasks that wait. -/
theorem of_tasks (h : Keeping d p record) (hjournal : q.state.2 = p.state.2) (hlength : q.tasks.length = p.tasks.length)
    (hwaiting : ∀ t on wake next, q.task? t = some (.waiting on wake next) → ∃ wake', p.task? t = some (.waiting on wake' next)) :
    Keeping d q record := by
  refine ⟨hjournal.trans h.journal, fun t ht => h.made t (hlength ▸ ht), h.proper, fun t on wake next hw => ?_⟩
  obtain ⟨wake', hw'⟩ := hwaiting t on wake next hw
  exact h.follows t on wake' next hw'

/-- Who has been woken, and who stands where in line, is nothing to a discipline. -/
theorem alike (h : Keeping d p record) (ha : Alike p q) : Keeping d q record :=
  h.of_tasks (congrArg Prod.snd ha.state) ha.length fun _ _ _ _ hw => ha.waiting hw

theorem change (h : Keeping d p record) {f : σ × List ν → σ × List ν} (hf : (f p.state).2 = p.state.2) :
    Keeping d { p with state := f p.state } record :=
  h.of_tasks hf rfl fun _ _ wake _ hw => ⟨wake, hw⟩

/-- The task whose turn it is makes a note. -/
theorem note (h : Keeping d p record) {t : TaskId} (ht : p.task? t = some .running) {f : σ × List ν → σ × List ν} {e : ν}
    (hf : (f p.state).2 = p.state.2 ++ [e]) (he : d.may (since d.ends (record.trail t)) e) :
    Keeping d { p with state := f p.state } (record ++ [(t, e)]) := by
  have hmade : t < p.tasks.length := (List.getElem?_eq_some_iff.1 ht).1
  refine ⟨?_, fun u hu => ?_, fun u => ?_, fun u on wake next hw => ?_⟩
  · rw [Record.journal_append, ← h.journal]
    exact hf
  · rw [Record.trail_concat_of_ne _ (Nat.ne_of_gt (Nat.lt_of_lt_of_le hmade hu))]
    exact h.made u hu
  · by_cases hu : u = t
    · rw [hu, Record.trail_concat_self]
      exact (h.proper t).concat he
    · rw [Record.trail_concat_of_ne _ hu]
      exact h.proper u
  · rw [Record.trail_concat_of_ne _ (Ne.symm (ne_of_running ht hw))]
    exact h.follows u on wake next hw

/-- A new task has nothing in hand. -/
theorem spawn (h : Keeping d p record) {body : Program (σ × List ν) Unit}
    (hbody : ∀ s, d.Rests s → body.Follows d d.Ended [] s) : Keeping d (p.spawn body).2 record := by
  refine ⟨h.journal, fun t ht => h.made t ?_, h.proper, fun t on wake next hw => ?_⟩
  · have hlength : (p.spawn body).2.tasks.length = p.tasks.length + 1 := by simp [Pool.spawn]
    omega
  · rcases spawn_task?_cases hw with hold | ⟨rfl, -, rfl⟩
    · exact h.follows t on wake next hold
    · intro o s _ hs
      rw [h.made _ (Nat.le_refl _), since_nil]
      cases o with
      | value u => exact hbody s hs
      | failed f => exact ⟨rfl, hs⟩
      | cancelled => exact ⟨rfl, hs⟩

/-- A wait that is over at once ends in a way that is allowed. -/
theorem atOnce?_allows {w : Wait} {o : Outcome Unit} (hw : p.atOnce? w = some (o, q)) : w.Allows o := by
  rintro l f rfl rfl
  simp only [Pool.atOnce?] at hw
  split at hw <;> cases hw

/-- A program that follows the discipline, run up to its next stop by the task whose turn it is. -/
theorem run (k : Program (σ × List ν) α) {post : Outcome α → List ν → σ × List ν → Prop} {t : TaskId} (h : Keeping d p record)
    (ht : p.task? t = some .running) (hk : k.Follows d post (since d.ends (record.trail t)) p.state) :
    ∃ es : List ν, Keeping d (Pool.run k p).2 (record ++ es.map (t, ·)) ∧
      AtStop d post (since d.ends (Record.trail (record ++ es.map (t, ·)) t)) (Pool.run k p).2.state (Pool.run k p).1 := by
  induction k generalizing p record with
  | done o =>
    refine ⟨[], ?_⟩
    rw [List.map_nil, List.append_nil]
    exact ⟨h, hk⟩
  | act f next ih =>
    rcases hk with ⟨hkeep, hnext⟩ | ⟨e, hnote, hmay, hnext⟩
    · exact ih p.state (h.change hkeep) ht hnext
    · have hafter : d.after (since d.ends (record.trail t)) e = since d.ends (Record.trail (record ++ [(t, e)]) t) := by
        rw [Record.trail_concat_self, since_concat]
        rfl
      rw [hafter] at hnext
      obtain ⟨es, hes, hstop⟩ := ih p.state (h.note ht hnote hmay) ht hnext
      refine ⟨e :: es, ?_⟩
      rw [List.map_cons, List.append_cons]
      exact ⟨hes, hstop⟩
  | await w next ih =>
    unfold Pool.run
    split
    · next o p' hw =>
      obtain ⟨hstate, htasks⟩ := atOnce?_eq hw
      have h' : Keeping d p' record :=
        h.of_tasks (congrArg Prod.snd hstate) (congrArg List.length htasks) fun u on wake next' hu =>
          ⟨wake, (atOnce?_task? hw u).symm.trans hu⟩
      refine ih o h' ((atOnce?_task? hw t).trans ht) ?_
      rw [hstate]
      exact hk.2 o p.state (atOnce?_allows hw) hk.1
    · refine ⟨[], ?_⟩
      rw [List.map_nil, List.append_nil]
      exact ⟨h, hk⟩
  | release l next ih =>
    have ha := unlock_alike p l
    have hstate : (p.unlock l).state = p.state := ha.state
    refine ih (h.of_tasks (congrArg Prod.snd hstate) ha.length fun u on wake next' hu => ha.waiting hu) (ha.running ht) ?_
    rw [hstate]
    exact hk
  | spawn body next _ ih => exact ih _ (h.spawn hk.1) (spawn_task? ht body) (hk.2 _)
  | cancel u next ih =>
    have ha := cancel_alike p u
    refine ih (h.alike ha) (ha.running ht) ?_
    rw [ha.state]
    exact hk
  | hasEnded u next ih => exact ih _ h ht (hk _)

/-- A task that ends or waits again at the end of its turn. -/
theorem endTurn (h : Keeping d p record) {t : TaskId} {stop : Stop (σ × List ν) Unit}
    (hstop : AtStop d d.Ended (since d.ends (record.trail t)) p.state stop) :
    Keeping d (p.endTurn t stop) record ∧ d.Rests (p.endTurn t stop).state := by
  rw [endTurn_state]
  refine ⟨⟨?_, fun u hu => h.made u (endTurn_length p t stop ▸ hu), h.proper, fun u on wake next hw => ?_⟩, ?_⟩
  · rw [endTurn_state]
    exact h.journal
  · rcases endTurn_waiting hw with ⟨rfl, rfl⟩ | ⟨-, wake', hold⟩
    · exact hstop.2
    · exact h.follows u on wake' next hold
  · cases stop with
    | ended o => exact hstop.2
    | waiting on next => exact hstop.1

/-- How a task that waits for a lock was woken. -/
theorem allows_of_woken (ho : Orderly p) {t : TaskId} {on : Wait} {o : Outcome Unit}
    {next : Outcome Unit → Program (σ × List ν) Unit} (ht : p.task? t = some (.waiting on (some o) next)) : on.Allows o := by
  rintro l f rfl rfl
  obtain ⟨place, hmem⟩ := ho.queued l t _ _ ht
  have hfits := ho.fits ht hmem
  cases place with
  | waiting => cases hfits
  | admitted => rcases hfits with hfits | hfits <;> cases hfits
  | leaving => cases hfits

/-- A turn keeps the discipline, and the notes that it makes are those of the task. -/
theorem resume (ho : Orderly p) (hs : d.Rests p.state) (h : Keeping d p record) (t : TaskId) :
    Keeping d (p.resume t) (record ++ p.recorded (.turn t)) ∧ d.Rests (p.resume t).state := by
  rcases resume_cases p t with ⟨on, o, next, ht, hresume⟩ | hresume
  · obtain ⟨hstate, htasks⟩ := beginTurn_unwoken p t on o
    have hbegun : Keeping d (p.beginTurn t on o) record := by
      refine h.of_tasks (congrArg Prod.snd hstate) (beginTurn_length p t on o) fun u on' wake' next' hu => ?_
      obtain ⟨wake'', hset⟩ := waiting_of_unwoken htasks hu
      rcases task?_setTask_cases hset with ⟨-, he⟩ | ⟨-, hold⟩
      · cases he
      · exact ⟨wake'', hold⟩
    have hnext : (next o).Follows d d.Ended (since d.ends (record.trail t)) (p.beginTurn t on o).state := by
      rw [hstate]
      exact h.follows t on _ next ht o p.state (allows_of_woken ho ht) hs
    obtain ⟨es, hrun, hstop⟩ := hbegun.run (next o) (beginTurn_task? ht) hnext
    obtain ⟨hended, hrests⟩ := hrun.endTurn hstop
    rw [← hresume] at hended hrests
    have hrecorded : p.recorded (.turn t) = es.map (t, ·) := by
      have hjournal : (p.resume t).state.2 = p.state.2 ++ es := by
        rw [hended.journal, Record.journal_append, ← h.journal]
        exact congrArg (p.state.2 ++ ·) ((List.map_map ..).trans (List.map_id es))
      rw [recorded, hjournal, List.drop_left]
    rw [hrecorded]
    exact ⟨hended, hrests⟩
  · rw [recorded, hresume, List.drop_length]
    exact ⟨by simpa using h, hs⟩

/-- Every move that is allowed keeps the discipline. -/
theorem step (ho : Orderly p) (hs : d.Rests p.state) (h : Keeping d p record) {m : Move (σ × List ν)} (hm : Admits d m) :
    Keeping d (p.step m) (record ++ p.recorded m) ∧ d.Rests (p.step m).state := by
  cases m with
  | turn t => exact h.resume ho hs t
  | arrival t =>
    have ha := arrive_alike p t
    exact ⟨(List.append_nil record).symm ▸ h.alike ha, ha.state.symm ▸ hs⟩
  | cancel t =>
    have ha := cancel_alike p t
    exact ⟨(List.append_nil record).symm ▸ h.alike ha, ha.state.symm ▸ hs⟩
  | start body => exact ⟨(List.append_nil record).symm ▸ h.spawn hm, hs⟩
  | change f =>
    have hf : (f p.state).2 = p.state.2 := (Prod.mk.inj (hm p.state)).2
    exact ⟨(List.append_nil record).symm ▸ h.change hf, Discipline.rests_of_view (hm p.state) hs⟩

end Keeping

/-- Every run keeps the discipline: at each of its points things rest, the journal is that of the record, and the notes of each task
are proper. -/
theorem Recorded.disciplined {start : σ × List ν → Prop} {ok : Move (σ × List ν) → Prop} {p : Pool (σ × List ν)}
    {record : Record ν} (hstart : ∀ s, start s → s.2 = [] ∧ d.Rests s) (hok : ∀ m, ok m → Admits d m)
    (h : Recorded start ok p record) :
    p.state.2 = record.journal ∧ d.Rests p.state ∧ ∀ t, Proper d.ends d.may (record.trail t) := by
  have hkeeping : Orderly p ∧ d.Rests p.state ∧ Keeping d p record := by
    induction h with
    | @start s hs =>
      obtain ⟨hempty, hrests⟩ := hstart s hs
      exact ⟨orderly_empty s, hrests, hempty, fun _ _ => rfl, fun _ => proper_nil, nofun⟩
    | step _ hm ih =>
      obtain ⟨ho, hrests, hk⟩ := ih
      obtain ⟨hk', hrests'⟩ := hk.step ho hrests (hok _ hm)
      exact ⟨ho.step _, hrests', hk'⟩
  exact ⟨hkeeping.2.2.journal, hkeeping.2.1, hkeeping.2.2.proper⟩

end Pool

end SignedCall
