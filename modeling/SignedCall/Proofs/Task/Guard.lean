import SignedCall.Proofs.Task.Frame
import SignedCall.Proofs.Task.Lines

/-!
# What a lock guards

A `Guard` is a lock and a part of the state that only the holder of the lock changes: `idle` holds of the part while nobody holds
the lock, `busy` holds of it whenever the holder waits, and `leads` says what the holder may make of it. A program `Obeys` a guard
if it changes the part only between taking the lock and giving it back, and leaves it idle. When all tasks of a pool obey, the
part is busy while the lock is held, and idle while it is not, at every point of every run (`Guarded.step`, `Guarded.part`).
-/

namespace SignedCall

/-- A lock and what it guards. -/
structure Guard (σ τ : Type) where
  lock : LockId
  part : σ → τ
  idle : τ → Prop
  busy : τ → Prop
  leads : τ → τ → Prop
  leads_refl : ∀ x, leads x x
  leads_trans : ∀ {x y z}, leads x y → leads y z → leads x z

namespace Program

variable {σ τ α β : Type}

/-- How a task ends: without the lock. -/
def Unheld (_ : Outcome α) (m : Option τ) : Prop := m = none

/-- A program that obeys a guard, and what holds when it ends. It begins and ends without the lock (`none`), or with the lock and
the part as it is then. -/
def Obeys (g : Guard σ τ) : {α : Type} → Program σ α → (Outcome α → Option τ → Prop) → Option τ → Prop
  | _, .done o, post, m => post o m
  | _, .act f next, post, m =>
    match m with
    | none => ∀ s, g.part (f s) = g.part s ∧ (next s).Obeys g post none
    | some x => ∀ s, g.part s = x → g.leads x (g.part (f s)) ∧ (next s).Obeys g post (some (g.part (f s)))
  | _, .await w next, post, m =>
    match m with
    | none =>
      if w = .lock g.lock then
        (∀ x, g.idle x → (next (.value ())).Obeys g post (some x)) ∧
          ∀ o, (∀ u, o ≠ .value u) → (next o).Obeys g post none
      else ∀ o, (next o).Obeys g post none
    | some x => w ≠ .lock g.lock ∧ g.busy x ∧ ∀ o, (next o).Obeys g post (some x)
  | _, .release l next, post, m =>
    if l = g.lock then ∃ x, m = some x ∧ g.idle x ∧ next.Obeys g post none else next.Obeys g post m
  | _, .spawn body next, post, m => body.Obeys g Unheld none ∧ ∀ t, (next t).Obeys g post m
  | _, .cancel _ next, post, m => next.Obeys g post m
  | _, .hasEnded _ next, post, m => ∀ b, (next b).Obeys g post m

variable {g : Guard σ τ}

/-- A program followed by another obeys a guard if both do, the second from whatever holds where the first ends. -/
theorem Obeys.andThen {p : Program σ α} {next : Outcome α → Program σ β} {mid : Outcome α → Option τ → Prop}
    {post : Outcome β → Option τ → Prop} {m : Option τ} (hp : p.Obeys g mid m)
    (hn : ∀ o m, mid o m → (next o).Obeys g post m) : (p.andThen next).Obeys g post m := by
  induction p generalizing m with
  | done o => exact hn o m hp
  | act f k ih =>
    cases m with
    | none => exact fun s => ⟨(hp s).1, ih s (hp s).2 hn⟩
    | some x => exact fun s hs => ⟨(hp s hs).1, ih s (hp s hs).2 hn⟩
  | await w k ih =>
    cases m with
    | none =>
      simp only [Program.andThen, Obeys] at hp ⊢
      split at hp
      · next hw =>
        rw [if_pos hw]
        exact ⟨fun x hx => ih _ (hp.1 x hx) hn, fun o ho => ih o (hp.2 o ho) hn⟩
      · next hw =>
        rw [if_neg hw]
        exact fun o => ih o (hp o) hn
    | some x => exact ⟨hp.1, hp.2.1, fun o => ih o (hp.2.2 o) hn⟩
  | release l k ih =>
    simp only [Program.andThen, Obeys] at hp ⊢
    split at hp
    · next hl =>
      rw [if_pos hl]
      obtain ⟨x, hm, hx, hk⟩ := hp
      exact ⟨x, hm, hx, ih hk hn⟩
    · next hl =>
      rw [if_neg hl]
      exact ih hp hn
  | spawn body k _ ih => exact ⟨hp.1, fun t => ih t (hp.2 t) hn⟩
  | cancel t k ih => exact ih hp hn
  | hasEnded t k ih => exact fun b => ih b (hp b) hn

/-- After a wait for anything but the lock of the guard, a program knows what it knew. -/
theorem Obeys.of_await {w : Wait} {next : Outcome Unit → Program σ α} {post : Outcome α → Option τ → Prop} {m : Option τ}
    (h : (Program.await w next).Obeys g post m) (hw : w ≠ .lock g.lock) (o : Outcome Unit) : (next o).Obeys g post m := by
  cases m with
  | none =>
    simp only [Obeys, if_neg hw] at h
    exact h o
  | some x => exact h.2.2 o

/-- A program waits for the lock of the guard only without it, and may or may not get it. -/
theorem Obeys.of_await_lock {next : Outcome Unit → Program σ α} {post : Outcome α → Option τ → Prop} {m : Option τ}
    (h : (Program.await (.lock g.lock) next).Obeys g post m) :
    m = none ∧ (∀ x, g.idle x → (next (.value ())).Obeys g post (some x)) ∧
      ∀ o, (∀ u, o ≠ .value u) → (next o).Obeys g post none := by
  cases m with
  | none =>
    simp only [Obeys, if_pos] at h
    exact ⟨rfl, h⟩
  | some x => exact absurd rfl h.1

/-- A program that leaves the part and the lock alone obeys, with the lock or without it. -/
theorem Obeys.of_keeps {p : Program σ α} (hk : p.Keeps g.part) (hs : p.Shuns g.lock) {post : Outcome α → Option τ → Prop}
    {m : Option τ} (hm : ∀ x, m = some x → g.busy x) (hpost : ∀ o, post o m) : p.Obeys g post m := by
  induction p generalizing m with
  | done o => exact hpost o
  | act f k ih =>
    cases m with
    | none => exact fun s => ⟨hk.1 s, ih s (hk.2 s) (hs s) hm hpost⟩
    | some x =>
      intro s hx
      have hkeep : g.part (f s) = x := (hk.1 s).trans hx
      rw [hkeep]
      exact ⟨g.leads_refl x, ih s (hk.2 s) (hs s) hm hpost⟩
  | await w k ih =>
    have hall : ∀ o, (k o).Obeys g post m := fun o => ih o (hk o) (hs.2 o) hm hpost
    cases m with
    | none =>
      simp only [Obeys, if_neg hs.1]
      exact hall
    | some x => exact ⟨hs.1, hm x rfl, hall⟩
  | release l k ih =>
    simp only [Obeys, if_neg hs.1]
    exact ih hk hs.2 hm hpost
  | spawn body k ihb ih => exact ⟨ihb hk.1 hs.1 nofun fun _ => rfl, fun t => ih t (hk.2 t) (hs.2 t) hm hpost⟩
  | cancel t k ih => exact ih hk hs hm hpost
  | hasEnded t k ih => exact fun b => ih b (hk b) (hs b) hm hpost

/-- Without the lock one thing is done after another. -/
theorem Obeys.bind {p : Program σ α} {next : α → Program σ β} (hp : p.Obeys g Unheld none)
    (hn : ∀ a, (next a).Obeys g Unheld none) : (p >>= next).Obeys g Unheld none := by
  refine Obeys.andThen hp fun o m hm => ?_
  obtain rfl : m = none := hm
  cases o with
  | value a => exact hn a
  | failed f => rfl
  | cancelled => rfl

/-- What is put together from pieces that obey, obeys. -/
theorem obeys_built {piece : ∀ α : Type, Program σ α → Prop} (hpiece : ∀ α p, piece α p → p.Obeys g Unheld none)
    {p : Program σ α} (hp : p.Built piece) : p.Obeys g Unheld none := by
  induction hp with
  | piece hp => exact hpiece _ _ hp
  | start _ _ hbody hnext => exact ⟨hbody, hnext⟩
  | andThen _ _ hp hnext =>
    refine hp.andThen fun o m hm => ?_
    obtain rfl : m = none := hm
    exact hnext o

/-- Reading changes nothing, with the lock and without it. -/
theorem Obeys.read {f : σ → α} {next : α → Program σ β} {post : Outcome β → Option τ → Prop} {m : Option τ}
    (hn : ∀ a, (next a).Obeys g post m) : (Program.read f >>= next).Obeys g post m := by
  cases m with
  | none => exact fun s => ⟨rfl, hn (f s)⟩
  | some x =>
    intro s hs
    subst hs
    exact ⟨g.leads_refl _, hn (f s)⟩

/-- Work that is done under the lock, and that leaves the part idle. -/
theorem Obeys.withLock {body : Program σ α} {post : Outcome α → Option τ → Prop}
    (hbody : ∀ x, g.idle x → body.Obeys g (fun _ m => ∃ y, m = some y ∧ g.idle y) (some x)) (hpost : ∀ o, post o none) :
    (Program.withLock g.lock body).Obeys g post none := by
  simp only [Program.withLock, Obeys, if_pos]
  refine ⟨fun x hx => (hbody x hx).andThen fun o m hm => ?_, fun o ho => ?_⟩
  · obtain ⟨y, rfl, hy⟩ := hm
    simp only [Obeys, if_pos]
    exact ⟨y, rfl, hy, hpost o⟩
  · cases o with
    | value u => exact absurd rfl (ho u)
    | failed f => exact hpost _
    | cancelled => exact hpost _

end Program

namespace Pool

variable {σ τ α : Type} {g : Guard σ τ}

/-- What a task knows of the part: the holder of the lock knows it, the others do not. -/
def known (g : Guard σ τ) (p : Pool σ) (holder : Option TaskId) (t : TaskId) : Option τ :=
  if holder = some t then some (g.part p.state) else none

/-- A pool whose tasks obey a guard: `holder` has the lock, `current` is having its turn. -/
structure Guarded (g : Guard σ τ) (p : Pool σ) (current holder : Option TaskId) : Prop where
  held : (p.locks g.lock).held = holder.isSome
  idle : holder = none → g.idle (g.part p.state)
  present : ∀ t, holder = some t → some t = current ∨ ∃ on wake next, p.task? t = some (.waiting on wake next)
  obeys : ∀ t on wake next, p.task? t = some (.waiting on wake next) →
    (Program.await on next).Obeys g Program.Unheld (known g p holder t)

namespace Guarded

variable {p q : Pool σ} {current holder : Option TaskId}

theorem known_self (t : TaskId) : known g p (some t) t = some (g.part p.state) := if_pos rfl

theorem known_none (t : TaskId) : known g p none t = none := if_neg nofun

theorem known_of_ne {t u : TaskId} (h : u ≠ t) : known g p (some u) t = none := if_neg fun he => h (Option.some.inj he)

/-- While nobody else holds the lock, a change of the part changes what nobody knows. -/
theorem known_eq (hq : holder = none ∨ g.part q.state = g.part p.state) (t : TaskId) :
    known g q holder t = known g p holder t := by
  rcases hq with rfl | hq
  · rw [known_none, known_none]
  · rw [known, known, hq]

/-- A lock that is free has no holder. -/
theorem holder_eq_none (h : Guarded g p current holder) (hheld : (p.locks g.lock).held = false) : holder = none := by
  have hsome : holder.isSome = false := h.held.symm.trans hheld
  simpa using hsome

theorem alike (h : Guarded g p current holder) (ha : Alike p q) : Guarded g q current holder := by
  have hpart : g.part q.state = g.part p.state := congrArg g.part ha.state
  refine ⟨(ha.held _).trans h.held, fun hn => hpart ▸ h.idle hn, fun t ht => ?_, fun t on wake next hw => ?_⟩
  · rcases h.present t ht with hc | ⟨on, wake, next, hw⟩
    · exact Or.inl hc
    · obtain ⟨wake', hw'⟩ := ha.symm.waiting hw
      exact Or.inr ⟨on, wake', next, hw'⟩
  · obtain ⟨wake', hw'⟩ := ha.waiting hw
    rw [known_eq (Or.inr hpart)]
    exact h.obeys t on wake' next hw'

/-- What happens to other locks does not matter. -/
theorem setLock (h : Guarded g p current holder) {l : LockId} (hl : l ≠ g.lock) (lock : Lock) :
    Guarded g (p.setLock l lock) current holder :=
  ⟨by rw [locks_setLock, if_neg (Ne.symm hl)]; exact h.held, h.idle, h.present, h.obeys⟩

/-- The part may change from outside only in ways that leave it as it is. -/
theorem change (h : Guarded g p current holder) {f : σ → σ} (hf : g.part (f p.state) = g.part p.state) :
    Guarded g { p with state := f p.state } current holder := by
  refine ⟨h.held, fun hn => ?_, h.present, fun t on wake next hw => ?_⟩
  · exact hf.symm ▸ h.idle hn
  · rw [known_eq (p := p) (Or.inr hf)]
    exact h.obeys t on wake next hw

/-- The holder may change the part during its turn. -/
theorem changeHeld {t : TaskId} (h : Guarded g p (some t) (some t)) (ht : p.task? t = some .running) (f : σ → σ) :
    Guarded g { p with state := f p.state } (some t) (some t) := by
  refine ⟨h.held, nofun, fun u hu => Or.inl hu.symm, fun u on wake next hw => ?_⟩
  have hu : t ≠ u := ne_of_running ht hw
  have ho := h.obeys u on wake next hw
  rw [known_of_ne hu] at ho ⊢
  exact ho

/-- The task whose turn it is takes the free lock. -/
theorem take {t : TaskId} (h : Guarded g p (some t) none) (ht : p.task? t = some .running) (line : List (TaskId × Place)) :
    Guarded g (p.setLock g.lock { held := true, line }) (some t) (some t) := by
  refine ⟨by rw [locks_setLock, if_pos rfl]; rfl, nofun, fun u hu => Or.inl hu.symm, fun u on wake next hw => ?_⟩
  have hu : t ≠ u := ne_of_running ht hw
  have ho := h.obeys u on wake next hw
  rw [known_none] at ho
  rw [known_of_ne hu]
  exact ho

/-- The holder gives the lock back during its turn, with the part idle. -/
theorem release {t : TaskId} (h : Guarded g p (some t) (some t)) (ht : p.task? t = some .running)
    (hidle : g.idle (g.part p.state)) : Guarded g (p.unlock g.lock) (some t) none := by
  have hfree : Guarded g (p.setLock g.lock { p.locks g.lock with held := false }) (some t) none := by
    refine ⟨by rw [locks_setLock, if_pos rfl]; rfl, fun _ => hidle, nofun, fun u on wake next hw => ?_⟩
    have hu : t ≠ u := ne_of_running ht hw
    have ho := h.obeys u on wake next hw
    rw [known_of_ne hu] at ho
    rw [known_none]
    exact ho
  exact hfree.alike (unlock_alike p g.lock)

/-- Giving another lock back is nothing to a guard. -/
theorem unlockOther (h : Guarded g p current holder) {l : LockId} (hl : l ≠ g.lock) : Guarded g (p.unlock l) current holder :=
  (h.setLock hl _).alike (unlock_alike p l)

/-- A task is made whose program obeys. -/
theorem spawn (h : Guarded g p current holder) (hcur : ∀ t, current = some t → p.task? t = some .running) {body : Program σ Unit}
    (hbody : body.Obeys g Program.Unheld none) : Guarded g (p.spawn body).2 current holder := by
  refine ⟨h.held, h.idle, fun t ht => ?_, fun t on wake next hw => ?_⟩
  · rcases h.present t ht with hc | ⟨on, wake, next, hw⟩
    · exact Or.inl hc
    · exact Or.inr ⟨on, wake, next, spawn_task? hw body⟩
  · have hknown : known g (p.spawn body).2 holder t = known g p holder t := rfl
    rw [hknown]
    rcases spawn_task?_cases hw with hold | hnew
    · exact h.obeys t on wake next hold
    · obtain ⟨rfl, rfl, rfl⟩ := hnew
      have hne : known g p holder p.tasks.length = none := by
        refine if_neg fun hh => ?_
        have hlt : ∀ s, p.task? p.tasks.length ≠ some s := by
          intro s hs
          exact absurd (List.getElem?_eq_some_iff.1 hs).1 (Nat.lt_irrefl _)
        rcases h.present _ hh with hc | ⟨_, _, _, hw'⟩
        · exact hlt _ (hcur _ hc.symm)
        · exact hlt _ hw'
      rw [hne]
      simp only [Program.Obeys]
      intro o
      cases o with
      | value u => exact hbody
      | failed f => rfl
      | cancelled => rfl

/-- A wait that is over at once: another lock, the end of a task, or the lock of the guard, which the task then holds. -/
theorem atOnce {t : TaskId} (h : Guarded g p (some t) holder) (ht : p.task? t = some .running) {w : Wait} {o : Outcome Unit}
    (hw : p.atOnce? w = some (o, q)) {next : Outcome Unit → Program σ α} {post : Outcome α → Option τ → Prop}
    (hn : (Program.await w next).Obeys g post (known g p holder t)) :
    ∃ holder', Guarded g q (some t) holder' ∧ q.state = p.state ∧ (next o).Obeys g post (known g q holder' t) := by
  cases w with
  | turn => cases hw
  | signal s => cases hw
  | task u =>
    obtain ⟨o', -, he⟩ := Option.map_eq_some_iff.1 hw
    obtain ⟨rfl, rfl⟩ := Prod.mk.inj he
    exact ⟨holder, h, rfl, hn.of_await (by simp) o'⟩
  | lock l =>
    simp only [Pool.atOnce?] at hw
    split at hw
    · next hfree =>
      obtain ⟨rfl, rfl⟩ := Prod.mk.inj (Option.some.inj hw)
      by_cases hl : l = g.lock
      · subst hl
        have hheld : (p.locks g.lock).held = false := by
          simp only [Lock.isFree, Bool.and_eq_true, Bool.not_eq_true'] at hfree
          exact hfree.1
        obtain rfl : holder = none := h.holder_eq_none hheld
        refine ⟨some t, h.take ht _, rfl, ?_⟩
        rw [known_self]
        exact hn.of_await_lock.2.1 _ (h.idle rfl)
      · exact ⟨holder, h.setLock hl _, rfl, hn.of_await (fun he => hl (Wait.lock.inj he)) _⟩
    · cases hw

/-- A program that obeys, run up to its next stop. -/
theorem run (q : Program σ α) {post : Outcome α → Option τ → Prop} {t : TaskId} (h : Guarded g p (some t) holder)
    (ht : p.task? t = some .running) (hq : q.Obeys g post (known g p holder t)) :
    ∃ holder', Guarded g (run q p).2 (some t) holder' ∧ g.leads (g.part p.state) (g.part (Pool.run q p).2.state) ∧
      match (Pool.run q p).1 with
      | .ended o => post o (known g (Pool.run q p).2 holder' t)
      | .waiting on next => (Program.await on next).Obeys g post (known g (Pool.run q p).2 holder' t) := by
  induction q generalizing p holder with
  | done o => exact ⟨holder, h, g.leads_refl _, hq⟩
  | act f next ih =>
    by_cases hh : holder = some t
    · subst hh
      rw [known_self] at hq
      obtain ⟨hlead, hnext⟩ := hq p.state rfl
      obtain ⟨holder', h', hlead', hstop⟩ := ih p.state (h.changeHeld ht f) ht (by rw [known_self]; exact hnext)
      exact ⟨holder', h', g.leads_trans hlead hlead', hstop⟩
    · rw [known, if_neg hh] at hq
      obtain ⟨hkeep, hnext⟩ := hq p.state
      obtain ⟨holder', h', hlead, hstop⟩ := ih p.state (h.change hkeep) ht (by rw [known, if_neg hh]; exact hnext)
      exact ⟨holder', h', hkeep ▸ hlead, hstop⟩
  | await w next ih =>
    unfold Pool.run
    split
    · next o p' hw =>
      obtain ⟨holder', h', hstate, hnext⟩ := h.atOnce ht hw hq
      obtain ⟨holder'', h'', hlead, hstop⟩ := ih o h' ((atOnce?_task? hw t).trans ht) hnext
      exact ⟨holder'', h'', hstate ▸ hlead, hstop⟩
    · exact ⟨holder, h, g.leads_refl _, hq⟩
  | release l next ih =>
    simp only [Program.Obeys] at hq
    have ht' : (p.unlock l).task? t = some .running := (unlock_alike p l).running ht
    have hstate : (p.unlock l).state = p.state := (unlock_alike p l).state
    split at hq
    · next hl =>
      subst hl
      obtain ⟨x, hx, hidle, hnext⟩ := hq
      have hh : holder = some t := by
        by_contra hne
        rw [known, if_neg hne] at hx
        cases hx
      subst hh
      rw [known_self] at hx
      obtain rfl := Option.some.inj hx
      obtain ⟨holder', h', hlead, hstop⟩ := ih (h.release ht hidle) ht' (by rw [known_none]; exact hnext)
      exact ⟨holder', h', hstate ▸ hlead, hstop⟩
    · next hl =>
      have hk : known g (p.unlock l) holder t = known g p holder t := by rw [known, known, hstate]
      obtain ⟨holder', h', hlead, hstop⟩ := ih (h.unlockOther hl) ht' (hk ▸ hq)
      exact ⟨holder', h', hstate ▸ hlead, hstop⟩
  | spawn body next _ ih =>
    have hcur : ∀ u, some t = some u → p.task? u = some .running := by
      rintro u hu
      exact Option.some.inj hu ▸ ht
    exact ih _ (h.spawn hcur hq.1) (spawn_task? ht body) (hq.2 _)
  | cancel u next ih =>
    have ha := cancel_alike p u
    have hk : known g (p.cancel u) holder t = known g p holder t := by rw [known, known, ha.state]
    obtain ⟨holder', h', hlead, hstop⟩ := ih (h.alike ha) (ha.running ht) (hk ▸ hq)
    exact ⟨holder', h', ha.state ▸ hlead, hstop⟩
  | hasEnded u next ih => exact ih _ h ht (hq _)

/-- A task that was waiting begins its turn. -/
theorem setRunning (h : Guarded g p none holder) (t : TaskId) : Guarded g (p.setTask t .running) (some t) holder := by
  refine ⟨h.held, h.idle, fun u hu => ?_, fun u on' wake' next' hw => ?_⟩
  · by_cases hut : t = u
    · exact Or.inl (hut ▸ rfl)
    · rcases h.present u hu with hc | ⟨on', wake', next', hw⟩
      · cases hc
      · exact Or.inr ⟨on', wake', next', (task?_setTask_of_ne hut _).trans hw⟩
  · rcases task?_setTask_cases hw with ⟨-, he⟩ | ⟨-, hw⟩
    · cases he
    · exact h.obeys u on' wake' next' hw

/-- A task comes back from its wait for the lock of the guard: it holds it then, or it has left the line. -/
theorem beginTurn_lock {t : TaskId} {o : Outcome Unit} {next : Outcome Unit → Program σ Unit} (ho : Orderly p)
    (h : Guarded g p none holder) (ht : p.task? t = some (.waiting (.lock g.lock) (some o) next))
    (hrun : Guarded g (Pool.setTask { p with ready := p.ready.erase t } t .running) (some t) holder) :
    ∃ holder', Guarded g (p.beginTurn t (.lock g.lock) o) (some t) holder' ∧
      (p.beginTurn t (.lock g.lock) o).state = p.state ∧
      (next o).Obeys g Program.Unheld (known g (p.beginTurn t (.lock g.lock) o) holder' t) := by
  have hrunning : (Pool.setTask { p with ready := p.ready.erase t } t .running).task? t = some .running :=
    task?_setTask_self (p := { p with ready := p.ready.erase t }) ht _
  obtain ⟨hk, htaken, hleft⟩ := (h.obeys t _ _ next ht).of_await_lock
  by_cases hv : ∃ u, o = .value u
  · obtain ⟨u, rfl⟩ := hv
    obtain rfl : holder = none := h.holder_eq_none (ho.free_of_woken ht).1
    refine ⟨some t, hrun.take hrunning _, rfl, ?_⟩
    rw [known_self]
    exact htaken _ (h.idle rfl)
  · have hne : ∀ u, o ≠ .value u := fun u hu => hv ⟨u, hu⟩
    have ha := leaveLine_alike (p := Pool.setTask { p with ready := p.ready.erase t } t .running) hne t g.lock
    refine ⟨holder, hrun.alike ha, ha.state, ?_⟩
    have hk' : known g (p.beginTurn t (.lock g.lock) o) holder t = known g p holder t :=
      known_eq (Or.inr (congrArg g.part ha.state)) t
    rw [hk', hk]
    exact hleft o hne

/-- A task comes back from its wait: it knows the part if it took the lock of the guard. -/
theorem beginTurn {t : TaskId} {on : Wait} {o : Outcome Unit} {next : Outcome Unit → Program σ Unit} (ho : Orderly p)
    (h : Guarded g p none holder) (ht : p.task? t = some (.waiting on (some o) next)) :
    ∃ holder', Guarded g (p.beginTurn t on o) (some t) holder' ∧ (p.beginTurn t on o).state = p.state ∧
      (next o).Obeys g Program.Unheld (known g (p.beginTurn t on o) holder' t) := by
  have hready : Guarded g ({ p with ready := p.ready.erase t } : Pool σ) none holder := ⟨h.held, h.idle, h.present, h.obeys⟩
  have hrun := hready.setRunning t
  by_cases hg : on = .lock g.lock
  · subst hg
    exact h.beginTurn_lock ho ht hrun
  · have hnext : (next o).Obeys g Program.Unheld (known g p holder t) := (h.obeys t on _ next ht).of_await hg o
    cases on with
    | turn => exact ⟨holder, hrun, rfl, hnext⟩
    | task u => exact ⟨holder, hrun, rfl, hnext⟩
    | signal s => exact ⟨holder, hrun, rfl, hnext⟩
    | lock l =>
      have hl : l ≠ g.lock := fun he => hg (he ▸ rfl)
      by_cases hv : ∃ u, o = .value u
      · obtain ⟨u, rfl⟩ := hv
        exact ⟨holder, hrun.setLock hl _, rfl, hnext⟩
      · have hne : ∀ u, o ≠ .value u := fun u hu => hv ⟨u, hu⟩
        have ha := leaveLine_alike (p := Pool.setTask { p with ready := p.ready.erase t } t .running) hne t l
        refine ⟨holder, hrun.alike ha, ha.state, ?_⟩
        have hk : known g (p.beginTurn t (.lock l) o) holder t = known g p holder t :=
          known_eq (Or.inr (congrArg g.part ha.state)) t
        rw [hk]
        exact hnext

/-- A task that does not hold the lock ends. -/
theorem finish {t : TaskId} (h : Guarded g p (some t) holder) (hk : known g p holder t = none) (o : Outcome Unit) :
    Guarded g (p.finish t o) none holder := by
  have hne : holder ≠ some t := by
    rintro rfl
    rw [known_self] at hk
    cases hk
  have hset : Guarded g (p.setTask t (.ended o)) none holder := by
    refine ⟨h.held, h.idle, fun u hu => ?_, fun u on wake next hw => ?_⟩
    · rcases h.present u hu with hc | ⟨on, wake, next, hw⟩
      · exact absurd (hu.trans hc) hne
      · have hut : t ≠ u := by
          rintro rfl
          exact hne hu
        exact Or.inr ⟨on, wake, next, (task?_setTask_of_ne hut _).trans hw⟩
    · rcases task?_setTask_cases hw with ⟨-, he⟩ | ⟨-, hw⟩
      · cases he
      · exact h.obeys u on wake next hw
  exact hset.alike (wakeAll_alike _ o _)

/-- A task lies down to wait, with or without the lock. -/
theorem setWaiting {t : TaskId} {on : Wait} {next : Outcome Unit → Program σ Unit} (h : Guarded g p (some t) holder)
    (ht : p.task? t = some .running) (hn : (Program.await on next).Obeys g Program.Unheld (known g p holder t))
    (wake : Option (Outcome Unit)) : Guarded g (p.setTask t (.waiting on wake next)) none holder := by
  refine ⟨h.held, h.idle, fun u hu => ?_, fun u on' wake' next' hw => ?_⟩
  · by_cases hut : t = u
    · subst hut
      exact Or.inr ⟨on, wake, next, task?_setTask_self ht _⟩
    · rcases h.present u hu with hc | ⟨on', wake', next', hw⟩
      · exact absurd (Option.some.inj hc).symm hut
      · exact Or.inr ⟨on', wake', next', (task?_setTask_of_ne hut _).trans hw⟩
  · rcases task?_setTask_cases hw with ⟨rfl, he⟩ | ⟨-, hw⟩
    · obtain ⟨rfl, -, rfl⟩ := TaskState.waiting.inj he
      exact hn
    · exact h.obeys u on' wake' next' hw

/-- A task may stop to wait if it goes on to obey from there with what it knows. -/
theorem layDown {t : TaskId} {on : Wait} {next : Outcome Unit → Program σ Unit} (h : Guarded g p (some t) holder)
    (ht : p.task? t = some .running) (hn : (Program.await on next).Obeys g Program.Unheld (known g p holder t)) :
    Guarded g (p.layDown t on next) none holder := by
  cases on with
  | turn =>
    have hw := h.setWaiting ht hn (some (.value ()))
    exact ⟨hw.held, hw.idle, hw.present, hw.obeys⟩
  | task u =>
    have hw := h.setWaiting ht hn none
    exact ⟨hw.held, hw.idle, hw.present, hw.obeys⟩
  | signal s =>
    have hw := h.setWaiting ht hn none
    exact ⟨hw.held, hw.idle, hw.present, hw.obeys⟩
  | lock l =>
    have hw := (h.alike (setLock_alike p l ((p.locks l).line ++ [(t, .waiting)]))).setWaiting ht hn none
    exact ⟨hw.held, hw.idle, hw.present, hw.obeys⟩

/-- A turn keeps the guard. -/
theorem resume (ho : Orderly p) (h : Guarded g p none holder) (t : TaskId) :
    ∃ holder', Guarded g (p.resume t) none holder' ∧ g.leads (g.part p.state) (g.part (p.resume t).state) := by
  rcases resume_cases p t with ⟨on, o, next, ht, hresume⟩ | hresume
  · obtain ⟨holder₁, h₁, hstate₁, hnext⟩ := h.beginTurn ho ht
    obtain ⟨holder₂, h₂, hlead, hstop⟩ := h₁.run (next o) (beginTurn_task? ht) hnext
    have hstill := run_running (next o) (beginTurn_task? ht)
    rw [hresume]
    rw [hstate₁] at hlead
    cases hs : (Pool.run (next o) (p.beginTurn t on o)).1 with
    | ended o' =>
      rw [hs] at hstop
      refine ⟨holder₂, h₂.finish hstop o', ?_⟩
      rwa [endTurn_state]
    | waiting on' next' =>
      rw [hs] at hstop
      refine ⟨holder₂, h₂.layDown hstill hstop, ?_⟩
      rwa [endTurn_state]
  · rw [hresume]
    exact ⟨holder, h, g.leads_refl _⟩

end Guarded

/-- A move that a guard allows: tasks that are made obey, and the part does not change from outside. -/
def Allowed (g : Guard σ τ) : Move σ → Prop
  | .start body => body.Obeys g Program.Unheld none
  | .change f => ∀ s, g.part (f s) = g.part s
  | _ => True

/-- A guard allows the moves of runs whose tasks are put together from pieces that obey, and where nothing else changes what the part is
read from. -/
theorem allowed_of_within {υ : Type} {piece : ∀ α : Type, Program σ α → Prop} {whole : σ → υ} {f : υ → τ}
    (hpiece : ∀ α p, piece α p → p.Obeys g Program.Unheld none) (hf : ∀ s, g.part s = f (whole s)) {m : Move σ}
    (hm : m.Within piece whole) : Allowed g m := by
  cases m with
  | start body => exact Program.obeys_built hpiece hm
  | change change => exact fun s => by rw [hf, hf, hm s]
  | turn t => exact trivial
  | arrival t => exact trivial
  | cancel t => exact trivial

/-- Every move keeps the guard, and makes of the part only what the holder may make of it. -/
theorem Guarded.step {p : Pool σ} {holder : Option TaskId} (ho : Orderly p) (h : Guarded g p none holder) {m : Move σ}
    (hm : Allowed g m) : ∃ holder', Guarded g (p.step m) none holder' ∧ g.leads (g.part p.state) (g.part (p.step m).state) := by
  cases m with
  | turn t => exact h.resume ho t
  | arrival t => exact ⟨holder, h.alike (arrive_alike p t), (arrive_alike p t).state ▸ g.leads_refl _⟩
  | cancel t => exact ⟨holder, h.alike (cancel_alike p t), (cancel_alike p t).state ▸ g.leads_refl _⟩
  | start body => exact ⟨holder, h.spawn nofun hm, g.leads_refl _⟩
  | change f => exact ⟨holder, h.change (hm p.state), (hm p.state).symm ▸ g.leads_refl _⟩

/-- Every run keeps the guard. -/
theorem Reached.guarded {start : σ → Prop} {ok : Move σ → Prop} (hstart : ∀ s, start s → g.idle (g.part s))
    (hok : ∀ m, ok m → Allowed g m) {p : Pool σ} (hp : Reached start ok p) : Orderly p ∧ ∃ holder, Guarded g p none holder := by
  induction hp with
  | start hs => exact ⟨orderly_empty _, none, rfl, fun _ => hstart _ hs, nofun, nofun⟩
  | step _ hm ih =>
    obtain ⟨ho, holder, h⟩ := ih
    obtain ⟨holder', h', -⟩ := h.step ho (hok _ hm)
    exact ⟨ho.step _, holder', h'⟩

/-- Between turns the part is busy if the lock is held, and idle if it is not. -/
theorem Guarded.part {p : Pool σ} {holder : Option TaskId} (h : Guarded g p none holder) :
    ((p.locks g.lock).held = true → g.busy (g.part p.state)) ∧ ((p.locks g.lock).held = false → g.idle (g.part p.state)) := by
  refine ⟨fun hheld => ?_, fun hheld => h.idle (h.holder_eq_none hheld)⟩
  obtain ⟨t, rfl⟩ := Option.isSome_iff_exists.1 (h.held.symm.trans hheld)
  rcases h.present t rfl with hc | ⟨on, wake, next, hw⟩
  · cases hc
  · have ho := h.obeys t on wake next hw
    rw [known_self] at ho
    exact ho.2.1

end Pool

end SignedCall
