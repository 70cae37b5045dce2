import SignedCall.Proofs.Task.Moves

/-!
# The lines before the locks

In a pool where all tasks began as tasks do, every line before a lock is in order (`Orderly`): each task in it waits for that lock,
no task stands in it twice, and a task that was let in is the first in line and finds the lock free. No move disturbs the order,
whatever the tasks do (`Orderly.step`), so that a lock that a task takes is never held by another.
-/

namespace SignedCall

/-- Whether a place in line goes with how the task was woken. -/
def Place.Fits : Place → Option (Outcome Unit) → Prop
  | .waiting, wake => wake = none
  | .admitted, wake => wake = some (.value ()) ∨ wake = some .cancelled
  | .leaving, wake => wake = some .cancelled

namespace Pool

variable {σ : Type}

/-- A line where one task has another place. -/
def replaced (line : List (TaskId × Place)) (t : TaskId) (place : Place) : List (TaskId × Place) :=
  line.map fun e => if e.1 = t then (t, place) else e

theorem map_fst_replaced (line : List (TaskId × Place)) (t : TaskId) (place : Place) :
    (replaced line t place).map Prod.fst = line.map Prod.fst := by
  simp only [replaced, List.map_map]
  refine List.map_congr_left fun e _ => ?_
  by_cases h : e.1 = t <;> simp [h]

/-- In a line where one task has another place, every other task has its own. -/
theorem mem_replaced {line : List (TaskId × Place)} {t u : TaskId} {place a : Place} (h : (u, a) ∈ replaced line t place) :
    (u = t ∧ a = place) ∨ (u ≠ t ∧ (u, a) ∈ line) := by
  obtain ⟨e, he, heq⟩ := List.mem_map.1 h
  split at heq
  · obtain ⟨rfl, rfl⟩ := Prod.mk.inj heq
    exact Or.inl ⟨rfl, rfl⟩
  · next hne =>
    subst heq
    exact Or.inr ⟨hne, he⟩

/-- Every task in line stays in it when one of them gets another place. -/
theorem mem_replaced_of_mem {line : List (TaskId × Place)} {t u : TaskId} {place a : Place} (h : (u, a) ∈ line) :
    ∃ b, (u, b) ∈ replaced line t place := by
  by_cases hu : u = t
  · exact ⟨place, List.mem_map.2 ⟨(u, a), h, by simp [hu]⟩⟩
  · exact ⟨a, List.mem_map.2 ⟨(u, a), h, by simp [hu]⟩⟩

/-- A task that does not stand in a line has no place to change. -/
theorem replaced_of_not_mem {line : List (TaskId × Place)} {t : TaskId} (h : t ∉ line.map Prod.fst) (place : Place) :
    replaced line t place = line := by
  refine (List.map_congr_left fun e he => ?_).trans (List.map_id line)
  rw [if_neg, id]
  rintro rfl
  exact h (List.mem_map_of_mem he)

/-- A pool whose lines are in order. -/
structure Orderly (p : Pool σ) : Prop where
  nodup : ∀ l, ((p.locks l).line.map Prod.fst).Nodup
  waits : ∀ l t place, (t, place) ∈ (p.locks l).line →
    ∃ wake next, p.task? t = some (.waiting (.lock l) wake next) ∧ place.Fits wake
  queued : ∀ l t wake next, p.task? t = some (.waiting (.lock l) wake next) → ∃ place, (t, place) ∈ (p.locks l).line
  admitted : ∀ l t, (t, .admitted) ∈ (p.locks l).line →
    (p.locks l).held = false ∧ (p.locks l).line.head? = some (t, .admitted)

namespace Orderly

/-- The lines stay in order when the tasks that wait for a lock stay as they are. -/
theorem of_tasks {p q : Pool σ} (h : Orderly p) (hl : q.locks = p.locks)
    (ht : ∀ t l wake next, q.task? t = some (.waiting (.lock l) wake next) ↔ p.task? t = some (.waiting (.lock l) wake next)) :
    Orderly q := by
  refine ⟨?_, ?_, ?_, ?_⟩
  · simpa only [hl] using h.nodup
  · intro l t place hmem
    obtain ⟨wake, next, hw, hf⟩ := h.waits l t place (hl ▸ hmem)
    exact ⟨wake, next, (ht t l wake next).2 hw, hf⟩
  · intro l t wake next hw
    rw [hl]
    exact h.queued l t wake next ((ht t l wake next).1 hw)
  · simpa only [hl] using h.admitted

/-- The lines stay in order when one of them and one task change, which neither stands in another line nor waits there, and that line
is in order again. -/
theorem of_line {p q : Pool σ} (h : Orderly p) (t : TaskId) (l : LockId) (lock : Lock)
    (hlocks : ∀ k, q.locks k = if k = l then lock else p.locks k) (htask : ∀ u, u ≠ t → q.task? u = p.task? u)
    (hbefore : ∀ k place, (t, place) ∈ (p.locks k).line → k = l)
    (hafter : ∀ k wake next, q.task? t = some (.waiting (.lock k) wake next) → k = l)
    (hnodup : (lock.line.map Prod.fst).Nodup)
    (hwaits : ∀ u place, (u, place) ∈ lock.line → ∃ wake next, q.task? u = some (.waiting (.lock l) wake next) ∧ place.Fits wake)
    (hqueued : ∀ u wake next, q.task? u = some (.waiting (.lock l) wake next) → ∃ place, (u, place) ∈ lock.line)
    (hadmitted : ∀ u, (u, .admitted) ∈ lock.line → lock.held = false ∧ lock.line.head? = some (u, .admitted)) : Orderly q := by
  have hl : q.locks l = lock := by rw [hlocks, if_pos rfl]
  have hother : ∀ k, k ≠ l → q.locks k = p.locks k := fun k hk => by rw [hlocks, if_neg hk]
  refine ⟨fun k => ?_, fun k u place hmem => ?_, fun k u wake next hw => ?_, fun k u hmem => ?_⟩
  all_goals by_cases hk : k = l
  · subst hk
    exact hl ▸ hnodup
  · exact hother k hk ▸ h.nodup k
  · subst hk
    exact hwaits u place (hl ▸ hmem)
  · rw [hother k hk] at hmem
    have hu : u ≠ t := by
      rintro rfl
      exact hk (hbefore k place hmem)
    rw [htask u hu]
    exact h.waits k u place hmem
  · subst hk
    exact hl ▸ hqueued u wake next hw
  · have hu : u ≠ t := by
      rintro rfl
      exact hk (hafter k wake next hw)
    rw [hother k hk]
    exact h.queued k u wake next (htask u hu ▸ hw)
  · subst hk
    rw [hl] at hmem ⊢
    exact hadmitted u hmem
  · rw [hother k hk] at hmem ⊢
    exact h.admitted k u hmem

/-- The lines stay in order when a task that waits for no lock is replaced by another such. -/
theorem setTask {p : Pool σ} (h : Orderly p) {t : TaskId} {s : TaskState σ}
    (hp : ∀ l wake next, p.task? t ≠ some (.waiting (.lock l) wake next))
    (hs : ∀ l wake next, s ≠ .waiting (.lock l) wake next) : Orderly (p.setTask t s) := by
  refine h.of_tasks rfl fun u l wake next => ⟨fun hw => ?_, fun hw => ?_⟩
  · rcases task?_setTask_cases hw with ⟨-, he⟩ | ⟨-, hu⟩
    · exact absurd he.symm (hs l wake next)
    · exact hu
  · have hut : t ≠ u := by
      rintro rfl
      exact hp l wake next hw
    exact (task?_setTask_of_ne hut s).trans hw

/-- A task stands in no line but that of the lock it waits for. -/
theorem eq_of_mem {p : Pool σ} (h : Orderly p) {t : TaskId} {l k : LockId} {place : Place} {wake : Option (Outcome Unit)}
    {next : Outcome Unit → Program σ Unit} (hmem : (t, place) ∈ (p.locks k).line)
    (ht : p.task? t = some (.waiting (.lock l) wake next)) : k = l := by
  obtain ⟨wake', next', hw, -⟩ := h.waits k t place hmem
  rw [ht] at hw
  simp only [Option.some.injEq, TaskState.waiting.injEq, Wait.lock.injEq] at hw
  exact hw.1.symm

/-- The place of a task that waits for a lock goes with how it was woken. -/
theorem fits {p : Pool σ} (h : Orderly p) {t : TaskId} {l : LockId} {place : Place} {wake : Option (Outcome Unit)}
    {next : Outcome Unit → Program σ Unit} (ht : p.task? t = some (.waiting (.lock l) wake next))
    (hmem : (t, place) ∈ (p.locks l).line) : place.Fits wake := by
  obtain ⟨wake', next', hw, hf⟩ := h.waits l t place hmem
  rw [ht] at hw
  simp only [Option.some.injEq, TaskState.waiting.injEq, true_and] at hw
  exact hw.1 ▸ hf

/-- A task stands in a line once. -/
theorem place_eq {p : Pool σ} (h : Orderly p) {t : TaskId} {l : LockId} {a b : Place} (ha : (t, a) ∈ (p.locks l).line)
    (hb : (t, b) ∈ (p.locks l).line) : a = b := by
  have hn := List.inj_on_of_nodup_map (h.nodup l) ha hb rfl
  exact (Prod.mk.inj hn).2

/-- A task that is no longer waiting stands in no line. -/
theorem not_mem {p : Pool σ} (h : Orderly p) {t : TaskId} (ht : p.task? t = some .running) (l : LockId) (place : Place) :
    (t, place) ∉ (p.locks l).line := by
  intro hmem
  obtain ⟨wake, next, hw, -⟩ := h.waits l t place hmem
  rw [ht] at hw
  cases hw

/-! ## Waking -/

/-- Waking a task that does not wait for a lock. -/
theorem wake {p : Pool σ} (h : Orderly p) {t : TaskId} {o : Outcome Unit}
    (ht : ∀ l next, p.task? t ≠ some (.waiting (.lock l) none next)) : Orderly (p.wake t o) := by
  unfold Pool.wake
  split
  · next on next hw =>
    have hon : ∀ l, on ≠ .lock l := by
      rintro l rfl
      exact ht l next hw
    have hq : Orderly (p.setTask t (.waiting on (some o) next)) := by
      refine h.setTask (fun l wake next' hw' => ?_) (fun l wake next' hw' => ?_)
      · rw [hw] at hw'
        simp only [Option.some.injEq, TaskState.waiting.injEq] at hw'
        exact hon l hw'.1
      · simp only [TaskState.waiting.injEq] at hw'
        exact hon l hw'.1
    exact hq.of_tasks rfl fun _ _ _ _ => Iff.rfl
  · exact h

/-- Waking all of some tasks that do not wait for a lock. -/
theorem wakeAll {o : Outcome Unit} (ts : List TaskId) {p : Pool σ} (h : Orderly p)
    (hts : ∀ t ∈ ts, ∀ l wake next, p.task? t ≠ some (.waiting (.lock l) wake next)) :
    Orderly (ts.foldl (fun p u => p.wake u o) p) := by
  induction ts generalizing p with
  | nil => exact h
  | cons u ts ih =>
    refine ih (h.wake fun l next => hts u (by simp) l none next) fun t ht l wake next hw => ?_
    obtain ⟨wake', hw'⟩ := (wake_alike p u o).waiting hw
    exact hts t (by simp [ht]) l wake' next hw'

/-! ## Changing the place of a task -/

/-- A task in line gets another place and is woken to fit; only the first in line may be let in, to a free lock. -/
theorem replace {p : Pool σ} (h : Orderly p) {t : TaskId} {l : LockId} {wake : Option (Outcome Unit)}
    {next : Outcome Unit → Program σ Unit} (ht : p.task? t = some (.waiting (.lock l) wake next)) (place : Place)
    (wake' : Option (Outcome Unit)) (hf : place.Fits wake')
    (hadm : place = .admitted → (p.locks l).held = false ∧ ∃ a, (p.locks l).line.head? = some (t, a)) :
    Orderly ((p.setLock l { p.locks l with line := replaced (p.locks l).line t place }).setTask t
      (.waiting (.lock l) wake' next)) := by
  have htask : ∀ u, u ≠ t → ((p.setLock l { p.locks l with line := replaced (p.locks l).line t place }).setTask t
      (.waiting (.lock l) wake' next)).task? u = p.task? u := fun u hu => task?_setTask_of_ne (Ne.symm hu) _
  have hself : ((p.setLock l { p.locks l with line := replaced (p.locks l).line t place }).setTask t
      (.waiting (.lock l) wake' next)).task? t = some (.waiting (.lock l) wake' next) := task?_setTask_self (p := p.setLock l _) ht _
  refine h.of_line t l { p.locks l with line := replaced (p.locks l).line t place } (fun k => ?_) htask
    (fun k a hmem => h.eq_of_mem hmem ht) (fun k w n hw => ?_) ?_ (fun u a hmem => ?_) (fun u w n hw => ?_) (fun u hmem => ?_)
  · rw [locks_setTask, locks_setLock]
  · rw [hself] at hw
    simp only [Option.some.injEq, TaskState.waiting.injEq, Wait.lock.injEq] at hw
    exact hw.1.symm
  · rw [map_fst_replaced]
    exact h.nodup l
  · rcases mem_replaced hmem with ⟨rfl, rfl⟩ | ⟨hu, hmem⟩
    · exact ⟨wake', next, hself, hf⟩
    · rw [htask u hu]
      exact h.waits l u a hmem
  · have hold : ∃ w' n', p.task? u = some (.waiting (.lock l) w' n') := by
      by_cases hu : u = t
      · exact ⟨wake, next, hu ▸ ht⟩
      · exact ⟨w, n, htask u hu ▸ hw⟩
    obtain ⟨w', n', hold⟩ := hold
    obtain ⟨a, ha⟩ := h.queued l u w' n' hold
    exact mem_replaced_of_mem ha
  · simp only [replaced, List.head?_map]
    rcases mem_replaced hmem with ⟨rfl, hp⟩ | ⟨hu, hmem⟩
    · obtain ⟨hheld, a, ha⟩ := hadm hp.symm
      exact ⟨hheld, by simp [ha, hp]⟩
    · obtain ⟨hheld, hhead⟩ := h.admitted l u hmem
      exact ⟨hheld, by simp [hhead, hu]⟩

/-- Letting the first in line go for a free lock. -/
theorem callNext {p : Pool σ} (h : Orderly p) {l : LockId} (hl : (p.locks l).held = false) : Orderly (p.callNext l) := by
  unfold Pool.callNext
  split
  · next t rest hline =>
    obtain ⟨wake, next, ht, hf⟩ := h.waits l t .waiting (by simp [hline])
    obtain rfl : wake = none := hf
    have hrest : (t, Place.admitted) :: rest = replaced (p.locks l).line t .admitted := by
      have hnd := h.nodup l
      rw [hline, List.map_cons, List.nodup_cons] at hnd
      simpa [replaced, hline] using (replaced_of_not_mem hnd.1 .admitted).symm
    have hq := h.replace ht .admitted (some (.value ())) (Or.inl rfl)
      fun _ => ⟨hl, .waiting, by rw [hline, List.head?_cons]⟩
    rw [← hrest] at hq
    unfold Pool.wake
    rw [task?_setLock, ht]
    exact hq.of_tasks rfl fun _ _ _ _ => Iff.rfl
  · exact h

/-! ## Cancelling -/

/-- Cancelling a task that was woken already: its place in line stays. -/
theorem cancelWoken {p : Pool σ} (h : Orderly p) {t : TaskId} {on : Wait} {o : Outcome Unit}
    {next : Outcome Unit → Program σ Unit} (ht : p.task? t = some (.waiting on (some o) next)) :
    Orderly (p.setTask t (.waiting on (some .cancelled) next)) := by
  by_cases hon : ∃ l, on = .lock l
  · obtain ⟨l, rfl⟩ := hon
    obtain ⟨place, hmem⟩ := h.queued l t _ _ ht
    have hfit : place.Fits (some .cancelled) := by
      have hf := h.fits ht hmem
      cases place with
      | waiting => cases hf
      | admitted => exact Or.inr rfl
      | leaving => exact rfl
    have hsame : replaced (p.locks l).line t place = (p.locks l).line := by
      refine (List.map_congr_left fun e he => ?_).trans (List.map_id _)
      split
      · next hu =>
        subst hu
        exact congrArg (Prod.mk e.1) (h.place_eq hmem he)
      · rfl
    have hq := h.replace ht place (some .cancelled) hfit fun hp => by
      subst hp
      obtain ⟨hheld, hhead⟩ := h.admitted l t hmem
      exact ⟨hheld, .admitted, hhead⟩
    rw [hsame] at hq
    refine hq.of_tasks (funext fun k => ?_) fun _ _ _ _ => Iff.rfl
    rw [locks_setTask, locks_setTask, locks_setLock]
    split
    · next hk => rw [hk]
    · rfl
  · refine h.setTask (fun l wake next' hw => ?_) (fun l wake next' hw => ?_)
    · rw [ht] at hw
      simp only [Option.some.injEq, TaskState.waiting.injEq] at hw
      exact hon ⟨l, hw.1⟩
    · simp only [TaskState.waiting.injEq] at hw
      exact hon ⟨l, hw.1⟩

/-- A task that gives up its place in line and is woken for that. -/
theorem giveUp {p : Pool σ} (h : Orderly p) {t : TaskId} {l : LockId} {next : Outcome Unit → Program σ Unit}
    (ht : p.task? t = some (.waiting (.lock l) none next)) : Orderly ((p.giveUp t l).wake t .cancelled) := by
  have hq := h.replace ht .leaving (some .cancelled) rfl nofun
  unfold Pool.wake
  rw [show (p.giveUp t l).task? t = _ from ht]
  exact hq.of_tasks rfl fun _ _ _ _ => Iff.rfl

/-- A cancellation, and those that it is passed on to, keep the lines in order. -/
theorem cancelWithin (n : Nat) (t : TaskId) {p : Pool σ} (h : Orderly p) : Orderly (Pool.cancelWithin n t p) := by
  induction n generalizing t with
  | zero => exact h
  | succ n ih =>
    unfold Pool.cancelWithin
    split
    · next ht => exact h.cancelWoken ht
    · exact ih _
    · next ht => exact h.giveUp ht
    · next hlock ht =>
      refine h.wake fun l next' hw => ?_
      rw [ht] at hw
      simp only [Option.some.injEq, TaskState.waiting.injEq, true_and] at hw
      exact hlock l hw.1
    · exact h

theorem cancel {p : Pool σ} (h : Orderly p) (t : TaskId) : Orderly (p.cancel t) := h.cancelWithin _ _

theorem arrive {p : Pool σ} (h : Orderly p) (t : TaskId) : Orderly (p.arrive t) := by
  unfold Pool.arrive
  split
  · next s hs =>
    refine h.wake fun l next hw => ?_
    rw [Pool.blockedOn?, hw] at hs
    cases hs
  · exact h

/-! ## Taking a lock and giving it back -/

/-- A lock is taken or given back with nobody let in. -/
theorem setHeld {p : Pool σ} (h : Orderly p) {l : LockId} {held : Bool}
    (hl : ∀ t, (t, .admitted) ∈ (p.locks l).line → held = false) : Orderly (p.setLock l { p.locks l with held }) := by
  have hline : ∀ k, ((p.setLock l { p.locks l with held }).locks k).line = (p.locks k).line := by
    intro k
    rw [locks_setLock]
    split
    · next hk => rw [hk]
    · rfl
  refine ⟨fun k => ?_, fun k => ?_, fun k => ?_, fun k t hmem => ?_⟩
  · rw [hline]
    exact h.nodup k
  · rw [hline]
    exact h.waits k
  · rw [hline]
    exact h.queued k
  · rw [hline] at hmem ⊢
    rw [locks_setLock]
    split
    · next hk =>
      subst hk
      exact ⟨hl t hmem, (h.admitted k t hmem).2⟩
    · exact h.admitted k t hmem

/-- A free lock is taken at once. -/
theorem take {p : Pool σ} (h : Orderly p) {l : LockId} (hfree : (p.locks l).isFree = true) :
    Orderly (p.setLock l { p.locks l with held := true }) := by
  refine h.setHeld fun t hmem => ?_
  simp only [Lock.isFree, Bool.and_eq_true, List.all_eq_true, beq_iff_eq] at hfree
  exact nomatch hfree.2 _ hmem

/-- A lock is given back, and the first in line is let in. -/
theorem unlock {p : Pool σ} (h : Orderly p) (l : LockId) : Orderly (p.unlock l) := by
  have hq : Orderly (p.setLock l { p.locks l with held := false }) := h.setHeld fun _ _ => rfl
  exact hq.callNext (by rw [locks_setLock, if_pos rfl])

/-- A task that was woken with a lock finds it free. -/
theorem free_of_woken {p : Pool σ} (h : Orderly p) {t : TaskId} {l : LockId} {next : Outcome Unit → Program σ Unit}
    (ht : p.task? t = some (.waiting (.lock l) (some (.value ())) next)) :
    (p.locks l).held = false ∧ (p.locks l).line.head? = some (t, .admitted) := by
  obtain ⟨place, hmem⟩ := h.queued l t _ _ ht
  have hf := h.fits ht hmem
  cases place with
  | waiting => cases hf
  | admitted => exact h.admitted l t hmem
  | leaving => cases hf

/-! ## Turns -/

/-- A task leaves a line; it takes the lock only if it was let in. -/
theorem leave {p : Pool σ} (h : Orderly p) {t : TaskId} {l : LockId} {wake : Option (Outcome Unit)}
    {next : Outcome Unit → Program σ Unit} (ht : p.task? t = some (.waiting (.lock l) wake next)) {held : Bool}
    (hl : held = (p.locks l).held ∨ (p.locks l).line.head? = some (t, .admitted)) :
    Orderly ((p.setTask t .running).setLock l { held, line := (p.locks l).line.filter fun e => e.1 != t }) := by
  have hmem_filter : ∀ u a, (u, a) ∈ ((p.locks l).line.filter fun e => e.1 != t) ↔ (u, a) ∈ (p.locks l).line ∧ u ≠ t := by
    intro u a
    simp [List.mem_filter]
  have htask : ∀ u, u ≠ t → (p.setTask t .running).task? u = p.task? u := fun u hu => task?_setTask_of_ne (Ne.symm hu) _
  have hself : ∀ k w n, (p.setTask t .running).task? t ≠ some (.waiting (.lock k) w n) := by
    intro k w n hw
    rw [task?_setTask_self ht] at hw
    cases hw
  refine h.of_line t l { held, line := (p.locks l).line.filter fun e => e.1 != t } (fun k => locks_setLock _ _ _ _) htask
    (fun k a hmem => h.eq_of_mem hmem ht) (fun k w n hw => absurd hw (hself k w n)) ?_ (fun u a hmem => ?_) (fun u w n hw => ?_)
    (fun u hmem => ?_)
  · exact (h.nodup l).sublist (List.filter_sublist.map _)
  · obtain ⟨hmem, hu⟩ := (hmem_filter u a).1 hmem
    rw [task?_setLock, htask u hu]
    exact h.waits l u a hmem
  · have hu : u ≠ t := by
      rintro rfl
      exact hself l w n hw
    obtain ⟨a, ha⟩ := h.queued l u w n (htask u hu ▸ hw)
    exact ⟨a, (hmem_filter u a).2 ⟨ha, hu⟩⟩
  · obtain ⟨hmem, hu⟩ := (hmem_filter u _).1 hmem
    obtain ⟨hheld, hhead⟩ := h.admitted l u hmem
    refine ⟨?_, ?_⟩
    · rcases hl with rfl | hl
      · exact hheld
      · rw [hhead] at hl
        exact absurd (Prod.mk.inj (Option.some.inj hl)).1 hu
    · obtain ⟨rest, hrest⟩ : ∃ rest, (p.locks l).line = (u, .admitted) :: rest := by
        cases hline : (p.locks l).line with
        | nil => simp [hline] at hhead
        | cons e rest => exact ⟨rest, by simpa [hline] using hhead⟩
      simp [hrest, hu]

/-- A task comes back from its wait. -/
theorem comeBack {p : Pool σ} (h : Orderly p) {t : TaskId} {on : Wait} {o : Outcome Unit}
    {next : Outcome Unit → Program σ Unit} (ht : p.task? t = some (.waiting on (some o) next)) :
    Orderly ((p.setTask t .running).comeBack t on o) := by
  by_cases hon : ∃ l, on = .lock l
  · obtain ⟨l, rfl⟩ := hon
    cases o with
    | value u => exact h.leave ht (Or.inr (h.free_of_woken ht).2)
    | failed f =>
      obtain ⟨place, hmem⟩ := h.queued l t _ _ ht
      have hf := h.fits ht hmem
      cases place <;> simp [Place.Fits] at hf
    | cancelled =>
      have hq := h.leave ht (Or.inl rfl)
      simp only [Pool.comeBack, Pool.leaveLine]
      split
      · exact hq
      · next hheld =>
        refine hq.callNext ?_
        rw [locks_setLock, if_pos rfl]
        simpa using hheld
  · have hq : Orderly (p.setTask t .running) := by
      refine h.setTask (fun l wake next' hw => ?_) (fun l wake next' hw => nomatch hw)
      rw [ht] at hw
      simp only [Option.some.injEq, TaskState.waiting.injEq] at hw
      exact hon ⟨l, hw.1⟩
    cases on with
    | lock l => exact absurd ⟨l, rfl⟩ hon
    | turn => exact hq
    | task u => exact hq
    | signal s => exact hq

theorem spawn {p : Pool σ} (h : Orderly p) (body : Program σ Unit) : Orderly (p.spawn body).2 := by
  refine h.of_tasks rfl fun t l wake next => ?_
  simp only [Pool.spawn, Pool.task?]
  rcases Nat.lt_trichotomy t p.tasks.length with ht | ht | ht
  · rw [List.getElem?_append_left ht]
  · subst ht
    simp
  · rw [List.getElem?_eq_none (by simp; omega), List.getElem?_eq_none (by omega)]

/-- A task that was running goes to the end of a line. -/
theorem enqueue {p : Pool σ} (h : Orderly p) {t : TaskId} (ht : p.task? t = some .running) (l : LockId)
    (next : Outcome Unit → Program σ Unit) :
    Orderly ((p.setLock l { p.locks l with line := (p.locks l).line ++ [(t, .waiting)] }).setTask t
      (.waiting (.lock l) none next)) := by
  have htask : ∀ u, u ≠ t → ((p.setLock l { p.locks l with line := (p.locks l).line ++ [(t, .waiting)] }).setTask t
      (.waiting (.lock l) none next)).task? u = p.task? u := fun u hu => task?_setTask_of_ne (Ne.symm hu) _
  have hself : ((p.setLock l { p.locks l with line := (p.locks l).line ++ [(t, .waiting)] }).setTask t
      (.waiting (.lock l) none next)).task? t = some (.waiting (.lock l) none next) := task?_setTask_self (p := p.setLock l _) ht _
  have hold : ∀ u a, (u, a) ∈ (p.locks l).line → u ≠ t := by
    rintro u a hmem rfl
    exact h.not_mem ht l a hmem
  refine h.of_line t l { p.locks l with line := (p.locks l).line ++ [(t, .waiting)] } (fun k => ?_) htask
    (fun k a hmem => absurd hmem (h.not_mem ht k a)) (fun k w n hw => ?_) ?_ (fun u a hmem => ?_) (fun u w n hw => ?_)
    (fun u hmem => ?_)
  · rw [locks_setTask, locks_setLock]
  · rw [hself] at hw
    simp only [Option.some.injEq, TaskState.waiting.injEq, Wait.lock.injEq] at hw
    exact hw.1.symm
  · rw [List.map_append, List.nodup_append]
    refine ⟨h.nodup l, by simp, fun u hu v hv => ?_⟩
    obtain ⟨⟨u, a⟩, he, rfl⟩ := List.mem_map.1 hu
    simp only [List.map_cons, List.map_nil, List.mem_singleton] at hv
    exact hv ▸ hold u a he
  · rcases List.mem_append.1 hmem with hmem | hmem
    · rw [htask u (hold u a hmem)]
      exact h.waits l u a hmem
    · obtain ⟨rfl, rfl⟩ := Prod.mk.inj (List.mem_singleton.1 hmem)
      exact ⟨none, next, hself, rfl⟩
  · by_cases hu : u = t
    · exact ⟨.waiting, by simp [hu]⟩
    · obtain ⟨a, ha⟩ := h.queued l u w n (htask u hu ▸ hw)
      exact ⟨a, List.mem_append_left _ ha⟩
  · obtain ⟨hheld, hhead⟩ := h.admitted l u (by simpa using hmem)
    exact ⟨hheld, by simp [hhead]⟩

/-- A task that was running lies down to wait. -/
theorem layDown {p : Pool σ} (h : Orderly p) {t : TaskId} (ht : p.task? t = some .running) (on : Wait)
    (next : Outcome Unit → Program σ Unit) : Orderly (p.layDown t on next) := by
  have hrun : ∀ l wake next, p.task? t ≠ some (.waiting (.lock l) wake next) := by
    intro l wake next hw
    rw [ht] at hw
    cases hw
  cases on with
  | turn => exact (h.setTask (s := .waiting .turn (some (.value ())) next) hrun nofun).of_tasks rfl fun _ _ _ _ => Iff.rfl
  | task u => exact (h.setTask (s := .waiting (.task u) none next) hrun nofun).of_tasks rfl fun _ _ _ _ => Iff.rfl
  | signal s => exact (h.setTask (s := .waiting (.signal s) none next) hrun nofun).of_tasks rfl fun _ _ _ _ => Iff.rfl
  | lock l => exact (h.enqueue ht l next).of_tasks rfl fun _ _ _ _ => Iff.rfl

/-- A task that was running ends. -/
theorem finish {p : Pool σ} (h : Orderly p) {t : TaskId} (ht : p.task? t = some .running) (o : Outcome Unit) :
    Orderly (p.finish t o) := by
  have hq : Orderly (p.setTask t (.ended o)) := by
    refine h.setTask (fun l wake next hw => ?_) nofun
    rw [ht] at hw
    cases hw
  refine hq.wakeAll _ fun u hu l wake next hw => ?_
  have hb := (List.mem_filter.1 hu).2
  simp only [decide_eq_true_eq, Pool.blockedOn?, hw] at hb
  cases wake <;> simp at hb

/-- A wait that is over at once. -/
theorem atOnce {p q : Pool σ} (h : Orderly p) {w : Wait} {o : Outcome Unit} (hw : p.atOnce? w = some (o, q)) : Orderly q := by
  cases w with
  | turn => cases hw
  | signal s => cases hw
  | task u =>
    obtain ⟨o', -, he⟩ := Option.map_eq_some_iff.1 hw
    obtain ⟨rfl, rfl⟩ := Prod.mk.inj he
    exact h
  | lock l =>
    simp only [Pool.atOnce?] at hw
    split at hw
    · next hfree =>
      obtain ⟨rfl, rfl⟩ := Prod.mk.inj (Option.some.inj hw)
      exact h.take hfree
    · cases hw

end Orderly

/-! ## What a turn keeps -/

/-- A wait that is over at once leaves the state and the tasks as they are. -/
theorem atOnce?_eq {p q : Pool σ} {w : Wait} {o : Outcome Unit} (hw : p.atOnce? w = some (o, q)) :
    q.state = p.state ∧ q.tasks = p.tasks := by
  cases w with
  | turn => cases hw
  | signal s => cases hw
  | task u =>
    obtain ⟨o', -, he⟩ := Option.map_eq_some_iff.1 hw
    obtain ⟨rfl, rfl⟩ := Prod.mk.inj he
    exact ⟨rfl, rfl⟩
  | lock l =>
    simp only [Pool.atOnce?] at hw
    split at hw
    · obtain ⟨rfl, rfl⟩ := Prod.mk.inj (Option.some.inj hw)
      exact ⟨rfl, rfl⟩
    · cases hw

/-- A wait that is over at once leaves every task as it is. -/
theorem atOnce?_task? {p q : Pool σ} {w : Wait} {o : Outcome Unit} (hw : p.atOnce? w = some (o, q)) (t : TaskId) :
    q.task? t = p.task? t := by
  rw [task?, task?, (atOnce?_eq hw).2]

/-- While a program runs, the task that it belongs to stays the running one. -/
theorem run_running {α : Type} (q : Program σ α) {p : Pool σ} {t : TaskId} (ht : p.task? t = some .running) :
    (run q p).2.task? t = some .running := by
  induction q generalizing p with
  | done o => exact ht
  | act f next ih => exact ih p.state (p := { p with state := f p.state }) ht
  | await w next ih =>
    unfold Pool.run
    split
    · next o p' hw => exact ih o ((atOnce?_task? hw t).trans ht)
    · exact ht
  | release l next ih => exact ih ((unlock_alike p l).running ht)
  | spawn body next _ ih => exact ih _ (spawn_task? ht body)
  | cancel u next ih => exact ih ((cancel_alike p u).running ht)
  | hasEnded u next ih => exact ih _ ht

/-- While a program runs the lines stay in order. -/
theorem Orderly.run {α : Type} (q : Program σ α) {p : Pool σ} (h : Orderly p) : Orderly (run q p).2 := by
  induction q generalizing p with
  | done o => exact h
  | act f next ih => exact ih _ (h.of_tasks rfl fun _ _ _ _ => Iff.rfl)
  | await w next ih =>
    unfold Pool.run
    split
    · next o p' hw => exact ih o (h.atOnce hw)
    · exact h
  | release l next ih => exact ih (h.unlock l)
  | spawn body next _ ih => exact ih _ (h.spawn body)
  | cancel u next ih => exact ih (h.cancel u)
  | hasEnded u next ih => exact ih _ h

/-- Leaving a line for a cancellation leaves a pool alike. -/
theorem leaveLine_alike {p : Pool σ} {o : Outcome Unit} (ho : ∀ u, o ≠ .value u) (t : TaskId) (l : LockId) :
    Alike p (p.leaveLine t l o) := by
  have hl := setLock_alike p l ((p.locks l).line.filter fun e => e.1 != t)
  cases o with
  | value u => exact absurd rfl (ho u)
  | failed f =>
    simp only [leaveLine]
    split
    · exact hl
    · exact hl.trans (callNext_alike _ l)
  | cancelled =>
    simp only [leaveLine]
    split
    · exact hl
    · exact hl.trans (callNext_alike _ l)

/-- A task whose turn has begun is running. -/
theorem beginTurn_task? {p : Pool σ} {t : TaskId} {on : Wait} {o : Outcome Unit} {next : Outcome Unit → Program σ Unit}
    (ht : p.task? t = some (.waiting on (some o) next)) : (p.beginTurn t on o).task? t = some .running := by
  have hset : (Pool.setTask { p with ready := p.ready.erase t } t .running).task? t = some .running :=
    task?_setTask_self (p := { p with ready := p.ready.erase t }) ht _
  unfold beginTurn comeBack
  split
  · next l =>
    by_cases ho : ∃ u, o = .value u
    · obtain ⟨u, rfl⟩ := ho
      exact hset
    · exact (leaveLine_alike (fun u hu => ho ⟨u, hu⟩) t l).running hset
  · exact hset

/-- At the beginning of a turn nothing has happened to the state and to the other tasks. -/
theorem beginTurn_unwoken (p : Pool σ) (t : TaskId) (on : Wait) (o : Outcome Unit) :
    (p.beginTurn t on o).state = p.state ∧
      (p.beginTurn t on o).tasks.map TaskState.unwoken = (p.setTask t .running).tasks.map TaskState.unwoken := by
  unfold beginTurn comeBack
  split
  · next l =>
    by_cases ho : ∃ u, o = .value u
    · obtain ⟨u, rfl⟩ := ho
      exact ⟨rfl, rfl⟩
    · have ha := leaveLine_alike (p := Pool.setTask { p with ready := p.ready.erase t } t .running) (fun u hu => ho ⟨u, hu⟩) t l
      exact ⟨ha.state, ha.tasks⟩
  · exact ⟨rfl, rfl⟩

/-- The beginning of a turn keeps the lines in order: the task leaves the line, and has the lock if it was let in. -/
theorem Orderly.beginTurn {p : Pool σ} (h : Orderly p) {t : TaskId} {on : Wait} {o : Outcome Unit}
    {next : Outcome Unit → Program σ Unit} (ht : p.task? t = some (.waiting on (some o) next)) :
    Orderly (p.beginTurn t on o) :=
  (show Orderly ({ p with ready := p.ready.erase t } : Pool σ) from h.of_tasks rfl fun _ _ _ _ => Iff.rfl).comeBack ht

/-- The end of a turn keeps the lines in order: the task has ended, or joins the end of a line. -/
theorem Orderly.endTurn {p : Pool σ} (h : Orderly p) {t : TaskId} (ht : p.task? t = some .running) (stop : Stop σ Unit) :
    Orderly (p.endTurn t stop) := by
  cases stop with
  | ended o => exact h.finish ht o
  | waiting on next => exact h.layDown ht on next

/-- A turn keeps the lines in order. -/
theorem Orderly.resume {p : Pool σ} (h : Orderly p) (t : TaskId) : Orderly (p.resume t) := by
  rcases resume_cases p t with ⟨on, o, next, ht, hresume⟩ | hresume
  · rw [hresume]
    exact ((h.beginTurn ht).run (next o)).endTurn (run_running (next o) (beginTurn_task? ht)) _
  · rw [hresume]
    exact h

/-- No move disturbs the lines. -/
theorem Orderly.step {p : Pool σ} (h : Orderly p) (m : Move σ) : Orderly (p.step m) := by
  cases m with
  | turn t => exact h.resume t
  | arrival t => exact h.arrive t
  | cancel t => exact h.cancel t
  | start body => exact h.spawn body
  | change f => exact h.of_tasks rfl fun _ _ _ _ => Iff.rfl

/-- A pool without tasks is orderly. -/
theorem orderly_empty (s : σ) : Orderly ({ state := s } : Pool σ) :=
  ⟨fun _ => List.nodup_nil, nofun, nofun, nofun⟩

end Pool

end SignedCall
