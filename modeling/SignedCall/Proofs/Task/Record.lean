import Mathlib.Data.List.Chain
import Mathlib.Data.List.DropRight
import SignedCall.Proofs.Task.Journal
import SignedCall.Proofs.Task.Moves

/-!
# Who made which note

A journal tells what was noted in which order, but not by whom. A `Record` pairs each note with the task whose turn it was. Runs are
`Recorded` along with their records, and every run has one (`Reached.exists_recorded`). The `trail` of a task are its own notes.

Tasks do their work piece by piece, and the last note of a piece tells so. Where each piece of work is finished before another task
begins one, the record is `Sequential`, and the whole journal reads as if one task had made it (`Record.Sequential.proper`).
-/

namespace SignedCall

/-- Notes, each with the task that made it. -/
abbrev Record (ν : Type) := List (TaskId × ν)

section Notes

variable {ν : Type}

/-- The notes after the last one that ends a piece of work. -/
def since (ends : ν → Bool) (js : List ν) : List ν := js.rtakeWhile fun e => !ends e

/-- Notes where each may follow those before it in the same piece of work. -/
def Proper (ends : ν → Bool) (may : List ν → ν → Prop) (js : List ν) : Prop :=
  ∀ ks e ls, js = ks ++ e :: ls → may (since ends ks) e

variable {ends : ν → Bool} {may : List ν → ν → Prop}

@[simp] theorem since_nil : since ends [] = [] := List.rtakeWhile_nil _

/-- A note adds to the piece of work in hand, unless it ends it. -/
theorem since_concat (js : List ν) (e : ν) : since ends (js ++ [e]) = if ends e then [] else since ends js ++ [e] := by
  rw [since, List.rtakeWhile_concat]
  cases ends e <;> rfl

/-- The notes of the piece of work in hand come last. -/
theorem since_suffix (ends : ν → Bool) (js : List ν) : ∃ ks, js = ks ++ since ends js := by
  obtain ⟨ks, hks⟩ := List.rtakeWhile_suffix (fun e => !ends e) js
  exact ⟨ks, hks.symm⟩

theorem proper_nil : Proper ends may [] := by simp [Proper]

/-- Notes stay in order with one more that may follow those of the piece of work in hand. -/
theorem Proper.concat {js : List ν} {e : ν} (h : Proper ends may js) (he : may (since ends js) e) : Proper ends may (js ++ [e]) := by
  intro ks x ls hsplit
  rcases append_singleton_cases hsplit with ⟨-, rfl, rfl⟩ | ⟨ls', -, hsplit⟩
  · exact he
  · exact h ks x ls' hsplit

/-- The first of proper notes are proper. -/
theorem Proper.left {js ks : List ν} (h : Proper ends may (js ++ ks)) : Proper ends may js :=
  fun before e rest hsplit => h before e (rest ++ ks) (by rw [hsplit, List.append_assoc, List.cons_append])

/-- A note in proper notes may follow the last ones before it, which belong to the same piece of work. -/
theorem Proper.split {js ks ls : List ν} {e : ν} (h : Proper ends may js) (hsplit : js = ks ++ e :: ls) :
    ∃ before cur, ks = before ++ cur ∧ may cur e := by
  obtain ⟨before, hbefore⟩ := since_suffix ends ks
  exact ⟨before, since ends ks, hbefore, h ks e ls hsplit⟩

end Notes

namespace Record

variable {ν : Type} {ends : ν → Bool} {may : List ν → ν → Prop}

/-- All notes. -/
def journal (record : Record ν) : List ν := record.map Prod.snd

/-- The notes of one task. -/
def trail (record : Record ν) (t : TaskId) : List ν := (record.filter fun e => e.1 = t).map Prod.snd

@[simp] theorem journal_nil : journal ([] : Record ν) = [] := rfl

@[simp] theorem trail_nil (t : TaskId) : trail ([] : Record ν) t = [] := rfl

theorem journal_append (record other : Record ν) : journal (record ++ other) = record.journal ++ other.journal := List.map_append

theorem trail_append (record other : Record ν) (t : TaskId) : trail (record ++ other) t = record.trail t ++ other.trail t := by
  simp [trail]

theorem trail_concat_self (record : Record ν) (t : TaskId) (e : ν) : trail (record ++ [(t, e)]) t = record.trail t ++ [e] := by
  simp [trail]

/-- A note leaves the trails of the other tasks as they are. -/
theorem trail_concat_of_ne (record : Record ν) {t u : TaskId} (h : u ≠ t) (e : ν) :
    trail (record ++ [(t, e)]) u = record.trail u := by
  simp [trail, h.symm]

/-- The note of a task has the same notes of that task before it in the trail. -/
theorem trail_split {record before rest : Record ν} {t : TaskId} {e : ν} (h : record = before ++ (t, e) :: rest) :
    record.trail t = before.trail t ++ e :: trail rest t := by
  rw [h, trail_append]
  simp [trail]

/-- A note is on the trail of a task if the task made it. -/
theorem mem_trail {record : Record ν} {t : TaskId} {e : ν} : e ∈ record.trail t ↔ (t, e) ∈ record := by
  simp [trail]

/-- What is on the trail of a task is in the journal. -/
theorem mem_journal_of_mem_trail {record : Record ν} {t : TaskId} {e : ν} (h : e ∈ record.trail t) : e ∈ record.journal := by
  obtain ⟨x, hx, rfl⟩ := List.mem_map.1 h
  exact List.mem_map_of_mem (List.mem_of_mem_filter hx)

/-- A note in the journal was made by a task, after some of its own notes which stand before it in the journal. -/
theorem exists_of_journal {record : Record ν} {js ks : List ν} {e : ν} (h : record.journal = js ++ e :: ks) :
    ∃ (before : Record ν) (t : TaskId) (rest : Record ν), record = before ++ (t, e) :: rest ∧ before.journal = js := by
  obtain ⟨before, rest', hrecord, hbefore, hrest⟩ := List.map_eq_append_iff.1 h
  obtain ⟨⟨t, e'⟩, rest, rfl, rfl, -⟩ := List.map_eq_cons_iff.1 hrest
  exact ⟨before, t, rest, hrecord, hbefore⟩

/-- The last note of a task stands in the record, and the task has none after it. -/
theorem exists_of_trail_concat {record : Record ν} {t : TaskId} {js : List ν} {e : ν} (h : record.trail t = js ++ [e]) :
    ∃ (before mid : Record ν), record = before ++ (t, e) :: mid ∧ before.trail t = js ∧ ∀ x ∈ mid, x.1 ≠ t := by
  obtain ⟨own, last, hown, hjs, hlast⟩ := List.map_eq_append_iff.1 h
  obtain ⟨before, rest, rfl, hbefore, hrest⟩ := List.filter_eq_append_iff.1 hown
  obtain ⟨⟨u, e'⟩, none', rfl, rfl, hnone⟩ := List.map_eq_cons_iff.1 hlast
  obtain rfl := List.map_eq_nil_iff.1 hnone
  obtain ⟨others, mid, rfl, hothers, hu, hmid⟩ := List.filter_eq_cons_iff.1 hrest
  obtain rfl : u = t := by simpa using hu
  have hnoneBefore : others.filter (fun x => x.1 = u) = [] := List.filter_eq_nil_iff.2 hothers
  refine ⟨before ++ others, mid, by simp, ?_, fun x hx => by simpa using List.filter_eq_nil_iff.1 hmid x hx⟩
  rw [trail_append, trail, hbefore, hjs, trail, hnoneBefore, List.map_nil, List.append_nil]

/-! ## Work done piece by piece -/

/-- A record where a task makes notes after those of another only when that one's piece of work has ended. -/
def Sequential (ends : ν → Bool) (record : Record ν) : Prop := List.IsChain (fun x y => y.1 = x.1 ∨ ends x.2 = true) record

instance (record : Record ν) : Decidable (record.Sequential ends) := inferInstanceAs (Decidable (List.IsChain _ record))

/-- In a sequential record, the piece of work in hand is that of the last note, and the other tasks have none in hand. -/
theorem Sequential.since_eq {record : Record ν} {t : TaskId} {e : ν} (h : Sequential ends (record ++ [(t, e)])) :
    since ends (journal (record ++ [(t, e)])) = since ends (trail (record ++ [(t, e)]) t) ∧
      ∀ u, u ≠ t → since ends (trail (record ++ [(t, e)]) u) = [] := by
  induction record using List.reverseRecOn generalizing t e with
  | nil => exact ⟨by simp [journal, trail], fun u hu => by simp [trail, hu.symm]⟩
  | append_singleton before last ih =>
    obtain ⟨t', e'⟩ := last
    rw [Sequential, List.append_assoc, List.singleton_append, List.isChain_append_cons_cons] at h
    obtain ⟨hbefore, hnext, -⟩ := h
    obtain ⟨hjournal, hothers⟩ := ih hbefore
    -- The note before the last one is by the same task, or it ended a piece of work and nothing is in hand.
    have hsame : since ends (journal (before ++ [(t', e')])) = since ends (trail (before ++ [(t', e')]) t) ∧
        ∀ u, u ≠ t → since ends (trail (before ++ [(t', e')]) u) = [] := by
      rcases hnext with rfl | hends
      · exact ⟨hjournal, hothers⟩
      · have hnone : ∀ u, since ends (trail (before ++ [(t', e')]) u) = [] := by
          intro u
          by_cases hu : u = t'
          · rw [hu, trail_concat_self, since_concat, if_pos hends]
          · exact hothers u hu
        refine ⟨?_, fun u _ => hnone u⟩
        rw [hjournal, hnone, hnone]
    refine ⟨?_, fun u hu => ?_⟩
    · rw [journal_append, trail_concat_self, show journal [(t, e)] = [e] from rfl, since_concat, since_concat, hsame.1]
    · rw [trail_concat_of_ne _ hu]
      exact hsame.2 u hu

/-- In a sequential record, what a task has in hand when it makes a note is all that is in hand. -/
theorem Sequential.since_before {record before rest : Record ν} {t : TaskId} {e : ν} (h : record.Sequential ends)
    (hsplit : record = before ++ (t, e) :: rest) : since ends before.journal = since ends (before.trail t) := by
  rcases List.eq_nil_or_concat before with rfl | ⟨before', ⟨t', e'⟩, rfl⟩
  · rfl
  · rw [List.concat_eq_append] at hsplit ⊢
    rw [Sequential, hsplit, List.append_assoc, List.singleton_append, List.isChain_append_cons_cons] at h
    obtain ⟨hbefore, hnext, -⟩ := h
    obtain ⟨hjournal, hothers⟩ := since_eq hbefore
    rcases hnext with rfl | hends
    · exact hjournal
    · have hlast : since ends (trail (before' ++ [(t', e')]) t') = [] := by rw [trail_concat_self, since_concat, if_pos hends]
      rw [hjournal, hlast]
      by_cases ht : t = t'
      · rw [ht, hlast]
      · rw [hothers t ht]

/-- The journal of a sequential record is proper if the notes of each task are. -/
theorem Sequential.proper {record : Record ν} (h : record.Sequential ends) (hp : ∀ t, Proper ends may (record.trail t)) :
    Proper ends may record.journal := by
  intro js e ks hsplit
  obtain ⟨before, t, rest, hrecord, rfl⟩ := exists_of_journal hsplit
  rw [h.since_before hrecord]
  exact hp t _ e _ (trail_split hrecord)

end Record

namespace Pool

variable {σ ν : Type}

/-- What is noted in a move, and by whom. -/
def recorded (p : Pool (σ × List ν)) : Move (σ × List ν) → Record ν
  | .turn t => ((p.resume t).state.2.drop p.state.2.length).map (t, ·)
  | _ => []

/-- The pools that are reached from an empty one by moves of some kind, with who made which note on the way. -/
inductive Recorded (start : σ × List ν → Prop) (ok : Move (σ × List ν) → Prop) : Pool (σ × List ν) → Record ν → Prop
  | start {s : σ × List ν} : start s → Recorded start ok { state := s } []
  | step {p : Pool (σ × List ν)} {record : Record ν} {m : Move (σ × List ν)} :
      Recorded start ok p record → ok m → Recorded start ok (p.step m) (record ++ p.recorded m)

variable {start : σ × List ν → Prop} {ok : Move (σ × List ν) → Prop} {p : Pool (σ × List ν)} {record : Record ν}

/-- A run with a record is a run. -/
theorem Recorded.reached (h : Recorded start ok p record) : Reached start ok p := by
  induction h with
  | start hs => exact .start hs
  | step _ hm ih => exact ih.step hm

/-- Every run has a record. -/
theorem Reached.exists_recorded (h : Reached start ok p) : ∃ record, Recorded start ok p record := by
  induction h with
  | start hs => exact ⟨[], .start hs⟩
  | step _ hm ih =>
    obtain ⟨record, hrecord⟩ := ih
    exact ⟨_, hrecord.step hm⟩

/-- What is noted in some moves, and by whom. -/
def recordedAll (p : Pool (σ × List ν)) : List (Move (σ × List ν)) → Record ν
  | [] => []
  | m :: ms => p.recorded m ++ (p.step m).recordedAll ms

/-- A recorded run may go on with more moves of the same kind. -/
theorem Recorded.steps (h : Recorded start ok p record) {ms : List (Move (σ × List ν))} (hms : ∀ m ∈ ms, ok m) :
    Recorded start ok (p.steps ms) (record ++ p.recordedAll ms) := by
  induction ms generalizing p record with
  | nil => exact (List.append_nil record).symm ▸ h
  | cons m ms ih =>
    have hrest := ih (h.step (hms m List.mem_cons_self)) fun m' hm' => hms m' (List.mem_cons_of_mem m hm')
    rwa [List.append_assoc] at hrest

end Pool

end SignedCall
