import SignedCall.Credentials.Chain
import SignedCall.Proofs.Task.Play

/-!
# Closing a chain

A chain that is closed notes when each resolver begins to be closed, and how that ended. `Chain.Closes` says which resolvers are
closed with which outcomes, and what comes of all of it; every closing of a chain is of this kind, whatever it meets
(`Chain.comesTo_closeAll`). So each resolver with something to close is closed once, in the order of the chain, whichever of them
fail (`Chain.closes_every_resolver`).
-/

namespace SignedCall

/-- What happens when a chain is closed: the resolver in a position begins to be closed, and that ends. -/
inductive ClosingEvent where
  | closing (position : Nat)
  | closed (position : Nat) (o : Outcome Unit)

variable {σ : Type}

/-- A resolver in a position, which notes when it begins to be closed and how that ended. -/
def Resolver.closingAt (r : Resolver σ) (position : Nat) : Resolver (σ × List ClosingEvent) where
  name := r.name
  identity properties := (r.identity properties).beside
  close := r.close.map fun close => (close.beside.reported fun o _ => .closed position o).announced fun _ => .closing position

namespace Chain

/-- Resolvers from a position on, with notes of how they are closed. -/
def closingFrom : Nat → List (Resolver σ) → List (Resolver (σ × List ClosingEvent))
  | _, [] => []
  | position, r :: rest => r.closingAt position :: closingFrom (position + 1) rest

/-- The same chain, with a journal of how its resolvers are closed beside the state. -/
def closing (chain : Chain σ) : Chain (σ × List ClosingEvent) where
  resolvers := closingFrom 0 chain.resolvers
  lastUsed := Slot.fst.comp chain.lastUsed
  reuses := chain.reuses
  resolvers_ne_nil := by
    obtain ⟨r, rest, hr⟩ := List.exists_cons_of_ne_nil chain.resolvers_ne_nil
    rw [hr]
    exact List.cons_ne_nil _ _

/-- The positions of the resolvers that have something to close, in the order of the chain, if the first has a given one. -/
def closable (position : Nat) (rs : List (Resolver σ)) : List Nat :=
  (rs.zipIdx position).filterMap fun e => e.1.close.map fun _ => e.2

/-- What is noted when the resolvers in some positions are closed with some outcomes, one after the other. -/
def closings (closed : List (Nat × Outcome Unit)) : List ClosingEvent :=
  closed.flatMap fun e => [.closing e.1, .closed e.1 e.2]

/-- The failures among some outcomes. -/
def unclosedIn (closed : List (Nat × Outcome Unit)) : List Failure :=
  closed.filterMap fun e => match e.2 with
    | .failed f => some f
    | _ => none

/-- With which outcomes the resolvers in some positions are closed, and what comes of it. Only a cancellation keeps the later ones
from being closed. -/
inductive Closes : List Nat → List (Nat × Outcome Unit) → Outcome (List Failure) → Prop
  | all : Closes [] [] (.value [])
  | value {position : Nat} {rest : List Nat} {closed : List (Nat × Outcome Unit)} {o : Outcome (List Failure)} :
      Closes rest closed o → Closes (position :: rest) ((position, .value ()) :: closed) o
  | failed {position : Nat} {rest : List Nat} {closed : List (Nat × Outcome Unit)} {errors : List Failure} (f : Failure) :
      Closes rest closed (.value errors) → Closes (position :: rest) ((position, .failed f) :: closed) (.value (f :: errors))
  | failedBefore {position : Nat} {rest : List Nat} {closed : List (Nat × Outcome Unit)} (f : Failure) :
      Closes rest closed .cancelled → Closes (position :: rest) ((position, .failed f) :: closed) .cancelled
  | cancelled {position : Nat} {rest : List Nat} : Closes (position :: rest) [(position, .cancelled)] .cancelled

/-- Closing the resolvers collects their failures and is no failure itself. -/
theorem Closes.ne_failed {positions : List Nat} {closed : List (Nat × Outcome Unit)} {o : Outcome (List Failure)}
    (h : Closes positions closed o) (f : Failure) : o ≠ .failed f := by
  induction h with
  | all => exact nofun
  | value _ ih => exact ih
  | failed f' _ _ => exact nofun
  | failedBefore f' _ _ => exact nofun
  | cancelled => exact nofun

/-! ## What the notes leave as it is -/

/-- Resolvers are closed in the same way with notes and without. -/
theorem closeAll_noting (position : Nat) (rs : List (Resolver σ)) : (closeAll (closingFrom position rs)).Noting (closeAll rs) := by
  induction rs generalizing position with
  | nil => exact .done _
  | cons r rest ih =>
    unfold closingFrom closeAll
    cases hclose : r.close with
    | none =>
      simp only [Resolver.closingAt, hclose, Option.map_none]
      exact ih (position + 1)
    | some close =>
      simp only [Resolver.closingAt, hclose, Option.map_some]
      have hnoted : ((close.beside.reported fun o _ => ClosingEvent.closed position o).announced
          fun _ => .closing position).Noting close := .note _ ((Program.noting_beside close).reported _)
      refine hnoted.attempt.bind fun closed => (ih (position + 1)).bind fun errors => ?_
      cases closed <;> exact .done _

/-- Closing with notes is closing but for the notes. -/
theorem close_noting (chain : Chain σ) : chain.closing.close.Noting chain.close := by
  refine (closeAll_noting 0 chain.resolvers).bind fun errors => ?_
  split <;> exact .done _

/-! ## What comes of closing -/

/-- The others leave the notes alone. -/
def besideClosing (σ : Type) : Company (σ × List ClosingEvent) where
  ends _ := True
  others s s' := s'.2 = s.2

variable {position : Nat} {rs : List (Resolver σ)} {js : List ClosingEvent} {s : σ × List ClosingEvent}

/-- A resolver with nothing to close is passed over. -/
theorem closable_cons_none {r : Resolver σ} (h : r.close = none) : closable position (r :: rs) = closable (position + 1) rs := by
  simp [closable, h]

/-- A resolver with something to close is closed before those behind it. -/
theorem closable_cons_some {r : Resolver σ} {close : Program σ Unit} (h : r.close = some close) :
    closable position (r :: rs) = position :: closable (position + 1) rs := by
  simp [closable, h]

/-- Closing one resolver notes that it begins and how it ended, whatever it does. -/
theorem comesTo_closing (close : Program σ Unit) (position : Nat) (s : σ × List ClosingEvent) :
    ((close.beside.reported fun o _ => ClosingEvent.closed position o).announced fun _ => .closing position).ComesTo
      (besideClosing σ) (fun o s' => s'.2 = s.2 ++ [.closing position, .closed position o]) s := by
  refine Program.ComesTo.announced ?_
  have hkept := (Program.beside_keeps close).comesTo (w := besideClosing σ) (fun _ _ h => h) (inscribe (fun _ => .closing position) s)
  refine hkept.andThen fun o s' hs' _ _ => ?_
  have hnotes : s'.2 = s.2 ++ [.closing position] := hs'
  change s'.2 ++ [.closed position o] = _
  rw [hnotes, List.append_assoc]
  rfl

/-- Whatever it meets, closing resolvers one after the other comes to what `Closes` says. -/
theorem comesTo_closeAll (rs : List (Resolver σ)) (position : Nat) (hs : s.2 = js) :
    (closeAll (closingFrom position rs)).ComesTo (besideClosing σ)
      (fun o s' => ∃ closed, s'.2 = js ++ closings closed ∧ Closes (closable position rs) closed o) s := by
  induction rs generalizing position js s with
  | nil => exact Program.comesTo_done ⟨[], hs.trans (List.append_nil js).symm, .all⟩
  | cons r rest ih =>
    unfold closingFrom closeAll
    cases hclose : r.close with
    | none =>
      simp only [Resolver.closingAt, hclose, Option.map_none, closable_cons_none hclose]
      exact ih (position + 1) hs
    | some close =>
      simp only [Resolver.closingAt, hclose, Option.map_some, closable_cons_some hclose]
      -- What is noted of this resolver stands before what is noted of the rest.
      have hrest : ∀ {o : Outcome Unit} {s' : σ × List ClosingEvent}, s'.2 = s.2 ++ [.closing position, .closed position o] →
          (closeAll (closingFrom (position + 1) rest)).ComesTo (besideClosing σ)
            (fun o' s'' => ∃ closed, s''.2 = js ++ closings ((position, o) :: closed) ∧
              Closes (closable (position + 1) rest) closed o') s' := by
        intro o s' hnotes
        refine (ih (position + 1) (hs ▸ hnotes)).mono ?_
        rintro o' s'' ⟨closed, hnotes', hcloses⟩
        exact ⟨closed, hnotes'.trans (List.append_assoc _ _ _), hcloses⟩
      refine (comesTo_closing close position s).attempt ?_ ?_ ?_
      · rintro u s' hnotes
        refine (hrest hnotes).bind ?_ ?_ ?_
        · rintro errors s'' ⟨closed, hnotes', hcloses⟩
          exact Program.comesTo_done ⟨_, hnotes', .value hcloses⟩
        · rintro f s'' ⟨closed, -, hcloses⟩
          exact absurd rfl (hcloses.ne_failed f)
        · rintro s'' ⟨closed, hnotes', hcloses⟩
          exact ⟨_, hnotes', .value hcloses⟩
      · rintro f s' hnotes
        refine (hrest hnotes).bind ?_ ?_ ?_
        · rintro errors s'' ⟨closed, hnotes', hcloses⟩
          exact Program.comesTo_done ⟨_, hnotes', .failed f hcloses⟩
        · rintro f' s'' ⟨closed, -, hcloses⟩
          exact absurd rfl (hcloses.ne_failed f')
        · rintro s'' ⟨closed, hnotes', hcloses⟩
          exact ⟨_, hnotes', .failedBefore f hcloses⟩
      · rintro s' hnotes
        exact ⟨[(position, .cancelled)], hs ▸ hnotes, .cancelled⟩

/-! ## What the outcomes decide -/

/-- The resolvers are closed in order, and none is left out before the last one that is closed. -/
theorem Closes.prefix {positions : List Nat} {closed : List (Nat × Outcome Unit)} {o : Outcome (List Failure)}
    (h : Closes positions closed o) : closed.map Prod.fst <+: positions := by
  induction h with
  | all => exact List.prefix_rfl
  | value _ ih => exact (List.prefix_cons_inj _).2 ih
  | failed f _ ih => exact (List.prefix_cons_inj _).2 ih
  | failedBefore f _ ih => exact (List.prefix_cons_inj _).2 ih
  | cancelled => exact (List.prefix_cons_inj _).2 (List.nil_prefix)

/-- If none is cancelled, all are closed, and the failures are what comes of it. Otherwise the last one that began to be closed is
cancelled, and so is the whole. -/
theorem Closes.decided {positions : List Nat} {closed : List (Nat × Outcome Unit)} {o : Outcome (List Failure)}
    (h : Closes positions closed o) :
    ((∀ e ∈ closed, e.2 ≠ .cancelled) ∧ closed.map Prod.fst = positions ∧ o = .value (unclosedIn closed)) ∨
      ((∃ before position, closed = before ++ [(position, .cancelled)] ∧ ∀ e ∈ before, e.2 ≠ .cancelled) ∧
        o = .cancelled) := by
  induction h with
  | all => exact Or.inl ⟨nofun, rfl, rfl⟩
  | value _ ih =>
    rcases ih with ⟨hnone, hall, rfl⟩ | ⟨⟨before, position, rfl, hnone⟩, rfl⟩
    · exact Or.inl ⟨by simpa using hnone, congrArg _ hall, rfl⟩
    · exact Or.inr ⟨⟨_ :: before, position, rfl, by simpa using hnone⟩, rfl⟩
  | failed f _ ih =>
    rcases ih with ⟨hnone, hall, herrors⟩ | ⟨-, hcancelled⟩
    · obtain rfl := Outcome.value.inj herrors
      exact Or.inl ⟨by simpa using hnone, congrArg _ hall, rfl⟩
    · cases hcancelled
  | failedBefore f _ ih =>
    rcases ih with ⟨-, -, hvalue⟩ | ⟨⟨before, position, rfl, hnone⟩, -⟩
    · cases hvalue
    · exact Or.inr ⟨⟨_ :: before, position, rfl, by simpa using hnone⟩, rfl⟩
  | cancelled => exact Or.inr ⟨⟨[], _, rfl, nofun⟩, rfl⟩

/-- Exactly the positions of resolvers with something to close are counted. -/
theorem mem_closable {i : Nat} :
    i ∈ closable 0 rs ↔ ∃ (r : Resolver σ) (close : Program σ Unit), rs[i]? = some r ∧ r.close = some close := by
  unfold closable
  rw [List.mem_filterMap]
  constructor
  · rintro ⟨⟨r, i'⟩, hmem, hposition⟩
    obtain ⟨close, hclose, rfl⟩ := Option.map_eq_some_iff.1 hposition
    exact ⟨r, close, List.mem_zipIdx_iff_getElem?.1 hmem, hclose⟩
  · rintro ⟨r, close, hr, hclose⟩
    exact ⟨(r, i), List.mem_zipIdx_iff_getElem?.2 hr, Option.map_eq_some_iff.2 ⟨close, hclose, rfl⟩⟩

/-- Positions are counted from the first one on. -/
theorem le_of_mem_closable {i : Nat} (h : i ∈ closable position rs) : position ≤ i := by
  obtain ⟨⟨r, i'⟩, hmem, hclose⟩ := List.mem_filterMap.1 h
  obtain ⟨-, -, rfl⟩ := Option.map_eq_some_iff.1 hclose
  exact List.le_snd_of_mem_zipIdx hmem

/-- The positions are in the order of the chain, each of them once. -/
theorem closable_sorted (position : Nat) (rs : List (Resolver σ)) : (closable position rs).Pairwise (· < ·) := by
  induction rs generalizing position with
  | nil => exact .nil
  | cons r rest ih =>
    cases hclose : r.close with
    | none =>
      rw [closable_cons_none hclose]
      exact ih (position + 1)
    | some close =>
      rw [closable_cons_some hclose]
      exact (ih (position + 1)).cons fun i hi => Nat.lt_of_succ_le (le_of_mem_closable hi)

/-- What comes of closing a chain, by what comes of closing its resolvers. -/
def closedWith : Outcome (List Failure) → Outcome Unit
  | .value errors => if errors.isEmpty then .value () else .failed (unclosed errors)
  | .failed f => .failed f
  | .cancelled => .cancelled

/-- Closing a chain closes its resolvers, and its outcome is what comes of their failures. -/
theorem comesTo_close (chain : Chain σ) (s : σ) :
    chain.closing.close.ComesTo (besideClosing σ) (fun o s' => ∃ closed errors, s'.2 = closings closed ∧
      Closes (closable 0 chain.resolvers) closed errors ∧ o = closedWith errors) (s, []) := by
  refine (comesTo_closeAll chain.resolvers 0 rfl).bind ?_ ?_ ?_
  · rintro errors s' ⟨closed, hnotes, hcloses⟩
    cases errors with
    | nil => exact Program.comesTo_done ⟨closed, _, hnotes, hcloses, rfl⟩
    | cons f errors => exact Program.comesTo_done ⟨closed, _, hnotes, hcloses, rfl⟩
  · rintro f s' ⟨closed, hnotes, hcloses⟩
    exact ⟨closed, _, hnotes, hcloses, rfl⟩
  · rintro s' ⟨closed, hnotes, hcloses⟩
    exact ⟨closed, _, hnotes, hcloses, rfl⟩

/-- Take any chain, and whatever it meets when it is closed. The notes do not change how that ends, and in which state. Resolvers with
something to close are closed one after the other, in the order of the chain, and none twice. Unless one of them is cancelled, which
cancels the whole, all of them are closed, and the failures, in this order, are what comes of it, if there are any. -/
theorem closes_every_resolver (chain : Chain σ) (env : Nat → Reaction σ) (s : σ) :
    let run := chain.closing.close.play (fun n => (env n).beside) (s, [])
    chain.close.play env s = (run.1, run.2.1) ∧
      ∃ closed : List (Nat × Outcome Unit), run.2.2 = closings closed ∧ (closed.map Prod.fst).Pairwise (· < ·) ∧
        closed.map Prod.fst <+: closable 0 chain.resolvers ∧
        ((∀ e ∈ closed, e.2 ≠ .cancelled) →
          (∀ i, i ∈ closed.map Prod.fst ↔
            ∃ (r : Resolver σ) (close : Program σ Unit), chain.resolvers[i]? = some r ∧ r.close = some close) ∧
          (run.1 = .value () ↔ unclosedIn closed = []) ∧
          (unclosedIn closed ≠ [] → ∃ f, run.1 = .failed f ∧ f.kind = .group ∧ f.errors = unclosedIn closed)) ∧
        (¬(∀ e ∈ closed, e.2 ≠ .cancelled) → run.1 = .cancelled ∧
          ∃ before position, closed = before ++ [(position, .cancelled)] ∧ ∀ e ∈ before, e.2 ≠ .cancelled) := by
  intro run
  obtain ⟨js, hsame⟩ := (close_noting chain).play env s []
  obtain ⟨closed, errors, hnotes, hcloses, ho⟩ :=
    comesTo_close chain s (fun n => (env n).beside) fun _ => ⟨trivial, fun _ => rfl⟩
  change run.1 = _ at ho
  refine ⟨Prod.ext (congrArg Prod.fst hsame).symm (congrArg (·.2.1) hsame).symm, closed, hnotes, ?_, hcloses.prefix, ?_, ?_⟩
  · exact (closable_sorted 0 chain.resolvers).sublist hcloses.prefix.sublist
  · intro hnone
    rcases hcloses.decided with ⟨-, hall, rfl⟩ | ⟨⟨before, position, rfl, -⟩, -⟩
    · refine ⟨fun i => hall ▸ mem_closable, ?_⟩
      rw [ho]
      cases unclosedIn closed with
      | nil => exact ⟨iff_of_true rfl rfl, fun h => absurd rfl h⟩
      | cons f rest => exact ⟨iff_of_false nofun nofun, fun _ => ⟨_, rfl, rfl, rfl⟩⟩
    · exact absurd rfl (hnone _ (List.mem_append_right before List.mem_cons_self))
  · intro hcut
    rcases hcloses.decided with ⟨hnone, -⟩ | ⟨hlast, rfl⟩
    · exact absurd hnone hcut
    · exact ⟨ho, hlast⟩

end Chain

end SignedCall
