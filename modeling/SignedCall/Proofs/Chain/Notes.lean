import SignedCall.Credentials.Chain
import SignedCall.Proofs.Task.Record
import SignedCall.Proofs.Task.Shadow

/-!
# Notes of a chain

A chain notes when a call begins, how each resolver that is asked answers, and how the call ends, each with the state as it is then.
From the notes one reads which position is remembered (`Chain.remembered`). The calls are the same with the notes and without them
(`Chain.call_noting`).
-/

namespace SignedCall

/-- What happens in a call of a chain. A resolver is asked because it is remembered, or in its place in the walk. -/
inductive ChainEvent where
  | began
  | reused (position : Nat) (o : Outcome Identity)
  | walked (position : Nat) (o : Outcome Identity)
  | returned (o : Outcome Identity)

/-- What is noted of a chain, and in which state. -/
abbrev ChainNote (σ : Type) := ChainEvent × σ

/-- Whether a call ends. -/
def ChainEvent.isReturn : ChainEvent → Bool
  | .returned _ => true
  | _ => false

/-- The position of the resolver that answers, and its answer. -/
def ChainEvent.answer? : ChainEvent → Option (Nat × Outcome Identity)
  | .reused position o => some (position, o)
  | .walked position o => some (position, o)
  | _ => none

variable {σ : Type}

/-- A resolver that notes how each call ended. -/
def Resolver.reporting (r : Resolver σ) (event : Outcome Identity → ChainEvent) : Resolver (σ × List (ChainNote σ)) where
  name := r.name
  identity properties := (r.identity properties).beside.reported fun o s => (event o, s)
  close := r.close.map Program.beside

namespace Chain

/-- Resolvers from a position on, with notes of how their calls ended. -/
def notedFrom (event : Nat → Outcome Identity → ChainEvent) : Nat → List (Resolver σ) → List (Resolver (σ × List (ChainNote σ)))
  | _, [] => []
  | position, r :: rest => r.reporting (event position) :: notedFrom event (position + 1) rest

theorem map_name_notedFrom (event : Nat → Outcome Identity → ChainEvent) (position : Nat) (rs : List (Resolver σ)) :
    (notedFrom event position rs).map Resolver.name = rs.map Resolver.name := by
  induction rs generalizing position with
  | nil => rfl
  | cons r rest ih => exact congrArg (r.name :: ·) (ih (position + 1))

/-- The same, with a journal of what the resolvers answer beside the state. -/
def noted (chain : Chain σ) (event : Nat → Outcome Identity → ChainEvent) : Chain (σ × List (ChainNote σ)) where
  resolvers := notedFrom event 0 chain.resolvers
  lastUsed := Slot.fst.comp chain.lastUsed
  reuses := chain.reuses
  resolvers_ne_nil := by
    obtain ⟨r, rest, hr⟩ := List.exists_cons_of_ne_nil chain.resolvers_ne_nil
    rw [hr]
    exact List.cons_ne_nil _ _

variable {chain : Chain σ}

/-- The resolver that is asked first, with notes. -/
def notedFirst? (chain : Chain σ) (s : σ) : Option (Nat × Resolver (σ × List (ChainNote σ))) :=
  (chain.first? s).map fun x => (x.1, x.2.reporting (.reused x.1))

/-- A call that notes when it begins, what the resolvers answer and how it ended. -/
def call (chain : Chain σ) (properties : Properties) : Program (σ × List (ChainNote σ)) Identity :=
  ((Program.act id fun s =>
    (chain.noted .walked).identityFrom properties (chain.notedFirst? s.1)).reported fun o s => (.returned o, s)).announced (.began, ·)

/-- What is remembered after an event: the position of a resolver that gave an identity in a walk, if the chain remembers at all,
and not that of a remembered one that failed. -/
def retain (chain : Chain σ) (remembered : Option Nat) : ChainEvent → Option Nat
  | .walked position (.value _) => if chain.reuses then some position else remembered
  | .reused position (.failed _) => if remembered = some position then none else remembered
  | _ => remembered

/-- The position that is remembered after what a journal tells. -/
def remembered (chain : Chain σ) (journal : List (ChainNote σ)) : Option Nat := (journal.map Prod.fst).foldl chain.retain none

theorem remembered_concat (js : List (ChainNote σ)) (e : ChainNote σ) :
    chain.remembered (js ++ [e]) = chain.retain (chain.remembered js) e.1 := by
  simp [remembered]

/-- A chain that does not reuse remembers nothing. -/
theorem remembered_of_not_reuses (h : chain.reuses = false) (js : List (ChainNote σ)) : chain.remembered js = none := by
  induction js using List.reverseRecOn with
  | nil => rfl
  | append_singleton js e ih =>
    rw [remembered_concat, ih, retain.eq_def]
    split <;> simp [h]

/-- What is remembered is the position of a resolver that has given an identity in a walk. -/
theorem walked_of_remembered {js : List (ChainNote σ)} {position : Nat} (h : chain.remembered js = some position) :
    ∃ i s, (ChainEvent.walked position (.value i), s) ∈ js := by
  have hstep : ∀ remembered event, chain.retain remembered event = some position →
      (∃ i, event = .walked position (.value i)) ∨ remembered = some position := by
    intro remembered event he
    unfold retain at he
    split at he
    · next position' i =>
      split at he
      · exact .inl ⟨i, by rw [Option.some.inj he]⟩
      · exact .inr he
    · split at he
      · cases he
      · exact .inr he
    · exact .inr he
  obtain ⟨event, hmem, i, rfl⟩ := exists_of_foldl (f := chain.retain) (P := (· = some position)) (x := none) hstep nofun h
  obtain ⟨⟨event, s⟩, hmem, rfl⟩ := List.mem_map.1 hmem
  exact ⟨i, s, hmem⟩

/-! ## What the notes leave as it is -/

/-- The failure of all resolvers tells no more of them than their names. -/
theorem allFailed_congr {τ υ : Type} {rs : List (Resolver τ)} {rs' : List (Resolver υ)}
    (h : rs.map Resolver.name = rs'.map Resolver.name) (errors : List Failure) : allFailed rs errors = allFailed rs' errors := by
  have hzip : ∀ {τ : Type} (rs : List (Resolver τ)), List.zipWith (fun r f => r.name ++ ": " ++ f.text) rs errors =
      List.zipWith (fun name f => name ++ ": " ++ f.text) (rs.map Resolver.name) errors := by
    intro τ rs
    rw [List.zipWith_map_left]
  rw [allFailed, allFailed, hzip rs, hzip rs', h]

/-- All resolvers of a chain fail alike with notes and without. -/
theorem allFailed_noted (event : Nat → Outcome Identity → ChainEvent) (errors : List Failure) :
    allFailed (chain.noted event).resolvers errors = allFailed chain.resolvers errors :=
  allFailed_congr (map_name_notedFrom event 0 chain.resolvers) errors

/-- A resolver answers alike with notes and without. -/
theorem reporting_identity_noting (r : Resolver σ) (event : Outcome Identity → ChainEvent) (properties : Properties) :
    ((r.reporting event).identity properties).Noting (r.identity properties) := (Program.noting_beside _).reported _

theorem walk_noting (properties : Properties) (rs : List (Resolver σ)) (position : Nat) (errors : List Failure) :
    ((chain.noted .walked).walk properties (notedFrom .walked position rs) position errors).Noting
      (chain.walk properties rs position errors) := by
  induction rs generalizing position errors with
  | nil =>
    unfold notedFrom walk
    rw [allFailed_noted]
    exact .done _
  | cons r rest ih =>
    refine (reporting_identity_noting r (.walked position) properties).attempt.bind fun answer => ?_
    cases answer with
    | error f => exact ih (position + 1) (errors ++ [f])
    | ok i =>
      refine Program.Noting.bind ?_ fun _ => .done _
      unfold remember
      rw [show (chain.noted .walked).reuses = chain.reuses from rfl]
      split
      · exact Program.noting_change fun _ => rfl
      · exact .done _

theorem forget_noting (position : Nat) : ((chain.noted .walked).forget position).Noting (chain.forget position) :=
  Program.noting_change fun _ => rfl

/-- A call from the resolver that is asked first is the same with notes and without. -/
theorem identityFrom_noting (properties : Properties) (first : Option (Nat × Resolver σ)) :
    ((chain.noted .walked).identityFrom properties (first.map fun x => (x.1, x.2.reporting (.reused x.1)))).Noting
      (chain.identityFrom properties first) := by
  cases first with
  | none => exact walk_noting properties chain.resolvers 0 []
  | some x =>
    refine (reporting_identity_noting x.2 (.reused x.1) properties).attempt.bind fun answer => ?_
    cases answer with
    | ok i => exact .done _
    | error f => exact (forget_noting x.1).bind fun _ => walk_noting properties chain.resolvers 0 []

/-- A call that makes notes is a call but for the notes. -/
theorem call_noting (properties : Properties) : (chain.call properties).Noting (chain.identity properties) := by
  have hidentity : (Program.act id fun s => (chain.noted .walked).identityFrom properties (chain.notedFirst? s.1)).Noting
      (chain.identity properties) := .act (fun _ => rfl) fun s => identityFrom_noting properties (chain.first? s.1)
  exact .note _ (hidentity.reported _)

end Chain

end SignedCall
