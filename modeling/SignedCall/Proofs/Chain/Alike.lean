import SignedCall.Credentials.Chain
import SignedCall.Proofs.Credentials.Answers

/-!
# Chains that answer alike

A chain and a longer one (`Continued`): from states of a kind, the first resolvers of the longer one do what the resolvers of the other
one do, and the others fail without a trace. Then their answers are alike, call for call: the same identity, or the failure of all
resolvers (`AnswersAlike`). What they remember is the same, too, so the failures of the last resolvers are never remembered. Main
statements: `Continued.identity_alike` for one call and `Continued.answers_alike` for calls one after the other.
-/

namespace SignedCall

variable {σ : Type} {w : Surroundings σ} {E : σ → Prop}

/-- A program that does the same as another one from every state of a kind, and ends in such a state. -/
def Program.AlikeIn {α : Type} (w : Surroundings σ) (E : σ → Prop) (p q : Program σ α) : Prop :=
  ∀ s, E s → q.runIn w s = p.runIn w s ∧ E (p.runIn w s).2

/-- A program that fails from every state of a kind and leaves that state as it is. -/
def Program.FailsIn {α : Type} (w : Surroundings σ) (E : σ → Prop) (p : Program σ α) : Prop :=
  ∀ s, E s → ∃ f, p.runIn w s = (.failed f, s)

/-- A program that ends in states of a kind is like itself. -/
theorem Program.AlikeIn.refl {α : Type} {p : Program σ α} (h : ∀ s, E s → E (p.runIn w s).2) : p.AlikeIn w E p :=
  fun s hs => ⟨rfl, h s hs⟩

/-- The same identity, the failure of all resolvers of a chain, or calls that were cancelled. -/
inductive AnswersAlike : Outcome Identity → Outcome Identity → Prop
  | given (i : Identity) : AnswersAlike (.value i) (.value i)
  | allFailed {f f' : Failure} : f.kind = .chain → f'.kind = .chain → AnswersAlike (.failed f) (.failed f')
  | cancelled : AnswersAlike .cancelled .cancelled

/-- Runs with answers that are alike, to the same state of a kind. -/
structure RunsAlike (E : σ → Prop) (x y : Outcome Identity × σ) : Prop where
  answers : AnswersAlike x.1 y.1
  state : x.2 = y.2
  kind : E x.2

namespace Chain

variable {chain longer : Chain σ}

/-- A walk asks the first resolver; an identity ends it, and a failure leads to the next resolver. -/
theorem walk_runIn (chain : Chain σ) (properties : Properties) (r : Resolver σ) (rest : List (Resolver σ)) (position : Nat)
    (errors : List Failure) (s : σ) :
    (chain.walk properties (r :: rest) position errors).runIn w s = match (r.identity properties).runIn w s with
      | (.value i, s') => (.value i, if chain.reuses then chain.lastUsed.set (some position) s' else s')
      | (.failed f, s') => (chain.walk properties rest (position + 1) (errors ++ [f])).runIn w s'
      | (.cancelled, s') => (.cancelled, s') := by
  refine (Program.runIn_attempt_bind (r.identity properties) _ s).trans ?_
  cases (r.identity properties).runIn w s with
  | mk o s' =>
    cases o with
    | value i =>
      refine (Program.runIn_bind _ _ s').trans ?_
      unfold remember
      cases chain.reuses <;> rfl
    | failed f => rfl
    | cancelled => rfl

/-- A call asks the remembered resolver, if there is one; its failure leads to the walk. -/
theorem identity_runIn (chain : Chain σ) (properties : Properties) (s : σ) :
    (chain.identity properties).runIn w s = match chain.first? s with
      | none => (chain.walkAll properties).runIn w s
      | some (position, r) => match (r.identity properties).runIn w s with
        | (.value i, s') => (.value i, s')
        | (.failed _, s') => (chain.walkAll properties).runIn w (chain.lastUsed.modify
            (fun remembered => if remembered = some position then none else remembered) s')
        | (.cancelled, s') => (.cancelled, s') := by
  change (chain.identityFrom properties (chain.first? s)).runIn w s = _
  cases chain.first? s with
  | none => rfl
  | some first =>
    obtain ⟨position, r⟩ := first
    refine (Program.runIn_attempt_bind (r.identity properties) _ s).trans ?_
    dsimp only
    cases (r.identity properties).runIn w s with
    | mk o s' => cases o <;> rfl

/-- A chain goes on with another one: they remember in the same place, the resolvers of the longer one begin with resolvers like
those of the other one, and the rest fails without a trace. The kind of states is such that only positions of the shorter one are
remembered. -/
structure Continued (w : Surroundings σ) (E : σ → Prop) (chain longer : Chain σ) : Prop where
  lastUsed : longer.lastUsed = chain.lastUsed
  reuses : longer.reuses = chain.reuses
  resolvers : ∃ begun extra, longer.resolvers = begun ++ extra ∧
    List.Forall₂ (fun r r' => ∀ properties, (r.identity properties).AlikeIn w E (r'.identity properties)) chain.resolvers begun ∧
    ∀ r ∈ extra, ∀ properties, (r.identity properties).FailsIn w E
  remembers : ∀ position s, position < chain.resolvers.length → E s → E (chain.lastUsed.set (some position) s)
  forgets : ∀ s, E s → E (chain.lastUsed.set none s)
  within : ∀ position s, E s → chain.lastUsed.get s = some position → position < chain.resolvers.length

/-- A walk along resolvers that fail without a trace fails, and leaves no trace. -/
theorem walk_failing (chain : Chain σ) {extra : List (Resolver σ)} {properties : Properties}
    (hextra : ∀ r ∈ extra, (r.identity properties).FailsIn w E) (position : Nat) (errors : List Failure) {s : σ} (hs : E s) :
    ∃ f, f.kind = .chain ∧ (chain.walk properties extra position errors).runIn w s = (.failed f, s) := by
  induction extra generalizing position errors with
  | nil => exact ⟨allFailed chain.resolvers errors, rfl, rfl⟩
  | cons r rest ih =>
    obtain ⟨f, hf⟩ := hextra r List.mem_cons_self s hs
    rw [walk_runIn, hf]
    exact ih (fun r hr => hextra r (List.mem_cons_of_mem _ hr)) (position + 1) (errors ++ [f])

namespace Continued

variable (h : Continued w E chain longer)
include h

/-- Forgetting a position leads to a state of the kind. -/
theorem forgetting (position : Nat) {s : σ} (hs : E s) :
    E (chain.lastUsed.modify (fun remembered => if remembered = some position then none else remembered) s) := by
  dsimp only [Slot.modify]
  split
  · exact h.forgets s hs
  · rw [chain.lastUsed.set_get]
    exact hs

/-- Walks along resolvers that are alike are alike, also if one of them goes on with resolvers that fail. -/
theorem walk_alike {rs begun extra : List (Resolver σ)}
    (hrs : List.Forall₂ (fun r r' => ∀ properties, (r.identity properties).AlikeIn w E (r'.identity properties)) rs begun)
    (hextra : ∀ r ∈ extra, ∀ properties, (r.identity properties).FailsIn w E) (properties : Properties) {position : Nat}
    (hlength : position + rs.length = chain.resolvers.length) (errors errors' : List Failure) {s : σ} (hs : E s) :
    RunsAlike E ((chain.walk properties rs position errors).runIn w s)
      ((longer.walk properties (begun ++ extra) position errors').runIn w s) := by
  induction hrs generalizing position errors errors' s with
  | nil =>
    obtain ⟨f, hkind, hf⟩ := longer.walk_failing (fun r hr => hextra r hr properties) position errors' hs
    rw [List.nil_append, hf]
    exact ⟨.allFailed rfl hkind, rfl, hs⟩
  | @cons r r' rs begun hr _ ih =>
    obtain ⟨hsame, hend⟩ := hr properties s hs
    rw [List.cons_append, walk_runIn, walk_runIn, hsame]
    rw [List.length_cons] at hlength
    cases hrun : (r.identity properties).runIn w s with
    | mk o s' =>
      rw [hrun] at hend
      cases o with
      | value i =>
        have hlt : position < chain.resolvers.length := by omega
        refine ⟨.given i, by rw [h.reuses, h.lastUsed], ?_⟩
        dsimp only
        split
        · exact h.remembers position s' hlt hend
        · exact hend
      | failed f => exact ih (by omega) _ _ hend
      | cancelled => exact ⟨.cancelled, rfl, hend⟩

/-- Walks through all resolvers of both chains end alike. -/
theorem walkAll_alike (properties : Properties) {s : σ} (hs : E s) :
    RunsAlike E ((chain.walkAll properties).runIn w s) ((longer.walkAll properties).runIn w s) := by
  obtain ⟨begun, extra, hlonger, hbegun, hextra⟩ := h.resolvers
  unfold walkAll
  rw [hlonger]
  exact h.walk_alike hbegun hextra properties (Nat.zero_add _) [] [] hs

/-- The resolvers that are asked first are at the same position, and are alike. -/
theorem first?_alike {s : σ} (hs : E s) :
    (chain.first? s = none ∧ longer.first? s = none) ∨
      ∃ position r r', chain.first? s = some (position, r) ∧ longer.first? s = some (position, r') ∧
        ∀ properties, (r.identity properties).AlikeIn w E (r'.identity properties) := by
  obtain ⟨begun, extra, hlonger, hbegun, -⟩ := h.resolvers
  unfold first?
  rw [h.reuses, h.lastUsed]
  cases chain.reuses with
  | false => exact .inl ⟨rfl, rfl⟩
  | true =>
    cases hget : chain.lastUsed.get s with
    | none => exact .inl ⟨rfl, rfl⟩
    | some position =>
      have hlt := h.within position s hs hget
      have hlt' : position < begun.length := hbegun.length_eq ▸ hlt
      refine .inr ⟨position, chain.resolvers[position], begun[position], ?_, ?_, hbegun.get hlt hlt'⟩
      · simp [List.getElem?_eq_getElem hlt]
      · simp [hlonger, List.getElem?_append_left hlt', List.getElem?_eq_getElem hlt']

/-- One call has answers that are alike, and leads to the same state. -/
theorem identity_alike (properties : Properties) {s : σ} (hs : E s) :
    RunsAlike E ((chain.identity properties).runIn w s) ((longer.identity properties).runIn w s) := by
  rw [identity_runIn, identity_runIn]
  rcases h.first?_alike hs with ⟨hfirst, hfirst'⟩ | ⟨position, r, r', hfirst, hfirst', halike⟩
  · rw [hfirst, hfirst']
    exact h.walkAll_alike properties hs
  · obtain ⟨hsame, hend⟩ := halike properties s hs
    rw [hfirst, hfirst']
    dsimp only
    rw [hsame]
    cases hrun : (r.identity properties).runIn w s with
    | mk o s' =>
      rw [hrun] at hend
      cases o with
      | value i => exact ⟨.given i, rfl, hend⟩
      | failed f =>
        dsimp only
        rw [h.lastUsed]
        exact h.walkAll_alike properties (h.forgetting position hend)
      | cancelled => exact ⟨.cancelled, rfl, hend⟩

/-- So have calls one after the other. -/
theorem answers_alike {calls : List (Asking σ)} (hbefore : ∀ call ∈ calls, ∀ s, E s → E (call.before s)) {s : σ} (hs : E s) :
    List.Forall₂ AnswersAlike (chain.resolver.answers w calls s).1 (longer.resolver.answers w calls s).1 ∧
      (chain.resolver.answers w calls s).2 = (longer.resolver.answers w calls s).2 := by
  induction calls generalizing s with
  | nil => exact ⟨.nil, rfl⟩
  | cons first rest ih =>
    have hfirst := h.identity_alike first.properties (hbefore first List.mem_cons_self s hs)
    obtain ⟨hrest, hend⟩ := ih (fun call hcall => hbefore call (List.mem_cons_of_mem _ hcall)) hfirst.kind
    have hstate := hfirst.state
    refine ⟨.cons hfirst.answers ?_, ?_⟩
    · exact hstate ▸ hrest
    · exact hend.trans (congrArg (fun s => (longer.resolver.answers w rest s).2) hstate)

end Continued

end Chain

end SignedCall
