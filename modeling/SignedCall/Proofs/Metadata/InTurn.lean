import SignedCall.Proofs.Metadata.Notes
import SignedCall.Proofs.Task.Guard

/-!
# One request for a token at a time

The lock of a client of the metadata service guards its requests for tokens: one is on its way while the lock is held, and none while
it is free. So at every point of a journal at most one request for a token is on its way (`OneAtATime`), as long as all tasks obey
(`obeys_call`, `obeys_giveUp`).
-/

namespace SignedCall.MetadataClient

variable {σ : Type} {client : MetadataClient σ}

/-- The number of requests for a token that were handed over. -/
def asked (journal : List (TokenNote σ)) : Nat := journal.countP fun e => e.1.isAsked

/-- The number of requests for a token that have come to their end. -/
def answered (journal : List (TokenNote σ)) : Nat := journal.countP fun e => e.1.isAnswered

/-- Whether a note is one of a request for a token. -/
def isRequestNote (e : TokenNote σ) : Bool := e.1.isAsked || e.1.isAnswered

/-- No more than one request is on its way at any point of a journal, and whether one is on its way at its end. -/
structure OneAtATime (journal : List (TokenNote σ)) (flying : Bool) : Prop where
  always : ∀ js, js <+: journal → answered js ≤ asked js ∧ asked js ≤ answered js + 1
  now : asked journal = answered journal + flying.toNat

namespace OneAtATime

variable {js : List (TokenNote σ)}

theorem nil : OneAtATime ([] : List (TokenNote σ)) false := by
  refine ⟨fun js hjs => ?_, rfl⟩
  obtain rfl := List.prefix_nil.1 hjs
  exact ⟨Nat.le_refl 0, Nat.zero_le 1⟩

/-- One more note keeps requests one at a time if it counts as one that is handed over or answered. -/
theorem concat {flying flying' : Bool} (h : OneAtATime js flying) {e : TokenNote σ}
    (hnow : asked (js ++ [e]) = answered (js ++ [e]) + flying'.toNat) : OneAtATime (js ++ [e]) flying' := by
  refine ⟨fun ks hks => ?_, hnow⟩
  rcases List.prefix_concat_iff.1 hks with rfl | hks
  · have hle := flying'.toNat_le
    omega
  · exact h.always ks hks

theorem ask (h : OneAtATime js false) (request : Request) (s : σ) : OneAtATime (js ++ [(.asked request, s)]) true := by
  have hnow := h.now
  refine h.concat ?_
  simp only [asked, answered, List.countP_append] at hnow ⊢
  simpa [TokenEvent.isAsked, TokenEvent.isAnswered] using hnow

theorem answer (h : OneAtATime js true) (o : Outcome Response) (s : σ) : OneAtATime (js ++ [(.answered o, s)]) false := by
  have hnow := h.now
  refine h.concat ?_
  simp only [asked, answered, List.countP_append] at hnow ⊢
  simpa [TokenEvent.isAsked, TokenEvent.isAnswered] using hnow

/-- The requests that were handed over are told by the notes of requests. -/
theorem asked_filter (js : List (TokenNote σ)) : asked (js.filter isRequestNote) = asked js := by
  unfold asked
  rw [List.countP_filter]
  exact List.countP_congr fun e _ => by simpa [isRequestNote] using .inl

/-- The requests that have come to their end are told by the notes of requests. -/
theorem answered_filter (js : List (TokenNote σ)) : answered (js.filter isRequestNote) = answered js := by
  unfold answered
  rw [List.countP_filter]
  exact List.countP_congr fun e _ => by simpa [isRequestNote] using .inr

/-- Other notes do not matter. -/
theorem of_filter {journal : List (TokenNote σ)} {flying : Bool} (h : OneAtATime (journal.filter isRequestNote) flying) :
    OneAtATime journal flying := by
  refine ⟨fun js hjs => ?_, ?_⟩
  · have hfilter := h.always _ (hjs.filter isRequestNote)
    rwa [asked_filter, answered_filter] at hfilter
  · have hnow := h.now
    rwa [asked_filter, answered_filter] at hnow

end OneAtATime

/-- The lock guards the notes of requests for tokens. -/
def guard (client : MetadataClient σ) : Guard (σ × List (TokenNote σ)) (List (TokenNote σ)) where
  lock := client.lock
  part s := s.2.filter isRequestNote
  idle js := OneAtATime js false
  busy js := OneAtATime js true
  leads _ _ := True
  leads_refl _ := trivial
  leads_trans _ _ := trivial

/-- What is left idle by those who hold the lock. -/
def LeftIdle (client : MetadataClient σ) {α : Type} (_ : Outcome α) (m : Option (List (TokenNote σ))) : Prop :=
  ∃ js, m = some js ∧ client.guard.idle js

/-- A note of a request is one of what the lock guards. -/
theorem part_inscribe {s : σ × List (TokenNote σ)} {event : TokenEvent} (he : (event.isAsked || event.isAnswered) = true) :
    client.guard.part (inscribe (event, ·) s) = client.guard.part s ++ [(event, s.1)] := by
  simp [guard, inscribe, isRequestNote, he]

/-- A note that is not one of a request for a token. -/
theorem part_inscribe_of_other {s : σ × List (TokenNote σ)} {event : TokenEvent} (he : (event.isAsked || event.isAnswered) = false) :
    client.guard.part (inscribe (event, ·) s) = client.guard.part s := by
  simp [guard, inscribe, isRequestNote, he]

/-- A request that is handed over under the lock comes to its end. -/
theorem obeys_send (hshuns : ∀ request, (client.host.send request).Shuns client.lock) (request : Request)
    {js : List (TokenNote σ)} (h : client.guard.idle js) :
    (client.noted.host.send request).Obeys client.guard client.LeftIdle (some js) := by
  intro s hs
  have hasked : client.guard.busy (js ++ [(.asked request, s.1)]) := OneAtATime.ask h request s.1
  refine ⟨trivial, ?_⟩
  rw [part_inscribe rfl, hs]
  have hkeeps : ((client.host.send request).beside : Program (σ × List (TokenNote σ)) Response).Keeps client.guard.part :=
    (Program.beside_keeps _).map fun js => js.filter isRequestNote
  have hsend : ((client.host.send request).beside : Program (σ × List (TokenNote σ)) Response).Obeys client.guard
      (fun _ m => m = some (js ++ [(.asked request, s.1)])) (some (js ++ [(.asked request, s.1)])) := by
    refine Program.Obeys.of_keeps hkeeps (hshuns request).beside (fun x hx => ?_) fun o => rfl
    exact Option.some.inj hx ▸ hasked
  refine hsend.andThen ?_
  rintro o m rfl s' hs'
  rw [part_inscribe rfl, hs']
  exact ⟨trivial, _, rfl, OneAtATime.answer hasked o s'.1⟩

/-- Asking for a token leaves none on its way at its end. -/
theorem obeys_fetchToken (hshuns : ∀ request, (client.host.send request).Shuns client.lock) {js : List (TokenNote σ)}
    (h : client.guard.idle js) : client.noted.fetchToken.Obeys client.guard client.LeftIdle (some js) := by
  unfold fetchToken request
  cases ((client.noted.config.request "PUT" tokenPath).mapError Url.Fault.failure).map fun b =>
      (b.setHeader lifetimeHeader (toString client.noted.config.tokenLifetime)).build with
  | error f => exact ⟨js, rfl, h⟩
  | ok request =>
    refine (obeys_send hshuns request h).andThen ?_
    rintro o _ ⟨ks, rfl, hks⟩
    cases o with
    | failed f => exact ⟨ks, rfl, hks⟩
    | cancelled => exact ⟨ks, rfl, hks⟩
    | value r =>
      simp only [Program.onValue]
      split
      · exact ⟨ks, rfl, hks⟩
      · cases textOf r.body with
        | error f => exact ⟨ks, rfl, hks⟩
        | ok value =>
          refine Program.Obeys.read fun now s hs => ⟨trivial, ?_⟩
          exact ⟨ks, congrArg some hs, hks⟩

/-- A call obeys. -/
theorem obeys_call (hshuns : ∀ request, (client.host.send request).Shuns client.lock) :
    client.call.Obeys client.guard Program.Unheld none := by
  have hrenew : ∀ {js : List (TokenNote σ)}, client.guard.idle js →
      client.noted.renewToken.Obeys client.guard client.LeftIdle (some js) := by
    intro js h
    refine Program.Obeys.read fun t => ?_
    split
    · exact obeys_fetchToken hshuns h
    · exact ⟨js, rfl, h⟩
  have hrefresh : client.notedRefresh.Obeys client.guard Program.Unheld none := by
    refine Program.Obeys.withLock (g := client.guard) (fun js h s hs => ⟨trivial, ?_⟩) fun o => rfl
    rw [part_inscribe_of_other rfl, hs]
    exact hrenew h
  have hfound : ∀ t : Option SessionToken, Program.Obeys client.guard
      (Program.ofExcept (found t) : Program (σ × List (TokenNote σ)) SessionToken) Program.Unheld none := by
    intro t
    cases t <;> rfl
  have htoken : (client.noted.tokenAfter client.notedRefresh).Obeys client.guard Program.Unheld none := by
    refine Program.Obeys.read fun t => ?_
    dsimp only
    split
    · exact Program.Obeys.bind hrefresh fun _ => Program.Obeys.read hfound
    · exact Program.Obeys.read hfound
  refine htoken.andThen fun o m hm => ?_
  obtain rfl : m = none := hm
  exact fun s => ⟨part_inscribe_of_other rfl, rfl⟩

/-- Giving up a token asks for none. -/
theorem obeys_giveUp : client.giveUp.Obeys client.guard Program.Unheld none :=
  fun _ => ⟨part_inscribe_of_other rfl, fun _ => ⟨rfl, rfl⟩⟩

end SignedCall.MetadataClient
