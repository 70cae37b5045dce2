import SignedCall.Proofs.Http.RoundTrip
import SignedCall.Proofs.Metadata.InTurn
import SignedCall.Proofs.Rehearsal
import SignedCall.Proofs.Task.Discipline
import SignedCall.Task.Session

/-!
# Session tokens

Calls for the session token may be interleaved with each other, with giving it up and with the clock, and may be cancelled in any way.
At every moment of every run the token that is kept is the one that the journal tells, and the notes of each call follow one course
(`MayNote`): it has the lock, finds no token that has not expired, asks for one and is answered. So the tokens that are handed out have
not expired, and a call fails only as its own request does (`hands_out_fresh_tokens`). Every run without notes is such a run but for the
notes (`exists_recorded`).
-/

namespace SignedCall.MetadataClient

variable {σ : Type} {client : MetadataClient σ}

/-- A client whose settings were checked, and whose host leaves alone the token, the lock and, where a token is put, the clock. -/
structure Sound (client : MetadataClient σ) : Prop where
  settings : ∃ policy endpoint mode lifetime profileName,
    MetadataConfig.make policy endpoint mode lifetime profileName = .ok client.config
  keeps : ∀ request, (client.host.send request).Keeps client.slot.get
  shuns : ∀ request, (client.host.send request).Shuns client.lock
  clock : client.slot.Apart client.host.now

/-- The token that is kept and has not expired. -/
def fresh? (client : MetadataClient σ) (s : σ) : Option SessionToken :=
  (client.slot.get s).filter fun t => !t.isExpired (client.host.now s)

/-- How the requests of a call for a token fail, with the notes that it has made since it began. -/
inductive Fails (client : MetadataClient σ) : List (TokenNote σ) → Failure → Prop
  | unaddressed {s : σ} {fault : Url.Fault} : client.config.request "PUT" tokenPath = .error fault →
      Fails client [(.locked, s)] fault.failure
  | unanswered {s s' s'' : σ} {request : Request} {f : Failure} :
      Fails client [(.locked, s), (.asked request, s'), (.answered (.failed f), s'')] f
  | refused {s s' s'' : σ} {request : Request} {r : Response} : r.status ≠ 200 →
      Fails client [(.locked, s), (.asked request, s'), (.answered (.value r), s'')] (noToken r.status)
  | undecodable {s s' s'' : σ} {request : Request} {r : Response} {f : Failure} : r.status = 200 → textOf r.body = .error f →
      Fails client [(.locked, s), (.asked request, s'), (.answered (.value r), s'')] f

/-- What may be noted of a call after its other notes, or of giving up the token. -/
def MayNote (client : MetadataClient σ) (cur : List (TokenNote σ)) (e : TokenNote σ) : Prop :=
  match e.1 with
  | .locked => cur = []
  | .asked request => request.method = "PUT" ∧ ∃ s, cur = [(.locked, s)] ∧ client.fresh? s = none
  | .answered _ => ∃ s s' request, cur = [(.locked, s), (.asked request, s')]
  | .returned (.value t) => client.fresh? e.2 = some t
  | .returned (.failed f) => client.Fails cur f
  | .returned .cancelled => True
  | .invalidated => cur = []

/-- What the tasks keep to that ask for the token. -/
def discipline (client : MetadataClient σ) : Discipline σ (Option SessionToken) (TokenNote σ) where
  part := client.slot.get
  rests := Recalls client.slot.get client.latest
  ends e := e.1.isEnd
  may := client.MayNote

/-- After one more note, the token that is kept is what that note makes of it. -/
theorem rests_concat {s s' : σ × List (TokenNote σ)} (hs : client.discipline.Rests s) {event : TokenEvent}
    (hjournal : s'.2 = s.2 ++ [(event, s.1)]) (hkept : client.slot.get s'.1 = client.keep (client.slot.get s.1) (event, s.1)) :
    client.discipline.Rests s' := Recalls.step latest_concat hs hjournal hkept

/-- A note that does not change the token. -/
theorem rests_noted {s : σ × List (TokenNote σ)} (hs : client.discipline.Rests s) (event : TokenEvent)
    (hevent : client.keep (client.slot.get s.1) (event, s.1) = client.slot.get s.1) :
    client.discipline.Rests (inscribe (event, ·) s) := rests_concat hs rfl hevent.symm

/-! ## Seeing to a token beside any notes -/

/-- A request to the service has the method that it is made for. -/
theorem method_of_request {config : MetadataConfig} {method path : String} {b : RequestBuilder}
    (h : config.request method path = .ok b) : b.method = method := by
  unfold MetadataConfig.request at h
  cases hread : RequestBuilder.ofUrl config.endpoint method with
  | error fault =>
    rw [hread] at h
    cases h
  | ok b' =>
    rw [hread] at h
    obtain ⟨parts, port, -, -, -, rfl⟩ := RequestBuilder.of_ofUrl hread
    rw [← Except.ok.inj h]
    rfl

section Beside

variable {ν τ : Type} {d : Discipline σ τ ν} {host' : Host (σ × List ν)} {cur : List ν} {s : σ × List ν}

/-- A token is asked for, and kept if the answer comes to one. -/
theorem follows_fetchToken_of {mid : Request → Outcome Response → List ν → σ × List ν → Prop}
    {post : Outcome Unit → List ν → σ × List ν → Prop}
    (hunaddressed : ∀ fault : Url.Fault, client.config.request "PUT" tokenPath = .error fault → post (.failed fault.failure) cur s)
    (hsend : ∀ request, request.method = "PUT" → (host'.send request).Follows d (mid request) cur s)
    (hvalue : ∀ request o cur s value, request.method = "PUT" → mid request o cur s → tokenIn o = .value value →
      post (.value ()) cur ((client.beside host').slot.set (some ⟨value, client.config.tokenLifetime, host'.now s⟩) s))
    (hpassed : ∀ request o o' cur s, request.method = "PUT" → mid request o cur s → (tokenIn o).Passes o' → post o' cur s) :
    (client.beside host').fetchToken.Follows d post cur s := by
  unfold fetchToken request
  rw [show (client.beside host').config = client.config from rfl]
  cases hrequest : client.config.request "PUT" tokenPath with
  | error fault => exact hunaddressed fault hrequest
  | ok b =>
    have hput : (b.setHeader lifetimeHeader (toString client.config.tokenLifetime)).build.method = "PUT" :=
      show b.method = "PUT" from method_of_request hrequest
    refine (hsend _ hput).bind ?_ ?_ ?_
    · intro r cur s hmid
      dsimp only
      split
      · next hstatus => exact hpassed _ _ _ cur s hput hmid (by rw [tokenIn, if_pos hstatus]; exact .failed _)
      · next hstatus =>
        have hserved : tokenIn (.value r) = .of (textOf r.body) := tokenIn_of_served (not_not.1 hstatus)
        cases htext : textOf r.body with
        | error f => exact hpassed _ _ _ cur s hput hmid (by rw [hserved, htext]; exact .failed f)
        | ok value => exact Program.follows_read (Or.inl ⟨rfl, hvalue _ _ cur s value hput hmid (by rw [hserved, htext]; rfl)⟩)
    · exact fun f cur s hmid => hpassed _ _ _ cur s hput hmid (.failed f)
    · exact fun cur s hmid => hpassed _ _ _ cur s hput hmid .cancelled

/-- Under the lock either a token is there that has not expired, or one is asked for. -/
theorem follows_renewToken_of {post : Outcome Unit → List ν → σ × List ν → Prop} (h : host'.Noting client.host)
    (hkept : ∀ t, client.fresh? s.1 = some t → post (.value ()) cur s)
    (hnone : client.fresh? s.1 = none → (client.beside host').fetchToken.Follows d post cur s) :
    (client.beside host').renewToken.Follows d post cur s := by
  refine Program.follows_read ?_
  change (if ((client.slot.get s.1).filter fun t => !t.isExpired (host'.now s)).isNone then (client.beside host').fetchToken else pure () :
    Program (σ × List ν) Unit).Follows _ _ _ _
  rw [h.now]
  change (if (client.fresh? s.1).isNone then _ else _ : Program (σ × List ν) Unit).Follows _ _ _ _
  cases hfresh : client.fresh? s.1 with
  | none => exact hnone hfresh
  | some t => exact hkept t hfresh

/-- The token that is kept after a refresh is handed over in the turn in which the refresh ends. -/
theorem follows_tokenAfter_of {refresh : Program (σ × List ν) Unit} {post : Outcome SessionToken → List ν → σ × List ν → Prop}
    (h : host'.Noting client.host) (hkept : ∀ t, client.fresh? s.1 = some t → post (.value t) cur s)
    (hrefresh : client.fresh? s.1 = none → refresh.Follows d (fun o cur s =>
      (∀ u, o = .value u → ∃ t, client.fresh? s.1 = some t ∧ post (.value t) cur s) ∧ ∀ o', o.Passes o' → post o' cur s) cur s) :
    ((client.beside host').tokenAfter refresh).Follows d post cur s := by
  have hread : ∀ {cur} {s : σ × List ν} {t : SessionToken}, client.fresh? s.1 = some t → post (.value t) cur s →
      (Program.read (client.beside host').slot.get >>= fun t => Program.ofExcept (found t)).Follows d post cur s := by
    intro cur s t hfresh hpost
    refine Program.follows_read ?_
    change (Program.ofExcept (found (client.slot.get s.1))).Follows _ _ _ _
    rw [(Option.filter_eq_some_iff.1 hfresh).1]
    exact hpost
  refine Program.follows_read ?_
  change (if ((client.slot.get s.1).filter fun t => !t.isExpired (host'.now s)).isNone then refresh >>= fun _ => _ else _ :
    Program (σ × List ν) SessionToken).Follows _ _ _ _
  rw [h.now]
  change (if (client.fresh? s.1).isNone then _ else _ : Program (σ × List ν) SessionToken).Follows _ _ _ _
  cases hfresh : client.fresh? s.1 with
  | some t => exact hread hfresh (hkept t hfresh)
  | none =>
    refine (hrefresh hfresh).bind ?_ ?_ ?_
    · rintro u cur s ⟨hvalue, -⟩
      obtain ⟨t, hfresh, hpost⟩ := hvalue u rfl
      exact hread hfresh hpost
    · exact fun f cur s hmid => hmid.2 _ (.failed f)
    · exact fun cur s hmid => hmid.2 _ .cancelled

end Beside

/-! ## The parts of a call -/

/-- An answer that gives no token leaves the one that is kept. -/
theorem keep_of_not_accepted {o : Outcome Response} (h : accepted? o = none) (kept : Option SessionToken) (s : σ) :
    client.keep kept (.answered o, s) = kept := by
  simp only [keep, h]

/-- A token lives for some time. -/
theorem lifetime_pos (hc : client.Sound) : 0 < client.config.tokenLifetime := by
  obtain ⟨policy, endpoint, mode, lifetime, profileName, hmake⟩ := hc.settings
  unfold MetadataConfig.make at hmake
  cases hendpoint : MetadataConfig.resolveEndpoint endpoint mode with
  | error fault =>
    rw [hendpoint] at hmake
    cases hmake
  | ok resolved =>
    rw [hendpoint] at hmake
    change (if (lifetime < MetadataConfig.minLifetime || MetadataConfig.maxLifetime < lifetime) = true then _ else _) = _ at hmake
    split at hmake
    · cases hmake
    · next hrange =>
      have hlifetime : client.config.tokenLifetime = lifetime := by rw [← Except.ok.inj hmake]
      simp only [Bool.or_eq_true, decide_eq_true_eq, not_or, Int.not_lt] at hrange
      have hmin : (0 : Int) < MetadataConfig.minLifetime := by decide
      omega

/-- A token that is put into its place now has not expired. -/
theorem fresh?_set (hc : client.Sound) (value : String) (s : σ) :
    client.fresh? (client.slot.set (some ⟨value, client.config.tokenLifetime, client.host.now s⟩) s) =
      some ⟨value, client.config.tokenLifetime, client.host.now s⟩ := by
  have hpos := lifetime_pos hc
  have hsecond : (0 : Int) < secondMicros := by decide
  have hfresh : (⟨value, client.config.tokenLifetime, client.host.now s⟩ : SessionToken).isExpired (client.host.now s) = false := by
    have hmicros := Int.mul_pos hpos hsecond
    simp only [SessionToken.isExpired, decide_eq_false_iff_not]
    omega
  unfold fresh?
  rw [client.slot.get_set, hc.clock, Option.filter_some, hfresh]
  rfl

/-- What holds at the end of a refresh: a token is kept that has not expired, or the request for one has failed. -/
def Refreshed (client : MetadataClient σ) (o : Outcome Unit) (cur : List (TokenNote σ)) (s : σ × List (TokenNote σ)) : Prop :=
  client.discipline.Rests s ∧ (∀ u, o = .value u → ∃ t, client.fresh? s.1 = some t) ∧ ∀ f, o = .failed f → client.Fails cur f

/-- The request for a token is handed over, and its answer is noted. -/
theorem follows_asked (hc : client.Sound) {request : Request} (hput : request.method = "PUT") {s : σ × List (TokenNote σ)}
    (hs : client.discipline.Rests s) (hnone : client.fresh? s.1 = none) :
    (client.noted.host.send request).Follows client.discipline (fun o cur s' => ∃ s₂, client.discipline.Rests s₂ ∧
      cur = [(.locked, s.1), (.asked request, s.1), (.answered o, s₂.1)] ∧ s' = inscribe (.answered o, ·) s₂) [(.locked, s.1)] s := by
  have hmay : client.MayNote [(.locked, s.1)] (.asked request, s.1) := ⟨hput, s.1, rfl, hnone⟩
  have hkeeps : ((client.host.send request).beside : Program (σ × List (TokenNote σ)) Response).Keeps client.discipline.view :=
    (hc.keeps request).beside
  refine Program.Follows.announced hmay ((Program.Follows.of_keeps hkeeps _ (rests_noted hs _ rfl)).reported ?_)
  rintro o _ s₂ ⟨rfl, hs₂⟩
  exact ⟨⟨s.1, s.1, request, rfl⟩, s₂, hs₂, rfl, rfl⟩

/-- Where the answer to a request for a token comes to a failure, so do the requests of the call. -/
theorem Fails.of_tokenIn {s s' s'' : σ} {request : Request} {o : Outcome Response} {f : Failure}
    (h : (tokenIn o).Passes (.failed f : Outcome Unit)) :
    client.Fails [(.locked, s), (.asked request, s'), (.answered o, s'')] f := by
  cases o with
  | failed f' =>
    obtain rfl := Outcome.failed.inj h.eq_failed
    exact .unanswered
  | cancelled => cases h
  | value r =>
    by_cases hstatus : r.status = 200
    · rw [tokenIn_of_served hstatus] at h
      cases htext : textOf r.body with
      | ok text =>
        rw [htext] at h
        cases h
      | error f' =>
        rw [htext] at h
        obtain rfl := Outcome.failed.inj h.eq_failed
        exact .undecodable hstatus htext
    · rw [tokenIn, if_pos hstatus] at h
      obtain rfl := Outcome.failed.inj h.eq_failed
      exact .refused hstatus

/-- A token is asked for, and kept if the answer gives one. -/
theorem follows_fetchToken (hc : client.Sound) {s : σ × List (TokenNote σ)} (hs : client.discipline.Rests s)
    (hnone : client.fresh? s.1 = none) :
    client.noted.fetchToken.Follows client.discipline client.Refreshed [(.locked, s.1)] s := by
  refine follows_fetchToken_of (fun fault hrequest => ?_) (fun request hput => follows_asked hc hput hs hnone) ?_ ?_
  · refine ⟨hs, nofun, fun f hf => ?_⟩
    obtain rfl := Outcome.failed.inj hf
    exact .unaddressed hrequest
  · rintro request o _ _ value - ⟨s₂, hs₂, rfl, rfl⟩ hvalue
    refine ⟨?_, fun _ _ => ⟨_, fresh?_set hc value s₂.1⟩, nofun⟩
    refine rests_concat hs₂ rfl ?_
    simp only [keep, accepted?_of_tokenIn hvalue]
    exact client.slot.get_set _ _
  · rintro request o o' _ _ - ⟨s₂, hs₂, rfl, rfl⟩ hpassed
    refine ⟨rests_noted hs₂ _ (keep_of_not_accepted (not_accepted_of_tokenIn hpassed) _ _), fun u hu => absurd hu (hpassed.ne_value u), ?_⟩
    rintro f rfl
    exact .of_tokenIn hpassed

/-- Under the lock a token is renewed in keeping with the discipline. -/
theorem follows_renewToken (hc : client.Sound) {s : σ × List (TokenNote σ)} (hs : client.discipline.Rests s) :
    client.noted.renewToken.Follows client.discipline client.Refreshed [(.locked, s.1)] s :=
  follows_renewToken_of (notedHost_noting client.host) (fun t hfresh => ⟨hs, fun _ _ => ⟨t, hfresh⟩, nofun⟩)
    (follows_fetchToken hc hs)

/-- A refresh that notes when it has the lock keeps the discipline. -/
theorem follows_notedRefresh (hc : client.Sound) {s : σ × List (TokenNote σ)} (hs : client.discipline.Rests s) :
    client.notedRefresh.Follows client.discipline client.Refreshed [] s := by
  refine Program.Follows.withLock hs (fun s hs => ?_) fun s hs => ⟨hs, nofun, nofun⟩
  exact Program.Follows.announced rfl (follows_renewToken hc (s := inscribe (.locked, ·) s) (rests_noted hs _ rfl))

/-- What holds at the end of a call, before its outcome is noted. -/
def Answered (client : MetadataClient σ) (o : Outcome SessionToken) (cur : List (TokenNote σ)) (s : σ × List (TokenNote σ)) : Prop :=
  client.discipline.Rests s ∧ (∀ t, o = .value t → client.fresh? s.1 = some t) ∧ ∀ f, o = .failed f → client.Fails cur f

/-- The token that a call gives has not expired, and it fails only as its own request does. -/
theorem follows_tokenAfter (hc : client.Sound) {s : σ × List (TokenNote σ)} (hs : client.discipline.Rests s) :
    (client.noted.tokenAfter client.notedRefresh).Follows client.discipline client.Answered [] s := by
  have hanswered : ∀ {cur s} {t : SessionToken}, client.discipline.Rests s → client.fresh? s.1 = some t →
      client.Answered (.value t) cur s := fun hs hfresh => ⟨hs, fun _ ht => Outcome.value.inj ht ▸ hfresh, nofun⟩
  refine follows_tokenAfter_of (notedHost_noting client.host) (fun t hfresh => hanswered hs hfresh) fun _ => ?_
  refine (follows_notedRefresh hc hs).mono ?_
  rintro o cur s ⟨hs, hvalue, hfailed⟩
  refine ⟨fun u hu => ?_, fun o' ho => ⟨hs, fun t ht => absurd ht (ho.ne_value t), fun f hf => ?_⟩⟩
  · obtain ⟨t, hfresh⟩ := hvalue u hu
    exact ⟨t, hfresh, hanswered hs hfresh⟩
  · cases ho with
    | failed f' => exact hfailed f (congrArg _ (Outcome.failed.inj hf))
    | cancelled => cases hf

/-- A call that notes how it ended keeps the discipline. -/
theorem follows_call (hc : client.Sound) {s : σ × List (TokenNote σ)} (hs : client.discipline.Rests s) :
    client.call.Follows client.discipline client.discipline.Ended [] s := by
  refine Program.Follows.reported (follows_tokenAfter hc hs) ?_
  rintro o cur s ⟨hs, hvalue, hfailed⟩
  refine ⟨?_, rfl, rests_noted hs _ rfl⟩
  cases o with
  | value t => exact hvalue t rfl
  | failed f => exact hfailed f rfl
  | cancelled => exact trivial

/-- Giving up the token keeps the discipline. -/
theorem follows_giveUp {s : σ × List (TokenNote σ)} (hs : client.discipline.Rests s) :
    client.giveUp.Follows client.discipline client.discipline.Ended [] s := by
  refine Program.Follows.announced rfl (Or.inl ⟨rfl, rfl, rests_concat hs rfl ?_⟩)
  exact client.slot.get_set _ _

/-! ## Runs -/

/-- What a task may do with the token: ask for it, give it up, and anything that leaves alone the token, its notes and the lock. -/
inductive Use (client : MetadataClient σ) : ∀ α : Type, Program (σ × List (TokenNote σ)) α → Prop
  | other {α : Type} {p : Program (σ × List (TokenNote σ)) α} : p.Keeps client.discipline.view → p.Shuns client.lock → Use client α p
  | call : Use client SessionToken client.call
  | giveUp : Use client Unit client.giveUp

/-- What may happen: tasks have their turns, are woken, cancelled or made, and the rest of the state changes. -/
def Permits (client : MetadataClient σ) : Move (σ × List (TokenNote σ)) → Prop := Move.Within client.Use client.discipline.view

/-- The points of runs that begin without a token, and with nothing noted, with who made which note on the way. -/
def Recorded (client : MetadataClient σ) : Pool (σ × List (TokenNote σ)) → Record (TokenNote σ) → Prop :=
  Pool.Recorded (fun s => client.slot.get s.1 = none ∧ s.2 = []) client.Permits

variable {p : Pool (σ × List (TokenNote σ))} {record : Record (TokenNote σ)}

/-- Whatever a task may do with the token keeps the discipline. -/
theorem follows_use (hc : client.Sound) {α : Type} {p : Program (σ × List (TokenNote σ)) α} (hp : client.Use α p)
    {s : σ × List (TokenNote σ)} (hs : client.discipline.Rests s) : p.Follows client.discipline client.discipline.Ended [] s := by
  cases hp with
  | other hkeeps _ => exact Program.Follows.of_keeps hkeeps [] hs
  | call => exact follows_call hc hs
  | giveUp => exact follows_giveUp hs

/-- Whatever a task may do with the token obeys the guard. -/
theorem obeys_use (hc : client.Sound) {α : Type} {p : Program (σ × List (TokenNote σ)) α} (hp : client.Use α p) :
    p.Obeys client.guard Program.Unheld none := by
  cases hp with
  | other hkeeps hshuns => exact Program.Obeys.of_keeps (hkeeps.map fun x => x.2.filter isRequestNote) hshuns nofun fun o => rfl
  | call => exact obeys_call hc.shuns
  | giveUp => exact obeys_giveUp

/-- In every run, the token that is kept is what the journal tells, and the notes of each task are proper. -/
theorem Recorded.recalls (hc : client.Sound) (h : client.Recorded p record) :
    p.state.2 = record.journal ∧ Recalls client.slot.get client.latest (client.slot.get p.state.1) p.state.2 ∧
      ∀ t, Proper (fun e => e.1.isEnd) client.MayNote (record.trail t) := by
  have hstart : ∀ s, client.slot.get s.1 = none ∧ s.2 = [] → s.2 = [] ∧ client.discipline.Rests s :=
    fun s hs => ⟨hs.2, Recalls.start hs.1 hs.2⟩
  exact Pool.Recorded.disciplined hstart (fun _ => Pool.admits_of_within fun _ _ hp _ hs => follows_use hc hp hs) h

/-- In every run, at most one request for a token is on its way at any time. -/
theorem Recorded.oneAtATime (hc : client.Sound) (h : client.Recorded p record) :
    OneAtATime p.state.2 (p.locks client.lock).held := by
  have hstart : ∀ s : σ × List (TokenNote σ), client.slot.get s.1 = none ∧ s.2 = [] → client.guard.idle (client.guard.part s) := by
    intro s hs
    rw [show client.guard.part s = [] by simp [guard, hs.2]]
    exact OneAtATime.nil
  obtain ⟨-, holder, hguarded⟩ := Pool.Reached.guarded hstart
    (fun _ => Pool.allowed_of_within (f := fun x => x.2.filter isRequestNote) (fun _ _ hp => obeys_use hc hp) fun _ => rfl) h.reached
  obtain ⟨hbusy, hidle⟩ := hguarded.part
  cases hheld : (p.locks client.lock).held with
  | true => exact (hbusy hheld).of_filter
  | false => exact (hidle hheld).of_filter

/-- A call does not fail for want of a token after a refresh, unless its request fails like this itself. -/
theorem Fails.of_noTokenKept {notes : List (TokenNote σ)} {f : Failure} (h : client.Fails notes f) (hf : f = noTokenKept) :
    ∃ s, (TokenEvent.answered (.failed f), s) ∈ notes := by
  have hkind : f.kind = .other "AssertionError" := congrArg Failure.kind hf
  cases h with
  | @unaddressed s fault _ => cases fault <;> cases hkind
  | @unanswered s s' s'' => exact ⟨s'', by simp⟩
  | refused _ => cases hkind
  | @undecodable s s' s'' request r f _ htext =>
    unfold textOf at htext
    cases hdecode : Text.Utf8.decode r.body with
    | ok text =>
      rw [hdecode] at htext
      cases htext
    | error fault =>
      rw [hdecode] at htext
      obtain rfl := Except.error.inj htext
      cases hkind

/-- Take any run in which calls for the token, giving it up, cancellations, the clock and other work are interleaved, while the answers
are anything. At most one request for a token is on its way at any time. A call that returns gives the token that is kept then and has
not expired; its value is the body of an answer with status 200. A request whose answer gives no token leaves the token as it was. A
request for a token is made only where none was kept that had not expired when the call had got the lock, and its answer comes next. A
call fails only as its request fails, and not for want of a token after a refresh. -/
theorem hands_out_fresh_tokens (hc : client.Sound) (h : client.Recorded p record) :
    p.state.2 = record.journal ∧
      (∀ js, js <+: p.state.2 → answered js ≤ asked js ∧ asked js ≤ answered js + 1) ∧
      (∀ js t s ks, p.state.2 = js ++ (.returned (.value t), s) :: ks →
        client.slot.get s = some t ∧ t.isExpired (client.host.now s) = false ∧
        ∃ r s', (TokenEvent.answered (.value r), s') ∈ js ∧ r.status = 200 ∧ textOf r.body = .ok t.value) ∧
      (∀ js o s ks, p.state.2 = js ++ (.answered o, s) :: ks → accepted? o = none →
        partBefore client.slot.get ks p.state.1 = client.slot.get s) ∧
      (∀ t js request s ks, record.trail t = js ++ (.asked request, s) :: ks → request.method = "PUT" ∧
        ∃ before s₀, js = before ++ [(.locked, s₀)] ∧
          ∀ kept, client.slot.get s₀ = some kept → kept.isExpired (client.host.now s₀) = true) ∧
      (∀ t js o s ks, record.trail t = js ++ (.answered o, s) :: ks → ∃ before request s₀, js = before ++ [(.asked request, s₀)]) ∧
      ∀ t js f s ks, record.trail t = js ++ (.returned (.failed f), s) :: ks → ∃ before notes, js = before ++ notes ∧
        client.Fails notes f ∧ (f = noTokenKept → ∃ s', (.answered (.failed f), s') ∈ notes) := by
  obtain ⟨hjournal, hrecalls, hproper⟩ := h.recalls hc
  refine ⟨hjournal, (h.oneAtATime hc).always, fun js t s ks hsplit => ?_, fun js o s ks hsplit hnone => ?_,
    fun t js request s ks hsplit => ?_, fun t js o s ks hsplit => ?_, fun t js f s ks hsplit => ?_⟩
  · obtain ⟨before, u, rest, hrecord, hbefore⟩ := Record.exists_of_journal (hjournal ▸ hsplit)
    have hfresh : client.fresh? s = some t := hproper u _ _ _ (Record.trail_split hrecord)
    obtain ⟨hkept, hexpired⟩ := Option.filter_eq_some_iff.1 hfresh
    have hlatest : client.latest js = some t := (hrecalls.before js _ ks hsplit).symm.trans hkept
    exact ⟨hkept, by simpa using hexpired, answered_of_latest hlatest⟩
  · rw [hsplit, List.append_cons] at hrecalls
    rw [hrecalls.partBefore, latest_concat, keep_of_not_accepted hnone]
    exact (hrecalls.before js (.answered o, s) ks (by simp)).symm
  · obtain ⟨before, _, rfl, hput, s₀, rfl, hnone⟩ := (hproper t).split hsplit
    refine ⟨hput, before, s₀, rfl, fun kept hkept => ?_⟩
    unfold fresh? at hnone
    rw [hkept, Option.filter_some] at hnone
    simpa using hnone
  · obtain ⟨before, _, rfl, s₀, s₁, request, rfl⟩ := (hproper t).split hsplit
    exact ⟨before ++ [(.locked, s₀)], request, s₁, List.append_cons _ _ _⟩
  · obtain ⟨before, notes, hjs, hmay⟩ := (hproper t).split hsplit
    have hfails : client.Fails notes f := hmay
    exact ⟨before, notes, hjs, hfails, hfails.of_noTokenKept⟩

/-! ## Runs without notes -/

/-- What a task may do with the token, without notes. -/
inductive PlainUse (client : MetadataClient σ) : ∀ α : Type, Program σ α → Prop
  | other {α : Type} {q : Program σ α} : q.Keeps client.slot.get → q.Shuns client.lock → PlainUse client α q
  | token : PlainUse client SessionToken client.token
  | invalidate : PlainUse client Unit client.invalidate

/-- What a task may do without notes it may do with notes, too. -/
theorem PlainUse.noting {α : Type} {q : Program σ α} (hq : client.PlainUse α q) : ∃ p, client.Use α p ∧ p.Noting q := by
  cases hq with
  | other hkeeps hshuns => exact ⟨q.beside, .other hkeeps.beside hshuns.beside, Program.noting_beside q⟩
  | token => exact ⟨client.call, .call, call_noting⟩
  | invalidate => exact ⟨client.giveUp, .giveUp, giveUp_noting⟩

/-- Every run of tasks that ask for the token and give it up is one with notes, but for the notes. -/
theorem exists_recorded {q : Pool σ}
    (hq : Pool.Reached (fun s => client.slot.get s = none) (Move.Within client.PlainUse client.slot.get) q) :
    ∃ p record, client.Recorded p record ∧ p.Noting q := hq.exists_recorded_noting fun _ _ hq => hq.noting

/-! ## A rehearsal -/

/-- What a rehearsal takes place in: the token that is kept, and all else. -/
abbrev Stage := Option SessionToken × Rehearsal

/-- A client for rehearsals. -/
def rehearsed : MetadataClient Stage where
  host := Rehearsal.host Slot.snd
  config := MetadataConfig.standard
  slot := Slot.fst
  lock := 0

/-- The settings of the rehearsing client were checked. -/
theorem rehearsed_sound : rehearsed.Sound where
  settings := ⟨none, none, .text "IPv4", MetadataConfig.maxLifetime, none, rfl⟩
  keeps := ScriptedService.send_keeps fun _ _ => rfl
  shuns request := ScriptedService.send_shuns _ request _
  clock _ _ := rfl

/-- A task that asks for the token once. -/
def caller : Program (Stage × List (TokenNote Stage)) Unit := rehearsed.call.andThen fun o => .done o.withoutValue

/-- The service refuses the first request after a turn, and then gives a token. -/
def opening : Stage :=
  (none, { now := Rehearsal.start
           service := { replies := [.response { status := 403 }, .response { status := 200, body := [116] }], turns := [1] } })

/-- Two callers; the second one waits for the lock while the first one asks for a token. -/
def twoCallers : List (Move (Stage × List (TokenNote Stage))) :=
  [.start caller, .start caller, .turn 0, .turn 1, .turn 0, .turn 1]

/-- Both callers do what a task may do. -/
theorem permits_twoCallers : ∀ m ∈ twoCallers, rehearsed.Permits m := by
  have hcaller : caller.Built rehearsed.Use := .andThen (.piece .call) fun _ => .piece (.other trivial trivial)
  simp [twoCallers, Permits, Move.Within, hcaller]

/-- The first caller fails as the service refuses. The second one gets the token that is kept then. -/
theorem hands_out_fresh_tokens_twoCallers :
    let p := Pool.steps { state := (opening, []) } twoCallers
    rehearsed.Sound ∧ ∃ record, rehearsed.Recorded p record ∧
      (∃ s request s₁ s₂ s₃, record.trail 0 = [(.locked, s), (.asked request, s₁), (.answered (.value { status := 403 }), s₂),
        (.returned (.failed (noToken 403)), s₃)] ∧ request.method = "PUT") ∧
      ∃ js t s, p.state.2 = js ++ [(.returned (.value t), s)] ∧ t.value = "t" ∧ rehearsed.slot.get s = some t ∧
        t.isExpired (rehearsed.host.now s) = false := by
  intro p
  have hstart : rehearsed.Recorded { state := (opening, []) } [] := .start ⟨rfl, rfl⟩
  have hrecorded : rehearsed.Recorded p (Pool.recordedAll { state := (opening, []) } twoCallers) :=
    Pool.Recorded.steps hstart permits_twoCallers
  have hfirst : ∃ s request s₁ s₂ s₃, Record.trail (Pool.recordedAll { state := (opening, []) } twoCallers) 0 =
      [(.locked, s), (.asked request, s₁), (.answered (.value { status := 403 }), s₂), (.returned (.failed (noToken 403)), s₃)] :=
    ⟨_, _, _, _, _, rfl⟩
  have hlast : ∃ js t s, p.state.2 = js ++ [(.returned (.value t), s)] ∧ t.value = "t" := ⟨p.state.2.take 7, _, _, rfl, rfl⟩
  obtain ⟨-, -, hreturned, -, hasked, -⟩ := hands_out_fresh_tokens rehearsed_sound hrecorded
  obtain ⟨s, request, s₁, s₂, s₃, hfirst⟩ := hfirst
  obtain ⟨js, t, s', hlast, hvalue⟩ := hlast
  obtain ⟨hkept, hexpired, -⟩ := hreturned js t s' [] hlast
  obtain ⟨hput, -⟩ := hasked 0 [(.locked, s)] request s₁ _ hfirst
  exact ⟨rehearsed_sound, _, hrecorded, ⟨s, request, s₁, s₂, s₃, hfirst, hput⟩, js, t, s', hlast, hvalue, hkept, hexpired⟩

end SignedCall.MetadataClient
