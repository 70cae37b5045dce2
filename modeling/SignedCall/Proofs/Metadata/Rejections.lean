import SignedCall.Proofs.Metadata.Reading

/-!
# Rejected tokens

Readings may be interleaved with each other, and with any work that leaves alone the token. From what they ask of the host one reads
which token is kept (`MetadataClient.told`): the answer to a request for a token gives one, and a reading whose token was rejected gives
up the token that is kept then. That is the token that was rejected, unless another one was given since the reading sent its request
(`MetadataClient.rejections_give_up_tokens`). If so, the other one is given up, though nobody has rejected it
(`MetadataClient.rejections_give_up_tokens_always_false`). Every run of readings without notes is such a run but for the notes
(`MetadataClient.exists_readersRecorded`).
-/

namespace SignedCall

/-- Whether a request is handed over. -/
def HostEvent.isSent : HostEvent → Bool
  | .sent _ => true
  | _ => false

namespace MetadataClient

variable {σ : Type} {client : MetadataClient σ}

/-! ## What the notes tell -/

/-- The token that a note gives, if it is the answer to a request for one. -/
def given? (client : MetadataClient σ) : HostNote σ → Option SessionToken
  | (.answered request o, s) =>
    if request.method = "PUT" then
      (accepted? o).map fun value => { value, lifetime := client.config.tokenLifetime, created := client.host.now s }
    else none
  | _ => none

/-- Whether a note is the answer by which the token of a request was rejected. -/
def isRejection : HostEvent → Bool
  | .answered request o => request.method == "GET" && rejects o
  | _ => false

/-- The token that is kept after a note: none after a rejection, and the one that is given. -/
def hold (client : MetadataClient σ) (kept : Option SessionToken) (e : HostNote σ) : Option SessionToken :=
  if isRejection e.1 then none else (client.given? e).or kept

/-- The token that is kept after what the notes tell. -/
def told (client : MetadataClient σ) (js : List (HostNote σ)) : Option SessionToken := js.foldl client.hold none

/-- The token that is kept after one more note follows from the one before it. -/
theorem told_concat (js : List (HostNote σ)) (e : HostNote σ) : client.told (js ++ [e]) = client.hold (client.told js) e := by
  simp [told]

section Hold

variable {request : Request} {o : Outcome Response}

/-- After a rejection no token is kept. -/
theorem hold_of_rejects (hget : request.method = "GET") (ho : rejects o = true) (kept : Option SessionToken) (s : σ) :
    client.hold kept (.answered request o, s) = none := by
  simp [hold, isRejection, hget, ho]

/-- The other answers to a request for a path leave the token as it is. -/
theorem hold_of_not_rejects (hget : request.method = "GET") (ho : rejects o = false) (kept : Option SessionToken) (s : σ) :
    client.hold kept (.answered request o, s) = kept := by
  have hput : request.method ≠ "PUT" := hget ▸ by decide
  simp [hold, isRejection, given?, hput, ho]

/-- The token that an answer gives is kept, from the time of the answer on. -/
theorem hold_of_accepted {value : String} (hput : request.method = "PUT") (ho : accepted? o = some value) (kept : Option SessionToken)
    (s : σ) : client.hold kept (.answered request o, s) = some ⟨value, client.config.tokenLifetime, client.host.now s⟩ := by
  simp [hold, isRejection, given?, hput, ho]

/-- The other answers to a request for a token leave the token as it is. -/
theorem hold_of_not_accepted (hput : request.method = "PUT") (ho : accepted? o = none) (kept : Option SessionToken) (s : σ) :
    client.hold kept (.answered request o, s) = kept := by
  simp [hold, isRejection, given?, hput, ho]

end Hold

/-- A token that is kept when a note is made was kept at an earlier one, or was given by that one or one in between. -/
theorem kept_or_given {now : Option SessionToken} {js before mid rest : List (HostNote σ)} {e e' : HostNote σ} {t : SessionToken}
    (h : Recalls client.slot.get client.told now js) (hsplit : js = before ++ e :: (mid ++ e' :: rest))
    (ht : client.slot.get e'.2 = some t) : client.slot.get e.2 = some t ∨ ∃ x ∈ e :: mid, client.given? x = some t := by
  have hstep : ∀ kept (e : HostNote σ), client.hold kept e = some t → client.given? e = some t ∨ kept = some t := by
    intro kept e he
    unfold hold at he
    split at he
    · cases he
    · exact (Option.or_eq_some_iff.1 he).imp_right And.right
  have hthen : client.slot.get e.2 = client.told before := h.before before e _ hsplit
  have hnow : client.slot.get e'.2 = (e :: mid).foldl client.hold (client.slot.get e.2) := by
    rw [h.before (before ++ e :: mid) e' rest (by simp [hsplit]), hthen, told, List.foldl_append]
    rfl
  by_cases hkept : client.slot.get e.2 = some t
  · exact Or.inl hkept
  · exact Or.inr (exists_of_foldl (P := (· = some t)) hstep hkept (hnow.symm.trans ht))

/-! ## What readings keep to -/

/-- A request for a path that carries the token that is kept then and has not expired. -/
def Carries (client : MetadataClient σ) (request : Request) (s : σ) : Prop :=
  request.method = "GET" ∧ ∃ t, client.fresh? s = some t ∧ request.header? tokenHeader = some t.value

/-- What a reading may ask of the host: one thing after the other, and only requests for tokens and such that carry one. -/
def MayAsk (client : MetadataClient σ) (cur : List (HostNote σ)) (e : HostNote σ) : Prop :=
  match e.1 with
  | .sent request => cur = [] ∧ (request.method = "PUT" ∨ client.Carries request e.2)
  | .answered request _ => ∃ s, cur = [(.sent request, s)]
  | .slept _ _ => cur = []

/-- What readings keep to. -/
def etiquette (client : MetadataClient σ) : Discipline σ (Option SessionToken) (HostNote σ) where
  part := client.slot.get
  rests := Recalls client.slot.get client.told
  ends e := !e.1.isSent
  may := client.MayAsk

/-- One more note leaves things at rest if it tells which token is kept from then on. -/
theorem rests_told {s s' : σ × List (HostNote σ)} (hs : client.etiquette.Rests s) {event : HostEvent}
    (hjournal : s'.2 = s.2 ++ [(event, s.1)]) (hkept : client.slot.get s'.1 = client.hold (client.slot.get s.1) (event, s.1)) :
    client.etiquette.Rests s' := Recalls.step told_concat hs hjournal hkept

/-- A note that does not change the token. -/
theorem rests_untold {s : σ × List (HostNote σ)} (hs : client.etiquette.Rests s) (event : HostEvent)
    (hevent : client.hold (client.slot.get s.1) (event, s.1) = client.slot.get s.1) :
    client.etiquette.Rests (inscribe (event, ·) s) := rests_told hs rfl hevent.symm

/-- What holds when a request was answered. -/
def Told (client : MetadataClient σ) (request : Request) (o : Outcome Response) (cur : List (HostNote σ)) (s : σ × List (HostNote σ)) :
    Prop := cur = [] ∧ ∃ s', client.etiquette.Rests s' ∧ s = inscribe (.answered request o, ·) s'

/-- What holds when a token was seen to. -/
def Provided (client : MetadataClient σ) {α : Type} (o : Outcome α) (cur : List (HostNote σ)) (s : σ × List (HostNote σ)) : Prop :=
  client.etiquette.Ended o cur s ∧ ∀ a, o = .value a → ∃ t, client.fresh? s.1 = some t

variable {s : σ × List (HostNote σ)}

/-- A request for a token, or one that carries the token that is kept, may be sent. -/
theorem follows_sent (hleaves : client.host.Leaves client.slot.get) {request : Request} (hs : client.etiquette.Rests s)
    (hmay : request.method = "PUT" ∨ client.Carries request s.1) :
    (client.logged.host.send request).Follows client.etiquette (client.Told request) [] s := by
  have hkeeps : ((client.host.send request).beside : Program (σ × List (HostNote σ)) Response).Keeps client.etiquette.view :=
    (hleaves.send request).beside
  have hsent : client.MayAsk [] (.sent request, s.1) := ⟨rfl, hmay⟩
  refine Program.Follows.announced hsent ((Program.Follows.of_keeps hkeeps _ (rests_untold hs _ rfl)).reported ?_)
  rintro o _ s' ⟨rfl, hs'⟩
  exact ⟨⟨s.1, rfl⟩, rfl, s', hs', rfl⟩

/-- A sleep leaves things at rest. -/
theorem follows_slept (hleaves : client.host.Leaves client.slot.get) (delay : Binary64) (hs : client.etiquette.Rests s) :
    (client.logged.host.sleep delay).Follows client.etiquette client.etiquette.Ended [] s := by
  have hkeeps : ((client.host.sleep delay).beside : Program (σ × List (HostNote σ)) Unit).Keeps client.etiquette.view :=
    (hleaves.sleep delay).beside
  refine (Program.Follows.of_keeps hkeeps [] hs).reported ?_
  rintro o _ s' ⟨rfl, hs'⟩
  exact ⟨rfl, rfl, rests_untold hs' _ rfl⟩

/-- Asking for a token keeps the discipline, and leaves one that has not expired if it gives one. -/
theorem follows_askToken (hc : client.Sound) (hleaves : client.host.Leaves client.slot.get) (hs : client.etiquette.Rests s) :
    client.logged.fetchToken.Follows client.etiquette client.Provided [] s := by
  refine follows_fetchToken_of (fun _ _ => ⟨⟨rfl, hs⟩, nofun⟩) (fun request hput => follows_sent hleaves hs (Or.inl hput)) ?_ ?_
  · rintro request o _ _ value hput ⟨rfl, s', hs', rfl⟩ hvalue
    refine ⟨⟨rfl, rests_told hs' rfl ?_⟩, fun _ _ => ⟨_, fresh?_set hc value s'.1⟩⟩
    rw [hold_of_accepted hput (accepted?_of_tokenIn hvalue)]
    exact client.slot.get_set _ _
  · rintro request o o' _ _ hput ⟨rfl, s', hs', rfl⟩ hpassed
    have hrests := rests_untold hs' (.answered request o) (hold_of_not_accepted hput (not_accepted_of_tokenIn hpassed) _ _)
    exact ⟨⟨rfl, hrests⟩, fun u hu => absurd hu (hpassed.ne_value u)⟩

/-- So does getting a token under the lock. -/
theorem follows_refreshToken (hc : client.Sound) (hleaves : client.host.Leaves client.slot.get) (hs : client.etiquette.Rests s) :
    client.logged.refreshToken.Follows client.etiquette client.Provided [] s := by
  refine Program.Follows.withLock hs (fun s hs => ?_) fun s hs => ⟨⟨rfl, hs⟩, nofun⟩
  exact follows_renewToken_of client.host.logged_noting (fun t hfresh => ⟨⟨rfl, hs⟩, fun _ _ => ⟨t, hfresh⟩⟩)
    fun _ => follows_askToken hc hleaves hs

/-- The token that a call for it gives is the one that is kept, and has not expired. -/
theorem follows_seeToken (hc : client.Sound) (hleaves : client.host.Leaves client.slot.get) (hs : client.etiquette.Rests s) :
    client.logged.token.Follows client.etiquette
      (fun o cur s => client.etiquette.Ended o cur s ∧ ∀ t, o = .value t → client.fresh? s.1 = some t) [] s := by
  refine follows_tokenAfter_of client.host.logged_noting
    (fun t hfresh => ⟨⟨rfl, hs⟩, fun _ ht => Outcome.value.inj ht ▸ hfresh⟩) fun _ => ?_
  refine (follows_refreshToken hc hleaves hs).mono ?_
  rintro o cur s ⟨hended, hvalue⟩
  refine ⟨fun u hu => ?_, fun o' ho => ⟨hended, fun t ht => absurd ht (ho.ne_value t)⟩⟩
  obtain ⟨t, hfresh⟩ := hvalue u hu
  exact ⟨t, hfresh, hended, fun _ ht => Outcome.value.inj ht ▸ hfresh⟩

/-- An attempt keeps the discipline. -/
theorem follows_readOnce (hc : client.Sound) (hleaves : client.host.Leaves client.slot.get) (path : String)
    (hs : client.etiquette.Rests s) :
    (client.logged.readOnce path).Follows client.etiquette client.etiquette.Ended [] s := by
  refine (follows_seeToken hc hleaves hs).bind ?_ (fun _ _ _ h => h.1) fun _ _ h => h.1
  rintro t _ s ⟨⟨rfl, hs⟩, hfresh⟩
  unfold request
  rw [show client.logged.config = client.config from rfl]
  cases hrequest : client.config.request "GET" path with
  | error fault => exact ⟨rfl, hs⟩
  | ok b =>
    have hget : (b.setHeader tokenHeader t.value).build.method = "GET" := show b.method = "GET" from method_of_request hrequest
    have hcarries : client.Carries (b.setHeader tokenHeader t.value).build s.1 :=
      ⟨hget, t, hfresh t rfl, b.header?_setHeader tokenHeader t.value⟩
    have hother : ∀ o s', rejects o = false → client.etiquette.Rests s' →
        client.etiquette.Rests (inscribe (.answered (b.setHeader tokenHeader t.value).build o, ·) s') := fun o s' ho hs' =>
      rests_untold hs' _ (hold_of_not_rejects hget ho _ _)
    refine (follows_sent hleaves hs (Or.inr hcarries)).bind ?_ ?_ ?_
    · rintro r _ _ ⟨rfl, s', hs', rfl⟩
      dsimp only
      split
      · next hstatus =>
        refine Or.inl ⟨rfl, rfl, rests_told hs' rfl ?_⟩
        rw [hold_of_rejects hget (by simp [rejects, hstatus])]
        exact client.slot.get_set _ _
      · next hstatus =>
        have hrests := hother (.value r) s' (by simp [rejects, hstatus]) hs'
        split
        · exact ⟨rfl, hrests⟩
        · cases textOf r.body <;> exact ⟨rfl, hrests⟩
    · rintro f _ _ ⟨rfl, s', hs', rfl⟩
      exact ⟨rfl, hother (.failed f) s' rfl hs'⟩
    · rintro _ _ ⟨rfl, s', hs', rfl⟩
      exact ⟨rfl, hother .cancelled s' rfl hs'⟩

/-- What may come after a failed attempt keeps to the same. -/
def AgainFollows (client : MetadataClient σ) (again : Option (RetryToken → Program (σ × List (HostNote σ)) String)) : Prop :=
  ∀ next, again = some next → ∀ token s, client.etiquette.Rests s → (next token).Follows client.etiquette client.etiquette.Ended [] s

variable {again : Option (RetryToken → Program (σ × List (HostNote σ)) String)}

/-- What follows a failed attempt keeps the discipline. -/
theorem follows_afterFailure (hleaves : client.host.Leaves client.slot.get) (hagain : client.AgainFollows again) (token : RetryToken)
    (f : Failure) (hs : client.etiquette.Rests s) :
    (client.logged.afterFailure again token f).Follows client.etiquette client.etiquette.Ended [] s := by
  refine Program.follows_read ?_
  cases client.logged.config.policy.renew token (some f) (client.logged.host.draws.get s) with
  | error e => cases e <;> exact ⟨rfl, hs⟩
  | ok renewed =>
    obtain ⟨token', draws'⟩ := renewed
    cases again with
    | none => exact ⟨rfl, hs⟩
    | some next =>
      have hdrawn : client.etiquette.view (client.logged.host.draws.set draws' s) = client.etiquette.view s :=
        Prod.ext (hleaves.draws draws' s.1) rfl
      exact Program.follows_change rfl (hagain next rfl token' _ (Discipline.rests_of_view hdrawn hs))

/-- An attempt after its delay, and what follows it, keep the discipline. -/
theorem follows_readAfterDelay (hc : client.Sound) (hleaves : client.host.Leaves client.slot.get) (path : String)
    (hagain : client.AgainFollows again) (token : RetryToken) (hs : client.etiquette.Rests s) :
    (client.logged.readAfterDelay path again token).Follows client.etiquette client.etiquette.Ended [] s := by
  have hafter : ∀ f cur s, client.etiquette.Ended (.failed f : Outcome String) cur s →
      (client.logged.afterFailure again token f).Follows client.etiquette client.etiquette.Ended cur s := by
    rintro f _ s ⟨rfl, hs⟩
    exact follows_afterFailure hleaves hagain token f hs
  unfold readAfterDelay
  split
  · exact (follows_readOnce hc hleaves path hs).attempt (fun _ _ _ h => h) hafter fun _ _ h => h
  · refine (follows_slept hleaves token.delay hs).bind ?_ (fun _ _ _ h => h) fun _ _ h => h
    rintro _ _ s ⟨rfl, hs⟩
    exact (follows_readOnce hc hleaves path hs).attempt (fun _ _ _ h => h) hafter fun _ _ h => h

/-- A reading keeps the discipline. -/
theorem follows_readFrom (hc : client.Sound) (hleaves : client.host.Leaves client.slot.get) (path : String) (left : Nat)
    (token : RetryToken) (s : σ × List (HostNote σ)) (hs : client.etiquette.Rests s) :
    (client.logged.readFrom path left token).Follows client.etiquette client.etiquette.Ended [] s := by
  induction left generalizing token s with
  | zero =>
    have hlast : client.AgainFollows none := by
      intro next hnext
      cases hnext
    exact follows_readAfterDelay hc hleaves path hlast token hs
  | succ left ih =>
    have hmore : client.AgainFollows (some (client.logged.readFrom path left)) := fun _ hnext => Option.some.inj hnext ▸ ih
    exact follows_readAfterDelay hc hleaves path hmore token hs

/-! ## Runs -/

/-- What a task may do: read a path, and anything that leaves alone the token and the notes. -/
inductive ReaderUse (client : MetadataClient σ) : ∀ α : Type, Program (σ × List (HostNote σ)) α → Prop
  | other {α : Type} {p : Program (σ × List (HostNote σ)) α} : p.Keeps client.etiquette.view → ReaderUse client α p
  | read (path : String) : ReaderUse client String (client.logged.read path)

/-- The points of runs that begin without a token, and with nothing noted, with who made which note on the way. Tasks have their turns,
are woken, cancelled or made, and the rest of the state changes. -/
def ReadersRecorded (client : MetadataClient σ) : Pool (σ × List (HostNote σ)) → Record (HostNote σ) → Prop :=
  Pool.Recorded (fun s => client.slot.get s.1 = none ∧ s.2 = []) (Move.Within client.ReaderUse client.etiquette.view)

variable {p : Pool (σ × List (HostNote σ))} {record : Record (HostNote σ)}

/-- Whatever a task may do keeps the discipline. -/
theorem follows_readerUse (hc : client.Sound) (hleaves : client.host.Leaves client.slot.get) {α : Type}
    {p : Program (σ × List (HostNote σ)) α} (hp : client.ReaderUse α p) (s : σ × List (HostNote σ)) (hs : client.etiquette.Rests s) :
    p.Follows client.etiquette client.etiquette.Ended [] s := by
  cases hp with
  | other hkeeps => exact Program.Follows.of_keeps hkeeps [] hs
  | read path => exact follows_readFrom hc hleaves path _ _ s hs

/-- In every run, the token that is kept is what the notes tell, and the notes of each task are proper. -/
theorem ReadersRecorded.recalls (hc : client.Sound) (hleaves : client.host.Leaves client.slot.get) (h : client.ReadersRecorded p record) :
    p.state.2 = record.journal ∧ Recalls client.slot.get client.told (client.slot.get p.state.1) p.state.2 ∧
      ∀ t, Proper (fun e => !e.1.isSent) client.MayAsk (record.trail t) := by
  have hstart : ∀ s, client.slot.get s.1 = none ∧ s.2 = [] → s.2 = [] ∧ client.etiquette.Rests s :=
    fun s hs => ⟨hs.2, Recalls.start hs.1 hs.2⟩
  exact Pool.Recorded.disciplined hstart (fun _ => Pool.admits_of_within fun _ _ hp => follows_readerUse hc hleaves hp) h

/-- What is answered was handed over before by the same task, which has done nothing else meanwhile. -/
theorem ReadersRecorded.sent (hc : client.Sound) (hleaves : client.host.Leaves client.slot.get) (h : client.ReadersRecorded p record)
    {before rest : Record (HostNote σ)} {u : TaskId} {request : Request} {o : Outcome Response} {s : σ}
    (hsplit : record = before ++ (u, (.answered request o, s)) :: rest) :
    ∃ (before' mid : Record (HostNote σ)) (s₀ : σ), before = before' ++ (u, (.sent request, s₀)) :: mid ∧ (∀ x ∈ mid, x.1 ≠ u) ∧
      (request.method = "PUT" ∨ client.Carries request s₀) := by
  obtain ⟨-, -, hproper⟩ := h.recalls hc hleaves
  obtain ⟨own, cur, hown, s₀, rfl⟩ := (hproper u).split (Record.trail_split hsplit)
  obtain ⟨before', mid, hbefore, -, hothers⟩ := Record.exists_of_trail_concat hown
  have hsent : record = before' ++ (u, (.sent request, s₀)) :: (mid ++ (u, (.answered request o, s)) :: rest) := by
    rw [hsplit, hbefore, List.append_assoc]
    rfl
  obtain ⟨-, -, -, -, hmay⟩ := (hproper u).split (Record.trail_split hsent)
  exact ⟨before', mid, s₀, hbefore, hothers, hmay⟩

/-- Some notes before the answer to a request, the task has sent the request with the token that was kept then and had not expired. If
another one is kept when the answer comes, that one was given in the meantime. -/
def CarriedSince (client : MetadataClient σ) (before : Record (HostNote σ)) (u : TaskId) (request : Request) (s : σ) : Prop :=
  ∃ (before' mid : Record (HostNote σ)) (s₀ : σ) (t : SessionToken), before = before' ++ (u, (.sent request, s₀)) :: mid ∧
    (∀ x ∈ mid, x.1 ≠ u) ∧ client.slot.get s₀ = some t ∧ t.isExpired (client.host.now s₀) = false ∧
    request.header? tokenHeader = some t.value ∧ ∀ t', client.slot.get s = some t' → t' = t ∨ ∃ x ∈ mid, client.given? x.2 = some t'

/-- Once the token of a request is rejected, no token is kept any more. -/
theorem ReadersRecorded.rejected (hc : client.Sound) (hleaves : client.host.Leaves client.slot.get) (h : client.ReadersRecorded p record)
    {before rest : Record (HostNote σ)} {u : TaskId} {request : Request} {r : Response} {s : σ}
    (hsplit : record = before ++ (u, (.answered request (.value r), s)) :: rest) (hget : request.method = "GET")
    (hstatus : r.status = 401) :
    partBefore client.slot.get rest.journal p.state.1 = none ∧ client.CarriedSince before u request s := by
  obtain ⟨hjournal, hrecalls, -⟩ := h.recalls hc hleaves
  have hjournals : p.state.2 = before.journal ++ (.answered request (.value r), s) :: rest.journal := by
    rw [hjournal, hsplit, Record.journal_append]
    rfl
  obtain ⟨before', mid, s₀, rfl, hothers, hsent⟩ := h.sent hc hleaves hsplit
  obtain ⟨-, t, hfresh, hheader⟩ := hsent.resolve_left (hget ▸ by decide)
  obtain ⟨hkept, hexpired⟩ := Option.filter_eq_some_iff.1 hfresh
  refine ⟨?_, before', mid, s₀, t, rfl, hothers, hkept, by simpa using hexpired, hheader, fun t' ht' => ?_⟩
  · rw [hjournals, List.append_cons] at hrecalls
    rw [hrecalls.partBefore, told_concat]
    exact hold_of_rejects hget (by simp [rejects, hstatus]) _ _
  · rw [Record.journal_append, List.append_assoc] at hjournals
    rcases kept_or_given hrecalls hjournals ht' with hsame | ⟨e, he, hgiven⟩
    · exact Or.inl (Option.some.inj (hsame.symm.trans hkept))
    · rcases List.mem_cons.1 he with rfl | he
      · cases hgiven
      · obtain ⟨x, hx, rfl⟩ := List.mem_map.1 he
        exact Or.inr ⟨x, hx, hgiven⟩

/-- Take any run in which readings, cancellations, the clock and other work are interleaved, while the answers are anything. When a
request for a path is answered with status 401, no token is kept any more. The request carried the token that was kept when it was sent,
and that had not expired then. If another one is kept when the answer comes, that one was given in the meantime. All other answers to
requests for paths leave the token as it is. -/
theorem rejections_give_up_tokens (hc : client.Sound) (hleaves : client.host.Leaves client.slot.get) (h : client.ReadersRecorded p record) :
    p.state.2 = record.journal ∧
      (∀ (before rest : Record (HostNote σ)) u request r s, record = before ++ (u, (.answered request (.value r), s)) :: rest →
        request.method = "GET" → r.status = 401 →
          partBefore client.slot.get rest.journal p.state.1 = none ∧ client.CarriedSince before u request s) ∧
      ∀ (js ks : List (HostNote σ)) request o s, p.state.2 = js ++ (.answered request o, s) :: ks → request.method = "GET" →
        rejects o = false → partBefore client.slot.get ks p.state.1 = client.slot.get s := by
  obtain ⟨hjournal, hrecalls, -⟩ := h.recalls hc hleaves
  refine ⟨hjournal, fun before rest u request r s => h.rejected hc hleaves, fun js ks request o s hsplit hget ho => ?_⟩
  rw [hsplit, List.append_cons] at hrecalls
  rw [hrecalls.partBefore, told_concat, hold_of_not_rejects hget ho]
  exact (hrecalls.before js (.answered request o, s) ks (by simp)).symm

/-! ## Runs without notes -/

/-- What a task may do, without notes. -/
inductive PlainReaderUse (client : MetadataClient σ) : ∀ α : Type, Program σ α → Prop
  | other {α : Type} {q : Program σ α} : q.Keeps client.slot.get → PlainReaderUse client α q
  | read (path : String) : PlainReaderUse client String (client.read path)

/-- What a task may do without notes it may do with notes, too. -/
theorem PlainReaderUse.noting {α : Type} {q : Program σ α} (hq : client.PlainReaderUse α q) :
    ∃ p, client.ReaderUse α p ∧ p.Noting q := by
  cases hq with
  | other hkeeps => exact ⟨q.beside, .other hkeeps.beside, Program.noting_beside q⟩
  | read path => exact ⟨client.logged.read path, .read path, read_noting client.host.logged_noting path⟩

/-- Every run of readings is one with notes, but for the notes. -/
theorem exists_readersRecorded {q : Pool σ}
    (hq : Pool.Reached (fun s => client.slot.get s = none) (Move.Within client.PlainReaderUse client.slot.get) q) :
    ∃ p record, client.ReadersRecorded p record ∧ p.Noting q := hq.exists_recorded_noting fun _ _ hq => hq.noting

/-! ## A rehearsal -/

/-- A task that reads a path once. -/
def reader (path : String) : Program (Stage × List (HostNote Stage)) Unit :=
  ((rehearsing atOnce).logged.read path).andThen fun o => .done o.withoutValue

/-- The service gives a token and rejects it twice, and gives another one and serves the path in between. The first two requests for the
path arrive a turn late. -/
def lateAnswer : Stage := answering [(200, [116]), (401, []), (200, [117]), (200, [100]), (401, [])] [0, 1, 1]

/-- Two readings send their requests with the first token. One of them is done with another token before the other one is answered. -/
def twoReaders : List (Move (Stage × List (HostNote Stage))) :=
  [.start (reader "/"), .start (reader "/"), .turn 0, .turn 1, .turn 0, .turn 1]

/-- The notes of the two readings. -/
def lateRecord : Record (HostNote Stage) := Pool.recordedAll { state := (lateAnswer, []) } twoReaders

/-- The two readings are a run with these notes. -/
theorem recorded_twoReaders : (rehearsing atOnce).ReadersRecorded (Pool.steps { state := (lateAnswer, []) } twoReaders) lateRecord := by
  have hreader : (reader "/").Built (rehearsing atOnce).ReaderUse := .andThen (.piece (.read "/")) fun _ => .piece (.other trivial)
  have hstart : (rehearsing atOnce).ReadersRecorded { state := (lateAnswer, []) } [] := .start ⟨rfl, rfl⟩
  exact Pool.Recorded.steps hstart (by simp [twoReaders, Move.Within, hreader])

/-- The second reading is told that the first token was rejected when the second one is kept. -/
theorem exists_lateRejection :
    ∃ before request r s t rest, lateRecord = before ++ (1, (.answered request (.value r), s)) :: rest ∧ request.method = "GET" ∧
      r.status = 401 ∧ request.header? tokenHeader = some "t" ∧ (rehearsing atOnce).slot.get s = some t ∧ t.value = "u" :=
  ⟨lateRecord.take 9, _, _, _, _, lateRecord.drop 10, rfl, rfl, rfl, rfl, rfl, rfl⟩

/-- The second token is given up although the first one was rejected. -/
theorem rejections_give_up_tokens_lateAnswer :
    let p := Pool.steps { state := (lateAnswer, []) } twoReaders
    (rehearsing atOnce).Sound ∧ (rehearsing atOnce).ReadersRecorded p lateRecord ∧
      ∃ before request r s t rest, lateRecord = before ++ (1, (.answered request (.value r), s)) :: rest ∧
        (rehearsing atOnce).CarriedSince before 1 request s ∧ request.header? tokenHeader = some "t" ∧
        (rehearsing atOnce).slot.get s = some t ∧ t.value = "u" ∧
        partBefore (rehearsing atOnce).slot.get (Record.journal rest) p.state.1 = none := by
  intro p
  obtain ⟨before, request, r, s, t, rest, hsplit, hget, hstatus, hheader, hkept, hvalue⟩ := exists_lateRejection
  obtain ⟨-, hrejected, -⟩ := rejections_give_up_tokens (rehearsing_sound atOnce) (rehearsing_leaves atOnce) recorded_twoReaders
  obtain ⟨hgone, hcarried⟩ := hrejected before rest 1 request r s hsplit hget hstatus
  exact ⟨rehearsing_sound atOnce, recorded_twoReaders, before, request, r, s, t, rest, hsplit, hcarried, hheader, hkept, hvalue, hgone⟩

/-- It does not hold in all runs that a token is kept on when another one is rejected. -/
theorem rejections_give_up_tokens_always_false :
    ¬∀ p record, (rehearsing atOnce).ReadersRecorded p record →
      ∀ (js ks : List (HostNote Stage)) request r s t, p.state.2 = js ++ (.answered request (.value r), s) :: ks →
        request.method = "GET" → r.status = 401 → (rehearsing atOnce).slot.get s = some t →
        request.header? tokenHeader ≠ some t.value → partBefore (rehearsing atOnce).slot.get ks p.state.1 = some t := by
  intro h
  obtain ⟨before, request, r, s, t, rest, hsplit, hget, hstatus, hheader, hkept, hvalue⟩ := exists_lateRejection
  obtain ⟨hjournal, -⟩ := recorded_twoReaders.recalls (rehearsing_sound atOnce) (rehearsing_leaves atOnce)
  obtain ⟨hgone, -⟩ := recorded_twoReaders.rejected (rehearsing_sound atOnce) (rehearsing_leaves atOnce) hsplit hget hstatus
  have hother : request.header? tokenHeader ≠ some t.value := by
    rw [hheader, hvalue]
    decide
  have hjournals := hjournal
  rw [hsplit, Record.journal_append] at hjournals
  have hstill := h _ _ recorded_twoReaders _ (Record.journal rest) request r s t hjournals hget hstatus hkept hother
  rw [hgone] at hstill
  cases hstill

end MetadataClient

end SignedCall
