import SignedCall.Credentials.Instance
import SignedCall.Proofs.Credentials.Keeping

/-!
# What a machine answers

`Grounds` says what the metadata of a machine have to be read from for answers to be as promised: an endpoint that can be read as a
URL, replies that are text where they are no errors, and documents that are welcome. Requests may fail as the operating system
reports, and any reply may be an error. Main statements: `delivers_read` (reading metadata fails for no other reasons) and
`Instance.delivers_fetch`.
-/

namespace SignedCall

namespace Instance

/-- The paths below which the credentials are found. -/
def IsDocumentPath (path : String) : Prop := ∃ profile, path = basePath ++ "/" ++ profile

/-- No such path is empty, so requests go to it as it stands. -/
theorem IsDocumentPath.pathOrRoot_eq {path : String} (h : IsDocumentPath path) : pathOrRoot path = path := by
  obtain ⟨profile, rfl⟩ := h
  have hlength : (basePath ++ "/" ++ profile).length ≠ 0 := by
    have hbase : 0 < basePath.length := by decide
    rw [String.length_append, String.length_append]
    omega
  rw [pathOrRoot, if_neg fun hempty => hlength (by rw [hempty]; rfl)]

/-- A failure to read metadata that callers are told about: an answer that is an error, or trouble of the operating system. -/
def Expected (f : Failure) : Prop := f.kind = .service ∨ f.kind.isSystem = true

/-- A text that is no document, or a welcome one. -/
def WelcomeText {σ : Type} (r : Refreshing σ) (text : String) : Prop :=
  ∀ j, Json.read? text = some j → r.Welcomes "instance metadata" j

end Instance

namespace MetadataClient

variable {σ : Type} {w : Surroundings σ} {I : σ → Prop} {client : MetadataClient σ} {r : Refreshing σ}

/-- A reply that is an error or text, and below the path of the credentials a welcome text. -/
def Readable (r : Refreshing σ) (path : String) (response : Response) : Prop :=
  response.status = 200 → ∃ text, textOf response.body = .ok text ∧ (Instance.IsDocumentPath path → Instance.WelcomeText r text)

/-- What metadata are read from: the endpoint is a URL, replies can be read, requests fail as the operating system reports, sleeps
come to their end, and the policy gives a delay for everything. -/
structure Grounds (client : MetadataClient σ) (r : Refreshing σ) (w : Surroundings σ) (I : σ → Prop) : Prop where
  others : ∀ wait s, I s → I (w.during wait s)
  endpoint : ∀ method, ∃ b, RequestBuilder.ofUrl client.config.endpoint method = .ok b
  sends : ∀ request, (client.host.send request).Delivers w I (Readable r request.path) fun f => f.kind.isSystem = true
  sleeps : ∀ delay, (client.host.sleep delay).Delivers w I (fun _ => True) fun _ => False
  token : ∀ t s, I s → I (client.slot.set t s)
  delays : ∀ c s, I s → ∃ delay draws, client.config.policy.delay c (client.host.draws.get s) = .ok (delay, draws) ∧
    I (client.host.draws.set draws s)

/-- A fetch that comes to its end leaves a token. -/
theorem isSome_of_fetchToken {s s' : σ} (hrun : client.fetchToken.runIn w s = (.value (), s')) :
    (client.slot.get s').isSome = true := by
  obtain ⟨request, s₁, -, hrun⟩ := Program.runIn_bind_value hrun
  obtain ⟨response, s₂, -, hrun⟩ := Program.runIn_bind_value hrun
  split at hrun
  · cases hrun
  · obtain ⟨value, s₃, -, hrun⟩ := Program.runIn_bind_value hrun
    cases hrun
    rw [client.slot.get_set]
    rfl

/-- Renewing a token is fetching one where none is kept that has not expired. -/
theorem runIn_renewToken (s : σ) :
    client.renewToken.runIn w s =
      match (client.slot.get s).filter fun t => !t.isExpired (client.host.now s) with
      | none => client.fetchToken.runIn w s
      | some _ => (.value (), s) := by
  have hrun : client.renewToken.runIn w s =
      (if ((client.slot.get s).filter fun t => !t.isExpired (client.host.now s)).isNone then client.fetchToken
        else pure ()).runIn w s := rfl
  rw [hrun]
  cases (client.slot.get s).filter fun t => !t.isExpired (client.host.now s) <;> rfl

/-- So does a refresh. -/
theorem isSome_of_refreshToken {s s' : σ} (hrun : client.refreshToken.runIn w s = (.value (), s')) :
    (client.slot.get s').isSome = true := by
  rw [refreshToken, Program.runIn_withLock, runIn_renewToken] at hrun
  split at hrun
  next => exact isSome_of_fetchToken hrun
  next t hvalid =>
    cases hrun
    rw [(Option.filter_eq_some_iff.1 hvalid).1]
    rfl

/-- Asking for the token is refreshing it where none is kept that has not expired, and then finding it. -/
theorem runIn_token (s : σ) :
    client.token.runIn w s =
      match (client.slot.get s).filter fun t => !t.isExpired (client.host.now s) with
      | none => (client.refreshToken >>= fun _ => Program.read client.slot.get >>= fun t => Program.ofExcept (found t)).runIn w s
      | some _ => (.of (found (client.slot.get s)), s) := by
  have hrun : client.token.runIn w s =
      (if ((client.slot.get s).filter fun t => !t.isExpired (client.host.now s)).isNone then
        client.refreshToken >>= fun _ => Program.read client.slot.get >>= fun t => Program.ofExcept (found t)
      else Program.read client.slot.get >>= fun t => Program.ofExcept (found t)).runIn w s := rfl
  rw [hrun]
  cases (client.slot.get s).filter fun t => !t.isExpired (client.host.now s) with
  | none => rfl
  | some t => exact Program.runIn_ofExcept (found (client.slot.get s)) s

/-- A token that is kept is found. -/
theorem found_meets {t : Option SessionToken} (h : t.isSome = true) {fails : Failure → Prop} :
    (Outcome.of (found t)).Meets (fun _ => True) fails := by
  obtain ⟨token, rfl⟩ := Option.isSome_iff_exists.1 h
  exact trivial

namespace Grounds

variable (h : client.Grounds r w I)
include h

/-- A request goes to the path that is asked for. -/
theorem delivers_request (method path header value : String) :
    (client.request method path header value).Delivers w I (fun request : Request => request.path = pathOrRoot path)
      Instance.Expected := by
  obtain ⟨b, hb⟩ := h.endpoint method
  unfold request MetadataConfig.request
  rw [hb]
  refine Program.delivers_ofExcept ?_
  exact rfl

/-- A request for metadata gives a reply that can be read, or fails as callers are told. -/
theorem delivers_send (request : Request) :
    (client.host.send request).Delivers w I (Readable r request.path) Instance.Expected :=
  (h.sends request).mono (fun _ hr => hr) fun _ hf => .inr hf

/-- A request for a token gives one, or fails as callers are told. -/
theorem delivers_fetchToken : client.fetchToken.Delivers w I (fun _ => True) Instance.Expected := by
  refine (h.delivers_request "PUT" tokenPath lifetimeHeader _).bind fun request _ => ?_
  refine (h.delivers_send request).bind fun response hresponse => ?_
  split
  next => exact Program.delivers_failed (.inl rfl)
  next hstatus =>
    obtain ⟨text, htext, -⟩ := hresponse (Decidable.not_not.1 hstatus)
    have hvalue : (Program.ofExcept (textOf response.body) : Program σ String).Delivers w I (fun _ => True) Instance.Expected :=
      Program.delivers_ofExcept (htext ▸ trivial)
    refine hvalue.bind fun value _ => ?_
    refine (Program.delivers_read client.host.now).bind fun now _ => ?_
    exact Program.delivers_change fun s hs => h.token _ s hs

/-- Getting a token under the lock gives one, or fails as callers are told. -/
theorem delivers_refreshToken : client.refreshToken.Delivers w I (fun _ => True) Instance.Expected := by
  refine Program.delivers_withLock h.others ((Program.delivers_read _).bind fun valid _ => ?_)
  cases valid with
  | none => exact h.delivers_fetchToken
  | some t => exact Program.delivers_value trivial

/-- There is a token for every request, or asking for one fails as expected. -/
theorem delivers_token : client.token.Delivers w I (fun _ => True) Instance.Expected := by
  intro s hs
  rw [runIn_token]
  split
  next =>
    have hrefresh := h.delivers_refreshToken s hs
    rw [Program.runIn_bind]
    cases hrun : client.refreshToken.runIn w s with
    | mk o s' =>
      rw [hrun] at hrefresh
      cases o with
      | value u =>
        have hfind : (Program.read client.slot.get >>= fun t => Program.ofExcept (found t)).runIn w s' =
            (.of (found (client.slot.get s')), s') := Program.runIn_ofExcept (found (client.slot.get s')) s'
        exact hfind ▸ ⟨found_meets (isSome_of_refreshToken hrun), hrefresh.2⟩
      | failed f => exact hrefresh
      | cancelled => exact hrefresh
  next t hvalid =>
    refine ⟨found_meets ?_, hs⟩
    rw [(Option.filter_eq_some_iff.1 hvalid).1]
    rfl

/-- One attempt to read a path gives a text, or fails as expected. -/
theorem delivers_readOnce (path : String) :
    (client.readOnce path).Delivers w I (fun text => Instance.IsDocumentPath path → Instance.WelcomeText r text)
      Instance.Expected := by
  refine h.delivers_token.bind fun token _ => (h.delivers_request "GET" path tokenHeader token.value).bind fun request hpath => ?_
  refine (h.delivers_send request).bind fun response hresponse => ?_
  rw [hpath] at hresponse
  dsimp only
  split
  next =>
    have hforget : client.invalidate.Delivers w I (fun _ => True) Instance.Expected :=
      Program.delivers_change fun s hs => h.token none s hs
    exact hforget.bind fun _ _ => Program.delivers_failed (.inl rfl)
  next =>
    split
    next => exact Program.delivers_failed (.inl rfl)
    next hstatus =>
      obtain ⟨text, htext, hwelcome⟩ := hresponse (Decidable.not_not.1 hstatus)
      rw [htext]
      exact Program.delivers_value fun hdocument => hwelcome (hdocument.pathOrRoot_eq.symm ▸ hdocument)

/-- A failed attempt is followed by others or passed on. -/
theorem delivers_afterFailure {good : String → Prop} {again : Option (RetryToken → Program σ String)}
    (hagain : ∀ next, again = some next → ∀ token, (next token).Delivers w I good Instance.Expected) (token : RetryToken)
    {f : Failure} (hf : Instance.Expected f) :
    (client.afterFailure again token f).Delivers w I good Instance.Expected := by
  intro s hs
  obtain ⟨delay, draws, hdelay, hdraws⟩ := h.delays { retries := token.retries, failure := some f } s hs
  have hrenew : client.config.policy.renew token (some f) (client.host.draws.get s) =
        .ok ({ retries := token.retries + 1, delay }, draws) ∨
      ∃ attempts failure, client.config.policy.renew token (some f) (client.host.draws.get s) =
        .error (.exhausted attempts failure) := by
    unfold RetryPolicy.renew
    dsimp only
    split
    · rw [hdelay]; exact .inl rfl
    · exact .inr ⟨_, _, rfl⟩
  have hdraw : (Program.read client.host.draws.get).runIn w s = (.value (client.host.draws.get s), s) := rfl
  unfold afterFailure
  rw [Program.runIn_bind, hdraw]
  dsimp only [Program.onValue]
  rcases hrenew with hrenew | ⟨attempts, failure, hrenew⟩
  · rw [hrenew]
    cases again with
    | none => exact ⟨hf, hs⟩
    | some next => exact hagain next rfl _ _ hdraws
  · rw [hrenew]
    cases again <;> exact ⟨hf, hs⟩

/-- Reading after a delay delivers what it does at once, if what follows a failed attempt does. -/
theorem delivers_readAfterDelay (path : String) {again : Option (RetryToken → Program σ String)}
    (hagain : ∀ next, again = some next → ∀ token, (next token).Delivers w I
      (fun text => Instance.IsDocumentPath path → Instance.WelcomeText r text) Instance.Expected) (token : RetryToken) :
    (client.readAfterDelay path again token).Delivers w I
      (fun text => Instance.IsDocumentPath path → Instance.WelcomeText r text) Instance.Expected := by
  have hattempt : ∀ {next : Except Failure String → Program σ String},
      (∀ text, next (.ok text) = .done (.value text)) → (∀ f, next (.error f) = client.afterFailure again token f) →
        ((client.readOnce path).attempt >>= next).Delivers w I
          (fun text => Instance.IsDocumentPath path → Instance.WelcomeText r text) Instance.Expected := by
    intro next hok herror
    refine (h.delivers_readOnce path).attempt.bind fun answer hanswer => ?_
    cases answer with
    | ok text => rw [hok]; exact Program.delivers_value hanswer
    | error f => rw [herror]; exact h.delivers_afterFailure hagain token hanswer
  unfold readAfterDelay
  split
  next => exact hattempt (fun _ => rfl) fun _ => rfl
  next => exact ((h.sleeps _).mono (fun _ _ => trivial) fun _ hf => hf.elim).bind fun _ _ => hattempt (fun _ => rfl) fun _ => rfl

/-- Reading a path gives a text, or fails as expected. -/
theorem delivers_read (path : String) :
    (client.read path).Delivers w I (fun text => Instance.IsDocumentPath path → Instance.WelcomeText r text)
      Instance.Expected := by
  have hfrom : ∀ left token, (client.readFrom path left token).Delivers w I
      (fun text => Instance.IsDocumentPath path → Instance.WelcomeText r text) Instance.Expected := by
    intro left
    induction left with
    | zero => exact h.delivers_readAfterDelay path fun _ hnone => nomatch hnone
    | succ left ih => exact h.delivers_readAfterDelay path fun _ hnext => Option.some.inj hnext ▸ ih
  exact hfrom client.config.policy.retries {}

end Grounds

end MetadataClient

namespace Instance

variable {σ : Type} {w : Surroundings σ} {I : σ → Prop} {client : MetadataClient σ} {r : Refreshing σ}

/-- The document that is read is welcome, or reading it fails as expected. -/
theorem delivers_readDocument (h : client.Grounds r w I) :
    (readDocument client).Delivers w I (WelcomeText r) Expected := by
  have hread : ∀ profile, (client.read (basePath ++ "/" ++ profile)).Delivers w I (WelcomeText r) Expected :=
    fun profile => (h.delivers_read _).mono (fun _ hwelcome => hwelcome ⟨profile, rfl⟩) fun _ hf => hf
  unfold readDocument
  cases client.config.profileName with
  | some profile => exact hread profile
  | none =>
    have hname : (Text.strip <$> client.read basePath).Delivers w I (fun _ => True) Expected :=
      (h.delivers_read basePath).bind fun _ _ => Program.delivers_value trivial
    exact hname.bind fun profile _ => hread profile

/-- What was expected is a lack of credentials to callers. -/
theorem unloadable_isLack {f : Failure} (h : Expected f) : (unloadable f).IsLack := by
  have hcaught : (f.kind = .service || f.kind.isSystem) = true := by
    rcases h with h | h <;> simp [h]
  rw [unloadable, if_pos hcaught]
  rfl

/-- A fetch ends with an identity that is fit to be kept, or with a lack of credentials. -/
theorem delivers_fetch (h : client.Grounds r w I) : (fetch client).Delivers w I r.Fit Failure.IsLack := by
  refine (Program.delivers_read client.host.environment).bind fun environment _ => ?_
  split
  next => exact Program.delivers_failed rfl
  next =>
    refine (delivers_readDocument h).attempt.bind fun answer hanswer => ?_
    cases answer with
    | error f => exact Program.delivers_failed (unloadable_isLack hanswer)
    | ok text =>
      dsimp only
      cases hread : Json.read? text with
      | none => exact Program.delivers_failed rfl
      | some j => exact (hanswer j hread).delivers

end Instance

end SignedCall
