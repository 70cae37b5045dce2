import SignedCall.Credentials.MetadataClient
import SignedCall.Proofs.Host
import SignedCall.Proofs.Task.Shadow

/-!
# Notes of session tokens

A client of the metadata service notes when a call has the lock, each request for a token as it is handed over, how it is answered, how
the call ended, and when the token is given up, each with the state as it is then. From the notes one reads which token is kept
(`MetadataClient.latest`). The calls are the same with the notes and without them (`MetadataClient.call_noting`), and so are readings on a
host that makes any notes (`MetadataClient.read_noting`).
-/

namespace SignedCall

/-- What happens to the session token. -/
inductive TokenEvent where
  | locked
  | asked (request : Request)
  | answered (o : Outcome Response)
  | returned (o : Outcome SessionToken)
  | invalidated

/-- What is noted of the session token, and in which state. -/
abbrev TokenNote (σ : Type) := TokenEvent × σ

namespace TokenEvent

/-- Whether a token is asked for. -/
def isAsked : TokenEvent → Bool
  | .asked _ => true
  | _ => false

/-- Whether a request for a token has come to its end. -/
def isAnswered : TokenEvent → Bool
  | .answered _ => true
  | _ => false

/-- Whether a piece of work ends: a call, or giving up the token. -/
def isEnd : TokenEvent → Bool
  | .returned _ => true
  | .invalidated => true
  | _ => false

end TokenEvent

namespace MetadataClient

variable {σ : Type}

/-- The token in an answer, if it gives one. -/
def accepted? : Outcome Response → Option String
  | .value r => if r.status = 200 then (textOf r.body).toOption else none
  | _ => none

/-- The token that is kept after a note: the one that an answer gives, and none once it is given up. -/
def keep (client : MetadataClient σ) (kept : Option SessionToken) : TokenNote σ → Option SessionToken
  | (.answered o, s) =>
    match accepted? o with
    | some value => some { value, lifetime := client.config.tokenLifetime, created := client.host.now s }
    | none => kept
  | (.invalidated, _) => none
  | _ => kept

/-- The token that is kept after what a journal tells. -/
def latest (client : MetadataClient σ) (journal : List (TokenNote σ)) : Option SessionToken := journal.foldl client.keep none

variable {client : MetadataClient σ}

theorem latest_concat (js : List (TokenNote σ)) (e : TokenNote σ) : client.latest (js ++ [e]) = client.keep (client.latest js) e := by
  simp [latest]

/-- An answer that gives a token is served, and its body is the text of the token. -/
theorem accepted?_eq_some {o : Outcome Response} {value : String} (h : accepted? o = some value) :
    ∃ r, o = .value r ∧ r.status = 200 ∧ textOf r.body = .ok value := by
  unfold accepted? at h
  split at h
  · next r =>
    split at h
    · next hstatus =>
      cases htext : textOf r.body with
      | ok text =>
        rw [htext] at h
        exact ⟨r, rfl, hstatus, htext.trans (congrArg _ (Option.some.inj h))⟩
      | error f =>
        rw [htext] at h
        cases h
    · cases h
  · cases h

/-- What the answer to a request for a token comes to. -/
def tokenIn : Outcome Response → Outcome String
  | .value r => if r.status ≠ 200 then .failed (noToken r.status) else .of (textOf r.body)
  | .failed f => .failed f
  | .cancelled => .cancelled

/-- An answer that is served comes to the text of its body. -/
theorem tokenIn_of_served {r : Response} (h : r.status = 200) : tokenIn (.value r) = .of (textOf r.body) := if_neg (not_not.2 h)

/-- An answer gives the token that it comes to. -/
theorem accepted?_of_tokenIn {o : Outcome Response} {value : String} (h : tokenIn o = .value value) : accepted? o = some value := by
  cases o with
  | value r =>
    by_cases hstatus : r.status = 200
    · rw [tokenIn_of_served hstatus] at h
      rw [accepted?, if_pos hstatus, Outcome.of_eq_value h]
      rfl
    · rw [tokenIn, if_pos hstatus] at h
      cases h
  | failed f => cases h
  | cancelled => cases h

/-- An answer gives no token if it comes to something else. -/
theorem not_accepted_of_tokenIn {α : Type} {o : Outcome Response} {o' : Outcome α} (h : (tokenIn o).Passes o') : accepted? o = none := by
  cases o with
  | value r =>
    by_cases hstatus : r.status = 200
    · rw [tokenIn_of_served hstatus] at h
      cases htext : textOf r.body with
      | ok text =>
        rw [htext] at h
        cases h
      | error f =>
        rw [accepted?, if_pos hstatus, htext]
        rfl
    · exact if_neg hstatus
  | failed f => rfl
  | cancelled => rfl

/-- The value of the token that is kept is the body of an answer with status 200. -/
theorem answered_of_latest {js : List (TokenNote σ)} {t : SessionToken} (h : client.latest js = some t) :
    ∃ r s, (TokenEvent.answered (.value r), s) ∈ js ∧ r.status = 200 ∧ textOf r.body = .ok t.value := by
  have hstep : ∀ kept (e : TokenNote σ), client.keep kept e = some t →
      (∃ r, e.1 = .answered (.value r) ∧ r.status = 200 ∧ textOf r.body = .ok t.value) ∨ kept = some t := by
    intro kept e he
    unfold keep at he
    split at he
    · split at he
      · next value hvalue =>
        obtain ⟨r, rfl, hstatus, htext⟩ := accepted?_eq_some hvalue
        obtain rfl := Option.some.inj he
        exact .inl ⟨r, rfl, hstatus, htext⟩
      · exact .inr he
    · cases he
    · exact .inr he
  obtain ⟨⟨event, s⟩, hmem, r, rfl, hr⟩ := exists_of_foldl (f := client.keep) (P := (· = some t)) (x := none) hstep nofun h
  exact ⟨r, s, hmem, hr⟩

/-! ## A client that makes notes -/

/-- A host that notes which requests are handed over, and how they are answered. -/
def notedHost (host : Host σ) : Host (σ × List (TokenNote σ)) where
  now s := host.now s.1
  environment s := host.environment s.1
  files s := host.files s.1
  draws := Slot.fst.comp host.draws
  send request := ((host.send request).beside.reported fun o s => (.answered o, s)).announced (.asked request, ·)
  sendWithin limit request := (host.sendWithin limit request).beside
  sleep delay := (host.sleep delay).beside

/-- The same, with a journal of the requests for tokens beside the state. -/
def noted (client : MetadataClient σ) : MetadataClient (σ × List (TokenNote σ)) where
  host := notedHost client.host
  config := client.config
  slot := Slot.fst.comp client.slot
  lock := client.lock

/-- A refresh that notes when it has the lock. -/
def notedRefresh (client : MetadataClient σ) : Program (σ × List (TokenNote σ)) Unit :=
  Program.withLock client.lock (client.noted.renewToken.announced (.locked, ·))

/-- A call that notes how it ended. -/
def call (client : MetadataClient σ) : Program (σ × List (TokenNote σ)) SessionToken :=
  (client.noted.tokenAfter client.notedRefresh).reported fun o s => (.returned o, s)

/-- Gives up the token, and notes it. -/
def giveUp (client : MetadataClient σ) : Program (σ × List (TokenNote σ)) Unit := client.noted.invalidate.announced (.invalidated, ·)

/-! ## What the notes leave as it is -/

/-- The same, on a host that has a journal beside the state. -/
def beside {ν : Type} (client : MetadataClient σ) (host : Host (σ × List ν)) : MetadataClient (σ × List ν) where
  host
  config := client.config
  slot := Slot.fst.comp client.slot
  lock := client.lock

section Beside

variable {ν : Type} {host' : Host (σ × List ν)} (h : host'.Noting client.host)
include h

theorem validToken?_noting : (client.beside host').validToken?.Noting client.validToken? := by
  refine Program.noting_read fun s => ?_
  change (client.slot.get s.1).filter (fun t => !t.isExpired (host'.now s)) = _
  rw [h.now]

theorem fetchToken_noting : (client.beside host').fetchToken.Noting client.fetchToken := by
  refine (Program.noting_ofExcept _).bind fun request => (h.send request).bind fun r => ?_
  dsimp only
  split
  · exact .done _
  · refine (Program.noting_ofExcept (textOf r.body)).bind fun value => ?_
    exact (Program.noting_read h.now).bind fun now => Program.noting_change fun _ => rfl

theorem renewToken_noting : (client.beside host').renewToken.Noting client.renewToken := by
  refine (validToken?_noting h).bind fun t => ?_
  split
  · exact fetchToken_noting h
  · exact .done _

/-- A token is seen to alike after refreshes that differ in no more than notes. -/
theorem tokenAfter_noting {refresh' : Program (σ × List ν) Unit} {refresh : Program σ Unit} (hrefresh : refresh'.Noting refresh) :
    ((client.beside host').tokenAfter refresh').Noting (client.tokenAfter refresh) := by
  have hfound : (Program.read (client.beside host').slot.get >>= fun t => Program.ofExcept (found t)).Noting
      (Program.read client.slot.get >>= fun t => Program.ofExcept (found t)) :=
    (Program.noting_read fun _ => rfl).bind fun t => Program.noting_ofExcept _
  refine (validToken?_noting h).bind fun t => ?_
  dsimp only
  split
  · exact hrefresh.bind fun _ => hfound
  · exact hfound

/-- A call for a token is the same with notes and without. -/
theorem token_noting : (client.beside host').token.Noting client.token := tokenAfter_noting h (.withLock (renewToken_noting h) _)

theorem readOnce_noting (path : String) : ((client.beside host').readOnce path).Noting (client.readOnce path) := by
  refine (token_noting h).bind fun t => (Program.noting_ofExcept _).bind fun request => (h.send request).bind fun r => ?_
  dsimp only
  split
  · exact (Program.noting_change fun _ => rfl).bind fun _ => .done _
  · split
    · exact .done _
    · exact Program.noting_ofExcept _

/-- Another attempt, if there is one, that makes notes. -/
def AgainNoting (again : Option (RetryToken → Program (σ × List ν) String)) (again' : Option (RetryToken → Program σ String)) : Prop :=
  Option.Rel (fun next next' => ∀ token, (next token).Noting (next' token)) again again'

/-- What follows a failed attempt is the same with notes and without. -/
theorem afterFailure_noting {again : Option (RetryToken → Program (σ × List ν) String)}
    {again' : Option (RetryToken → Program σ String)} (hagain : AgainNoting again again') (token : RetryToken) (f : Failure) :
    ((client.beside host').afterFailure again token f).Noting (client.afterFailure again' token f) := by
  have hdraws : (client.beside host').host.draws = Slot.fst.comp client.host.draws := h.draws
  unfold afterFailure
  rw [hdraws]
  refine (Program.noting_read (g := client.host.draws.get) fun _ => rfl).bind fun draws => ?_
  have hpolicy : (client.beside host').config.policy = client.config.policy := rfl
  rw [hpolicy]
  cases client.config.policy.renew token (some f) draws with
  | error e => cases e <;> cases hagain <;> exact .done _
  | ok renewed =>
    cases hagain with
    | none => exact .done _
    | some hnext => exact (Program.noting_change fun _ => rfl).bind fun _ => hnext _

/-- An attempt after its delay is the same with notes and without. -/
theorem readAfterDelay_noting {path : String} {again : Option (RetryToken → Program (σ × List ν) String)}
    {again' : Option (RetryToken → Program σ String)} (hagain : AgainNoting again again') (token : RetryToken) :
    ((client.beside host').readAfterDelay path again token).Noting (client.readAfterDelay path again' token) := by
  have hafter : ∀ f, ((client.beside host').afterFailure again token f).Noting (client.afterFailure again' token f) :=
    afterFailure_noting h hagain token
  unfold readAfterDelay
  split
  · exact (readOnce_noting h path).attempt_bind (fun _ => .done _) hafter
  · exact (h.sleep _).bind fun _ => (readOnce_noting h path).attempt_bind (fun _ => .done _) hafter

/-- A reading is the same with notes and without. -/
theorem readFrom_noting (path : String) (left : Nat) (token : RetryToken) :
    ((client.beside host').readFrom path left token).Noting (client.readFrom path left token) := by
  induction left generalizing token with
  | zero => exact readAfterDelay_noting h .none token
  | succ left ih => exact readAfterDelay_noting h (.some ih) token

/-- A reading on a host that makes notes is the reading but for the notes. -/
theorem read_noting (path : String) : ((client.beside host').read path).Noting (client.read path) := readFrom_noting h path _ _

end Beside

/-- A host that makes notes does what it did without. -/
theorem notedHost_noting (host : Host σ) : (notedHost host).Noting host where
  now _ := rfl
  draws := rfl
  send _ := .note _ ((Program.noting_beside _).reported _)
  sendWithin _ _ := Program.noting_beside _
  sleep _ := Program.noting_beside _

/-- A refresh that notes when it has the lock does what it did without. -/
theorem notedRefresh_noting : client.notedRefresh.Noting client.refreshToken :=
  .withLock (.note _ (renewToken_noting (notedHost_noting client.host))) _

/-- A call that makes notes is a call but for the notes. -/
theorem call_noting : client.call.Noting client.token :=
  (tokenAfter_noting (notedHost_noting client.host) notedRefresh_noting).reported _

/-- Giving up the token is the same with a note and without. -/
theorem giveUp_noting : client.giveUp.Noting client.invalidate := .note _ (Program.noting_change fun _ => rfl)

end MetadataClient

end SignedCall
