import SignedCall.Proofs.Credentials.Frame
import SignedCall.Proofs.Host
import SignedCall.Proofs.Metadata.Tokens

/-!
# One attempt to read metadata

An attempt sees to a session token, asks for one if none is kept that has not expired, and sends a request that carries it. An
`Attempt` tells what was sent and answered in it, and `Made` how it went with the token that was kept: what it was before and what it is
afterwards. Every attempt that nobody else's work on the token interrupts is one of these (`MetadataClient.comesTo_readOnce`).
-/

namespace SignedCall

variable {σ : Type}

/-- A request that is handed over, and its answer, each with the state as it is then. -/
structure Exchange (σ : Type) where
  request : Request
  sending : σ
  answer : Outcome Response
  answering : σ

/-- What is noted of a request and its answer, if there is one. -/
def Exchange.notes (x : Option (Exchange σ)) : List (HostNote σ) :=
  x.elim [] fun x => [(.sent x.request, x.sending), (.answered x.request x.answer, x.answering)]

/-- Whether a request with a method is handed over. -/
def HostEvent.sends (method : String) : HostEvent → Bool
  | .sent request => request.method == method
  | _ => false

namespace MetadataClient

/-- A client that notes what is asked of its host. -/
def logged (client : MetadataClient σ) : MetadataClient (σ × List (HostNote σ)) := client.beside client.host.logged

variable {client : MetadataClient σ} {waits : Outcome Unit → Prop} {kept : Option SessionToken}

/-! ## The token -/

/-- How seeing to a token goes, if some token is kept before: which request for a token is made, what comes of it and where it ends. Some
waits end in ways that cut it short. -/
inductive Obtains (client : MetadataClient σ) (waits : Outcome Unit → Prop) (kept : Option SessionToken) {α : Type} :
    Option (Exchange σ) → Outcome α → σ → Prop
  /-- The token that is kept has not expired. -/
  | unneeded {t : SessionToken} {a : α} {s : σ} :
      client.fresh? s = some t → kept = some t → Obtains client waits kept none (.value a) s
  /-- A request for a token is answered with one, which is kept then. -/
  | granted {x : Exchange σ} {t : SessionToken} {a : α} {s : σ} :
      x.request.method = "PUT" → tokenIn x.answer = .value t.value → client.fresh? s = some t →
      Obtains client waits kept (some x) (.value a) s
  /-- A request for a token is answered without one, and what the answer comes to is passed on. -/
  | refused {x : Exchange σ} {o : Outcome α} {s : σ} :
      x.request.method = "PUT" → (tokenIn x.answer).Passes o → client.slot.get s = kept → Obtains client waits kept (some x) o s
  /-- There is no address to send the request to. -/
  | unaddressed {fault : Url.Fault} {s : σ} :
      client.config.request "PUT" tokenPath = .error fault → client.slot.get s = kept →
      Obtains client waits kept none (.failed fault.failure) s
  /-- The wait for the lock is broken off. -/
  | brokenOff {x : Outcome Unit} {o : Outcome α} {s : σ} :
      waits x → x.Passes o → client.slot.get s = kept → Obtains client waits kept none o s

namespace Obtains

variable {put : Option (Exchange σ)} {α β : Type} {a : α} {o : Outcome α} {s : σ}

/-- Tokens are asked for with `PUT`. -/
theorem method (h : client.Obtains waits kept put o s) : ∀ x ∈ put, x.request.method = "PUT" := by
  cases h with
  | granted hmethod _ _ => exact fun y hy => Option.some.inj hy ▸ hmethod
  | refused hmethod _ _ => exact fun y hy => Option.some.inj hy ▸ hmethod
  | _ => exact nofun

/-- The token that is kept in the end was kept before or came with the answer. -/
theorem fresh (h : client.Obtains waits kept put (.value a) s) :
    ∃ t, client.fresh? s = some t ∧ ((put = none ∧ kept = some t) ∨ ∃ x ∈ put, tokenIn x.answer = .value t.value) := by
  cases h with
  | unneeded hfresh hkept => exact ⟨_, hfresh, Or.inl ⟨rfl, hkept⟩⟩
  | granted _ hvalue hfresh => exact ⟨_, hfresh, Or.inr ⟨_, rfl, hvalue⟩⟩
  | refused _ hpasses _ => exact absurd rfl (hpasses.ne_value a)
  | brokenOff _ hpasses _ => exact absurd rfl (hpasses.ne_value a)

/-- Where it comes to no token, the one that is kept stays the same. -/
theorem same (h : client.Obtains waits kept put o s) (ho : ∀ a, o ≠ .value a) : client.slot.get s = kept := by
  cases h with
  | unneeded _ _ => exact absurd rfl (ho _)
  | granted _ _ _ => exact absurd rfl (ho _)
  | refused _ _ hkept => exact hkept
  | unaddressed _ hkept => exact hkept
  | brokenOff _ _ hkept => exact hkept

/-- What comes of it may be handed over as something else. -/
theorem handed (h : client.Obtains waits kept put (.value a) s) (b : β) : client.Obtains waits kept put (.value b) s := by
  cases h with
  | unneeded hfresh hkept => exact .unneeded hfresh hkept
  | granted hmethod hvalue hfresh => exact .granted hmethod hvalue hfresh
  | refused _ hpasses _ => exact absurd rfl (hpasses.ne_value a)
  | brokenOff _ hpasses _ => exact absurd rfl (hpasses.ne_value a)

/-- An outcome without a token may be passed on. -/
theorem pass {o' : Outcome β} (h : client.Obtains waits kept put o s) (ho : o.Passes o') : client.Obtains waits kept put o' s := by
  cases h with
  | unneeded _ _ => exact absurd rfl (ho.value_ne _)
  | granted _ _ _ => exact absurd rfl (ho.value_ne _)
  | refused hmethod hpasses hkept => exact .refused hmethod (hpasses.trans ho) hkept
  | unaddressed hrequest hkept => exact ho.eq_failed ▸ .unaddressed hrequest hkept
  | brokenOff hwait hpasses hkept => exact .brokenOff hwait (hpasses.trans ho) hkept

end Obtains

/-- What holds when the token is seen to, if some things were noted before. -/
def ObtainsFrom (client : MetadataClient σ) (waits : Outcome Unit → Prop) (kept : Option SessionToken) (js : List (HostNote σ))
    {α : Type} (o : Outcome α) (s : σ × List (HostNote σ)) : Prop :=
  ∃ put, s.2 = js ++ Exchange.notes put ∧ client.Obtains waits kept put o s.1

variable {s : σ × List (HostNote σ)}

/-- A request for a token gives the token that is kept from then on, or fails and leaves the old one. -/
theorem comesTo_fetchToken (hc : client.Sound) (hkept : client.slot.get s.1 = kept) :
    client.logged.fetchToken.ComesTo (Host.besides waits client.slot.get) (client.ObtainsFrom waits kept s.2) s := by
  unfold fetchToken request
  rw [show client.logged.config = client.config from rfl]
  cases hrequest : client.config.request "PUT" tokenPath with
  | error fault =>
    exact Program.comesTo_done ⟨none, (List.append_nil _).symm, .unaddressed hrequest hkept⟩
  | ok b =>
    have hput : (b.setHeader lifetimeHeader (toString client.config.tokenLifetime)).build.method = "PUT" :=
      show b.method = "PUT" from method_of_request hrequest
    refine (Host.comesTo_send (hc.keeps _)).andThen ?_
    rintro o s' ⟨hslot, hnotes⟩
    have hsame : client.slot.get s'.1 = kept := hslot.trans hkept
    have hasked : ∀ {o' : Outcome Unit}, (tokenIn o).Passes o' →
        (Program.done o').ComesTo (Host.besides waits client.slot.get) (client.ObtainsFrom waits kept s.2) s' := fun ho' =>
      Program.comesTo_done ⟨some ⟨_, s.1, o, s'.1⟩, hnotes, .refused hput ho' hsame⟩
    cases o with
    | failed f => exact hasked (.failed f)
    | cancelled => exact hasked .cancelled
    | value r =>
      simp only [Program.onValue]
      split
      · next hstatus => exact hasked (by rw [tokenIn, if_pos hstatus]; exact .failed _)
      · next hstatus =>
        have hjudged : tokenIn (.value r) = .of (textOf r.body) := if_neg hstatus
        cases htext : textOf r.body with
        | error f => exact hasked (by rw [hjudged, htext]; exact .failed f)
        | ok value =>
          have hvalue : tokenIn (.value r) = .value value := by rw [hjudged, htext]; rfl
          refine Program.comesTo_read (Program.comesTo_put ?_)
          exact ⟨some ⟨_, s.1, .value r, s'.1⟩, hnotes, .granted hput hvalue (fresh?_set hc value s'.1)⟩

/-- Under the lock a token is asked for unless one has been put there that has not expired. -/
theorem comesTo_renewToken (hc : client.Sound) (hkept : client.slot.get s.1 = kept) :
    client.logged.renewToken.ComesTo (Host.besides waits client.slot.get) (client.ObtainsFrom waits kept s.2) s := by
  refine Program.comesTo_read ?_
  change (if (client.fresh? s.1).isNone then client.logged.fetchToken else pure ()).ComesTo _ _ s
  cases hfresh : client.fresh? s.1 with
  | none => exact comesTo_fetchToken hc hkept
  | some t =>
    have hsame : kept = some t := hkept.symm.trans (Option.filter_eq_some_iff.1 hfresh).1
    exact Program.comesTo_done ⟨none, (List.append_nil _).symm, .unneeded hfresh hsame⟩

/-- Getting a token takes the lock and gives it back. -/
theorem comesTo_refreshToken (hc : client.Sound) (hkept : client.slot.get s.1 = kept) :
    client.logged.refreshToken.ComesTo (Host.besides waits client.slot.get) (client.ObtainsFrom waits kept s.2) s := by
  refine Program.ComesTo.withLock (fun s' hs' => ?_) fun o o' s' ho hs' hpasses => ?_
  · obtain ⟨hslot, hnotes⟩ := Prod.mk.inj hs'
    exact hnotes ▸ comesTo_renewToken hc (hslot.trans hkept)
  · obtain ⟨hslot, hnotes⟩ := Prod.mk.inj hs'
    exact ⟨none, hnotes.trans (List.append_nil _).symm, .brokenOff ho hpasses (hslot.trans hkept)⟩

/-- The token for a request is seen to. -/
theorem comesTo_token (hc : client.Sound) (hkept : client.slot.get s.1 = kept) :
    client.logged.token.ComesTo (Host.besides waits client.slot.get)
      (fun o s' => client.ObtainsFrom waits kept s.2 o s' ∧ ∀ t, o = .value t → client.fresh? s'.1 = some t) s := by
  -- The token is read in the turn in which it was found, or put into its place.
  have hread : ∀ put {s'}, s'.2 = s.2 ++ Exchange.notes put → client.Obtains waits kept put (.value ()) s'.1 →
      (Program.read client.logged.slot.get >>= fun t => Program.ofExcept (found t)).ComesTo (Host.besides waits client.slot.get)
        (fun o s' => client.ObtainsFrom waits kept s.2 o s' ∧ ∀ t, o = .value t → client.fresh? s'.1 = some t) s' := by
    intro put s' hnotes hobtains
    obtain ⟨t, hfresh, -⟩ := hobtains.fresh
    refine Program.comesTo_read ?_
    change (Program.ofExcept (found (client.slot.get s'.1))).ComesTo _ _ s'
    rw [(Option.filter_eq_some_iff.1 hfresh).1]
    exact Program.comesTo_ofExcept ⟨⟨put, hnotes, hobtains.handed t⟩, fun t' ht' => Outcome.value.inj ht' ▸ hfresh⟩
  refine Program.comesTo_read ?_
  change (if (client.fresh? s.1).isNone then client.logged.refreshToken >>= fun _ => _ else _ :
    Program (σ × List (HostNote σ)) SessionToken).ComesTo _ _ s
  cases hfresh : client.fresh? s.1 with
  | some t =>
    have hsame : kept = some t := hkept.symm.trans (Option.filter_eq_some_iff.1 hfresh).1
    exact hread none (List.append_nil _).symm (.unneeded hfresh hsame)
  | none =>
    refine (comesTo_refreshToken hc hkept).bind ?_ ?_ ?_
    · rintro u s' ⟨put, hnotes, hobtains⟩
      exact hread put hnotes hobtains
    · rintro f s' ⟨put, hnotes, hobtains⟩
      exact ⟨⟨put, hnotes, hobtains.pass (.failed f)⟩, nofun⟩
    · rintro s' ⟨put, hnotes, hobtains⟩
      exact ⟨⟨put, hnotes, hobtains.pass .cancelled⟩, nofun⟩

/-! ## The request that carries it -/

/-- Whether an answer rejects the token that a request carried. -/
def rejects : Outcome Response → Bool
  | .value r => r.status == 401
  | _ => false

/-- What the answer to a request for a path comes to. -/
def textIn (path : String) : Outcome Response → Outcome String
  | .value r =>
    if r.status = 401 then .failed tokenRejected
    else if r.status ≠ 200 then .failed (notServed r.status path)
    else .of (textOf r.body)
  | .failed f => .failed f
  | .cancelled => .cancelled

/-- An attempt: the delay in front of it and the state after that, the requests for a token and for the path, and how it ended. -/
structure Attempt (σ : Type) where
  delay : Binary64
  awake : σ
  put : Option (Exchange σ)
  get : Option (Exchange σ)
  outcome : Outcome String

/-- What is noted of an attempt. There is no sleep if the delay is zero. -/
def Attempt.notes (a : Attempt σ) : List (HostNote σ) :=
  (if a.delay.isZero then [] else [(.slept a.delay (.value ()), a.awake)]) ++ (Exchange.notes a.put ++ Exchange.notes a.get)

/-- How an attempt goes, if some token is kept before, and which one is kept afterwards. -/
inductive Made (client : MetadataClient σ) (waits : Outcome Unit → Prop) (path : String) (kept : Option SessionToken) :
    Attempt σ → Option SessionToken → Prop
  /-- There is no token. -/
  | tokenless {delay : Binary64} {awake s : σ} {put : Option (Exchange σ)} {o : Outcome SessionToken} {o' : Outcome String} :
      client.Obtains waits kept put o s → o.Passes o' → Made client waits path kept ⟨delay, awake, put, none, o'⟩ kept
  /-- There is no address to send the request to. -/
  | unaddressed {delay : Binary64} {awake s : σ} {put : Option (Exchange σ)} {t : SessionToken} {fault : Url.Fault} :
      client.Obtains waits kept put (.value t) s → client.fresh? s = some t → client.config.request "GET" path = .error fault →
      Made client waits path kept ⟨delay, awake, put, none, .failed fault.failure⟩ (some t)
  /-- The request is sent with the token, which is given up if it is rejected. -/
  | read {delay : Binary64} {awake : σ} {put : Option (Exchange σ)} {t : SessionToken} {b : RequestBuilder} {x : Exchange σ} :
      client.Obtains waits kept put (.value t) x.sending → client.fresh? x.sending = some t →
      client.config.request "GET" path = .ok b → x.request = (b.setHeader tokenHeader t.value).build →
      Made client waits path kept ⟨delay, awake, put, some x, textIn path x.answer⟩ (if rejects x.answer then none else some t)

/-- What holds after an attempt, if some things were noted before its requests. -/
def MadeFrom (client : MetadataClient σ) (waits : Outcome Unit → Prop) (path : String) (kept : Option SessionToken) (delay : Binary64)
    (awake : σ) (js : List (HostNote σ)) (o : Outcome String) (s : σ × List (HostNote σ)) : Prop :=
  ∃ put get, s.2 = js ++ (Exchange.notes put ++ Exchange.notes get) ∧
    client.Made waits path kept ⟨delay, awake, put, get, o⟩ (client.slot.get s.1)

/-- An attempt without a token ends as the request for one did. -/
theorem MadeFrom.of_tokenless {path : String} {delay : Binary64} {awake : σ} {js : List (HostNote σ)} {put : Option (Exchange σ)}
    {o : Outcome SessionToken} {o' : Outcome String} (hs : s.2 = js ++ Exchange.notes put) (h : client.Obtains waits kept put o s.1)
    (ho : o.Passes o') : client.MadeFrom waits path kept delay awake js o' s := by
  refine ⟨put, none, by rw [hs, Exchange.notes, Exchange.notes, Option.elim_none, List.append_nil], ?_⟩
  rw [h.same ho.value_ne]
  exact .tokenless h ho

/-- An attempt sees to a token, sends its request and gives the token up if that is rejected. -/
theorem comesTo_readOnce (hc : client.Sound) (path : String) (delay : Binary64) (awake : σ) (hkept : client.slot.get s.1 = kept) :
    (client.logged.readOnce path).ComesTo (Host.besides waits client.slot.get) (client.MadeFrom waits path kept delay awake s.2) s := by
  refine (comesTo_token hc hkept).bind ?_ ?_ ?_
  · rintro t s₁ ⟨⟨put, hnotes, hobtains⟩, hfresh⟩
    have hfresh : client.fresh? s₁.1 = some t := hfresh t rfl
    have hslot : client.slot.get s₁.1 = some t := (Option.filter_eq_some_iff.1 hfresh).1
    unfold request
    rw [show client.logged.config = client.config from rfl]
    cases hrequest : client.config.request "GET" path with
    | error fault =>
      refine Program.comesTo_done ⟨put, none, hnotes.trans (by simp [Exchange.notes]), ?_⟩
      rw [hslot]
      exact .unaddressed hobtains hfresh hrequest
    | ok b =>
      refine (Host.comesTo_send (hc.keeps _)).andThen ?_
      rintro o s₂ ⟨hslot₂, hnotes₂⟩
      have hsent : s₂.2 = s.2 ++ (Exchange.notes put ++
          Exchange.notes (some ⟨(b.setHeader tokenHeader t.value).build, s₁.1, o, s₂.1⟩)) := by
        rw [hnotes₂, hnotes, List.append_assoc]
        rfl
      have hread : ∀ s₃ : σ × List (HostNote σ), s₃.2 = s₂.2 →
          client.slot.get s₃.1 = (if rejects o then none else some t) →
          client.MadeFrom waits path kept delay awake s.2 (textIn path o) s₃ := by
        intro s₃ hnotes₃ hslot₃
        refine ⟨put, some ⟨_, s₁.1, o, s₂.1⟩, hnotes₃.trans hsent, ?_⟩
        rw [hslot₃]
        exact .read hobtains hfresh hrequest rfl
      have hsame : client.slot.get s₂.1 = some t := hslot₂.trans hslot
      cases o with
      | failed f => exact Program.comesTo_done (hread s₂ rfl hsame)
      | cancelled => exact Program.comesTo_done (hread s₂ rfl hsame)
      | value r =>
        simp only [Program.onValue]
        split
        · next hstatus =>
          have hgone : client.slot.get (client.slot.set none s₂.1) = if rejects (.value r) then none else some t := by
            rw [client.slot.get_set]
            simp [rejects, hstatus]
          have hput := hread (client.logged.slot.set none s₂) rfl hgone
          rw [textIn, if_pos hstatus] at hput
          exact Program.comesTo_change (Program.comesTo_done hput)
        · next hstatus =>
          have hsame : client.slot.get s₂.1 = if rejects (.value r) then none else some t := by
            rw [hsame]
            simp [rejects, hstatus]
          have hend := hread s₂ rfl hsame
          rw [textIn, if_neg hstatus] at hend
          split
          · next hother =>
            rw [if_pos hother] at hend
            exact Program.comesTo_done hend
          · next hother =>
            rw [if_neg hother] at hend
            exact Program.comesTo_ofExcept hend
  · rintro f s₁ ⟨⟨put, hnotes, hobtains⟩, -⟩
    exact .of_tokenless hnotes hobtains (.failed f)
  · rintro s₁ ⟨⟨put, hnotes, hobtains⟩, -⟩
    exact .of_tokenless hnotes hobtains .cancelled

end MetadataClient

end SignedCall
