import SignedCall.Proofs.Http.Headers
import SignedCall.Proofs.Metadata.Attempts

/-!
# Reading metadata

A reading makes attempts one after the other. `Course` says of a list of attempts, each with the token that was kept before it, that
they are those of a reading from some retry on, and how it then ends. Every reading runs such a course, whatever it meets
(`MetadataClient.comesTo_readFrom`), and from the course follows what a reading does with its tokens and its retries
(`MetadataClient.reads_with_fresh_tokens`). A path that is served need not give a text, and a retry that is left need not be made: the
body may be none, and the delay beyond all numbers (`MetadataClient.reads_with_fresh_tokens_always_false`).
-/

namespace SignedCall.MetadataClient

variable {σ : Type} {client : MetadataClient σ} {waits : Outcome Unit → Prop} {path : String}

/-- Whether the policy grants another attempt after a failure, if some retries were made before. -/
def Grants (client : MetadataClient σ) (k : Nat) (f : Failure) : Prop :=
  client.config.policy.shouldRetry { retries := k, failure := some f } = true

/-- The attempts of a reading after some retries and with a delay, if some token is kept before, and how the reading ends. -/
inductive Course (client : MetadataClient σ) (waits : Outcome Unit → Prop) (path : String) :
    Nat → Binary64 → Option SessionToken → List (Attempt σ) → Outcome String → Prop
  /-- There is a text, the reading is cancelled, or no other attempt is granted after a failure. -/
  | ended {k : Nat} {kept kept' : Option SessionToken} {a : Attempt σ} :
      client.Made waits path kept a kept' → (∀ f, a.outcome = .failed f → ¬client.Grants k f) →
      Course client waits path k a.delay kept [a] a.outcome
  /-- Another attempt is granted, but no delay can be computed for it. -/
  | undelayed {k : Nat} {kept kept' : Option SessionToken} {a : Attempt σ} {f : Failure} {draws : Draws} {fault : BackoffFault} :
      client.Made waits path kept a kept' → a.outcome = .failed f → client.Grants k f →
      client.config.policy.delay { retries := k, failure := some f } draws = .error fault →
      Course client waits path k a.delay kept [a] (.failed fault.failure)
  /-- Another attempt is granted, and follows after the delay that the policy computes. -/
  | retried {k : Nat} {kept kept' : Option SessionToken} {a : Attempt σ} {f : Failure} {draws draws' : Draws} {delay : Binary64}
      {rest : List (Attempt σ)} {o : Outcome String} :
      client.Made waits path kept a kept' → a.outcome = .failed f → client.Grants k f →
      client.config.policy.delay { retries := k, failure := some f } draws = .ok (delay, draws') →
      Course client waits path (k + 1) delay kept' rest o → Course client waits path k a.delay kept (a :: rest) o

/-- Whether all sleeps come to their ends. -/
def Rested (notes : List (HostNote σ)) : Prop := ∀ delay o, HostEvent.slept delay o ∈ notes.map Prod.fst → o = .value ()

theorem Rested.right {notes notes' : List (HostNote σ)} (h : Rested (notes ++ notes')) : Rested notes' := by
  intro delay o hmem
  exact h delay o (by rw [List.map_append]; exact List.mem_append_right _ hmem)

/-- How a reading ends from an attempt on, if some token is kept and some things were noted before. -/
def Ends (client : MetadataClient σ) (waits : Outcome Unit → Prop) (path : String) (token : RetryToken) (kept : Option SessionToken)
    (js : List (HostNote σ)) (o : Outcome String) (s : σ × List (HostNote σ)) : Prop :=
  ∃ notes, s.2 = js ++ notes ∧ (Rested notes →
    ∃ attempts, notes = attempts.flatMap Attempt.notes ∧ client.Course waits path token.retries token.delay kept attempts o)

/-- What may follow a failed attempt: nothing if no retry is left, else an attempt with one more retry behind it. -/
structure Continues (client : MetadataClient σ) (waits : Outcome Unit → Prop) (path : String) (token : RetryToken)
    (again : Option (RetryToken → Program (σ × List (HostNote σ)) String)) : Prop where
  exhausted : again = none → client.config.policy.retries ≤ token.retries
  goesOn : ∀ next, again = some next → ∀ token' s, token'.retries = token.retries + 1 →
    (next token').ComesTo (Host.besides waits client.slot.get) (client.Ends waits path token' (client.slot.get s.1) s.2) s

variable {token : RetryToken} {kept : Option SessionToken} {js : List (HostNote σ)} {s : σ × List (HostNote σ)}
  {again : Option (RetryToken → Program (σ × List (HostNote σ)) String)}

/-- A reading may end with its first attempt. -/
theorem Ends.of_last {a : Attempt σ} {o : Outcome String} (hs : s.2 = js ++ a.notes)
    (h : client.Course waits path token.retries token.delay kept [a] o) : client.Ends waits path token kept js o s :=
  ⟨a.notes, hs, fun _ => ⟨[a], by simp, h⟩⟩

/-- After a failed attempt a reading goes on, or ends as its policy says. -/
theorem comesTo_afterFailure (hleaves : client.host.Leaves client.slot.get) (hagain : client.Continues waits path token again)
    {a : Attempt σ} {f : Failure} (hmade : client.Made waits path kept a (client.slot.get s.1)) (hf : a.outcome = .failed f)
    (hdelay : a.delay = token.delay) (hs : s.2 = js ++ a.notes) :
    (client.logged.afterFailure again token f).ComesTo (Host.besides waits client.slot.get) (client.Ends waits path token kept js) s := by
  refine Program.comesTo_read ?_
  have hpolicy : client.logged.config.policy = client.config.policy := rfl
  rw [hpolicy]
  generalize client.logged.host.draws.get s = draws
  by_cases hgrants : client.config.policy.shouldRetry { retries := token.retries, failure := some f } = true
  · cases hcomputed : client.config.policy.delay { retries := token.retries, failure := some f } draws with
    | error fault =>
      have hrenew : client.config.policy.renew token (some f) draws = .error (.noDelay fault) := by
        simp [RetryPolicy.renew, hgrants, hcomputed]
      rw [hrenew]
      exact Program.comesTo_done (.of_last hs (hdelay ▸ .undelayed hmade hf hgrants hcomputed))
    | ok renewed =>
      obtain ⟨delay', draws'⟩ := renewed
      have hrenew : client.config.policy.renew token (some f) draws = .ok ({ retries := token.retries + 1, delay := delay' }, draws') := by
        simp [RetryPolicy.renew, hgrants, hcomputed]
      rw [hrenew]
      cases again with
      | none =>
        have hleft : token.retries < client.config.policy.retries := by
          have hboth := hgrants
          simp only [RetryPolicy.shouldRetry, Bool.and_eq_true, decide_eq_true_eq] at hboth
          exact hboth.1
        exact absurd (hagain.exhausted rfl) (Nat.not_le.2 hleft)
      | some next =>
        refine Program.comesTo_change ((hagain.goesOn next rfl _ _ rfl).mono ?_)
        rintro o s' ⟨notes, hnotes, hends⟩
        have hput : (client.logged.host.draws.set draws' s).2 = s.2 := rfl
        have hslot : client.slot.get (client.logged.host.draws.set draws' s).1 = client.slot.get s.1 := hleaves.draws draws' s.1
        rw [hput, hs] at hnotes
        refine ⟨a.notes ++ notes, hnotes.trans (List.append_assoc _ _ _), fun hrested => ?_⟩
        obtain ⟨attempts, rfl, hcourse⟩ := hends hrested.right
        rw [hslot] at hcourse
        exact ⟨a :: attempts, rfl, hdelay ▸ .retried hmade hf hgrants hcomputed hcourse⟩
  · have hrenew : client.config.policy.renew token (some f) draws = .error (.exhausted token.attempts (some f)) := by
      simp [RetryPolicy.renew, hgrants]
    rw [hrenew]
    have hlast : ∀ f', a.outcome = .failed f' → ¬client.Grants token.retries f' := by
      intro f' hf'
      obtain rfl := Outcome.failed.inj (hf.symm.trans hf')
      exact hgrants
    have hended := Course.ended hmade hlast
    rw [hf] at hended
    exact Program.comesTo_done (.of_last hs (hdelay ▸ hended))

/-- An attempt that follows the delay in front of it. -/
theorem comesTo_afterDelay (hc : client.Sound) (hleaves : client.host.Leaves client.slot.get)
    (hagain : client.Continues waits path token again) (awake : σ) (hkept : client.slot.get s.1 = kept)
    (hs : s.2 = js ++ if token.delay.isZero then [] else [(.slept token.delay (.value ()), awake)]) :
    ((client.logged.readOnce path).attempt >>= fun
        | .ok text => pure text
        | .error f => client.logged.afterFailure again token f).ComesTo (Host.besides waits client.slot.get)
      (client.Ends waits path token kept js) s := by
  have hnotes : ∀ {s' : σ × List (HostNote σ)} {put get o},
      s'.2 = s.2 ++ (Exchange.notes put ++ Exchange.notes get) → s'.2 = js ++ Attempt.notes ⟨token.delay, awake, put, get, o⟩ := by
    intro s' put get o hs'
    rw [hs', hs, Attempt.notes, List.append_assoc]
  refine (comesTo_readOnce hc path token.delay awake hkept).attempt ?_ ?_ ?_
  · rintro text s' ⟨put, get, hs', hmade⟩
    exact Program.comesTo_done (.of_last (hnotes hs') (.ended hmade nofun))
  · rintro f s' ⟨put, get, hs', hmade⟩
    exact comesTo_afterFailure hleaves hagain hmade rfl rfl (hnotes hs')
  · rintro s' ⟨put, get, hs', hmade⟩
    exact .of_last (hnotes hs') (.ended hmade nofun)

/-- An attempt after its delay, and what follows it, run a course. -/
theorem comesTo_readAfterDelay (hc : client.Sound) (hleaves : client.host.Leaves client.slot.get)
    (hagain : client.Continues waits path token again) :
    (client.logged.readAfterDelay path again token).ComesTo (Host.besides waits client.slot.get)
      (client.Ends waits path token (client.slot.get s.1) s.2) s := by
  unfold readAfterDelay
  split
  · next hzero => exact comesTo_afterDelay hc hleaves hagain s.1 rfl (by simp [hzero])
  · next hzero =>
    refine (Host.comesTo_sleep (hleaves.sleep token.delay)).andThen ?_
    rintro o s' ⟨hslot, hnotes⟩
    have hcut : o ≠ .value () → ∀ o', client.Ends waits path token (client.slot.get s.1) s.2 o' s' := by
      intro ho o'
      refine ⟨_, hnotes, fun hrested => absurd (hrested token.delay o ?_) ho⟩
      simp
    cases o with
    | value u => exact comesTo_afterDelay hc hleaves hagain s'.1 hslot (by rw [hnotes, if_neg hzero])
    | failed f => exact Program.comesTo_done (hcut nofun _)
    | cancelled => exact Program.comesTo_done (hcut nofun _)

/-- The number of retries left and the number of retries made add up to the limit, so that the recursion never cuts a reading short. -/
theorem comesTo_readFrom (hc : client.Sound) (hleaves : client.host.Leaves client.slot.get) (left : Nat) (token : RetryToken)
    (hleft : left + token.retries = client.config.policy.retries) (s : σ × List (HostNote σ)) :
    (client.logged.readFrom path left token).ComesTo (Host.besides waits client.slot.get)
      (client.Ends waits path token (client.slot.get s.1) s.2) s := by
  induction left generalizing token s with
  | zero =>
    have hlast : client.Continues waits path token none := by
      refine ⟨fun _ => by omega, fun next hnext => ?_⟩
      cases hnext
    exact comesTo_readAfterDelay hc hleaves hlast
  | succ left ih =>
    have hmore : client.Continues waits path token (some (client.logged.readFrom path left)) := by
      refine ⟨fun hnone => ?_, fun next hnext token' s htoken => ?_⟩
      · cases hnone
      · obtain rfl := Option.some.inj hnext
        exact ih token' (by omega) s
    exact comesTo_readAfterDelay hc hleaves hmore

/-! ## What follows from the course -/

section Course

variable {k : Nat} {delay : Binary64} {attempts before after : List (Attempt σ)} {a : Attempt σ} {o : Outcome String}

/-- Where the policy grants another attempt, there is a retry left. -/
theorem Grants.lt {f : Failure} (h : client.Grants k f) : k < client.config.policy.retries := by
  simp only [Grants, RetryPolicy.shouldRetry, Bool.and_eq_true, decide_eq_true_eq] at h
  exact h.1

/-- Every attempt but those before it begins a course of its own, with as many retries behind it. -/
theorem Course.suffix (h : client.Course waits path k delay kept (before ++ a :: after) o) :
    ∃ delay' kept', client.Course waits path (k + before.length) delay' kept' (a :: after) o := by
  induction before generalizing k delay kept with
  | nil => exact ⟨delay, kept, h⟩
  | cons b before ih =>
    generalize hattempts : b :: before ++ a :: after = attempts at h
    cases h with
    | ended hmade hlast => simp at hattempts
    | undelayed hmade hf hgrants hdelay => simp at hattempts
    | retried hmade hf hgrants hdelay hcourse =>
      obtain ⟨-, rfl⟩ := List.cons.inj hattempts
      obtain ⟨delay', kept', hrest⟩ := ih hcourse
      exact ⟨delay', kept', by rwa [List.length_cons, Nat.add_comm before.length, ← Nat.add_assoc]⟩

/-- What the first attempt of a course is, and what follows it. -/
theorem Course.head (h : client.Course waits path k delay kept (a :: after) o) :
    ∃ kept', client.Made waits path kept a kept' ∧
      ((after = [] ∧ o = a.outcome ∧ ∀ f, a.outcome = .failed f → ¬client.Grants k f) ∨
        (∃ f draws fault, after = [] ∧ a.outcome = .failed f ∧ client.Grants k f ∧
          client.config.policy.delay { retries := k, failure := some f } draws = .error fault ∧ o = .failed fault.failure) ∨
        ∃ f delay', a.outcome = .failed f ∧ client.Grants k f ∧ client.Course waits path (k + 1) delay' kept' after o) := by
  cases h with
  | ended hmade hlast => exact ⟨_, hmade, Or.inl ⟨rfl, rfl, hlast⟩⟩
  | undelayed hmade hf hgrants hdelay => exact ⟨_, hmade, Or.inr (Or.inl ⟨_, _, _, rfl, hf, hgrants, hdelay, rfl⟩)⟩
  | retried hmade hf hgrants hdelay hcourse => exact ⟨_, hmade, Or.inr (Or.inr ⟨_, _, hf, hgrants, hcourse⟩)⟩

/-- A course has at most one attempt more than there are retries left. -/
theorem Course.length_le (h : client.Course waits path k delay kept attempts o) (hk : k ≤ client.config.policy.retries) :
    attempts.length + k ≤ client.config.policy.retries + 1 := by
  induction h with
  | ended hmade hlast =>
    rw [List.length_singleton]
    omega
  | undelayed hmade hf hgrants hdelay =>
    rw [List.length_singleton]
    omega
  | retried hmade hf hgrants hdelay hcourse ih =>
    have hlength := ih hgrants.lt
    rw [List.length_cons]
    omega

/-! ### The first attempt -/

/-- A request that carries a token. -/
theorem Made.of_get {kept' : Option SessionToken} {x : Exchange σ} (h : client.Made waits path kept a kept') (hx : a.get = some x) :
    ∃ t, client.Obtains waits kept a.put (.value t) x.sending ∧ client.fresh? x.sending = some t ∧
      x.request.method = "GET" ∧ x.request.header? tokenHeader = some t.value ∧ a.outcome = textIn path x.answer ∧
      kept' = if rejects x.answer then none else some t := by
  cases h with
  | tokenless _ _ => cases hx
  | unaddressed _ _ _ => cases hx
  | @read _ _ _ t b _ hobtains hfresh hrequest hbuilt =>
    obtain rfl := Option.some.inj hx
    refine ⟨t, hobtains, hfresh, ?_, ?_, rfl, rfl⟩
    · rw [hbuilt]
      exact show b.method = "GET" from method_of_request hrequest
    · rw [hbuilt]
      exact b.header?_setHeader tokenHeader t.value

/-- An attempt without a request for the path leaves no token where none was kept, if there is an address for such requests. -/
theorem Made.none_of_unsent {kept' : Option SessionToken} (h : client.Made waits path none a kept') (hget : a.get = none)
    {b : RequestBuilder} (haddress : client.config.request "GET" path = .ok b) : kept' = none := by
  cases h with
  | tokenless _ _ => rfl
  | unaddressed _ _ hrequest =>
    rw [haddress] at hrequest
    cases hrequest
  | read _ _ _ _ => cases hget

/-- A request for the path was sent where there is an address to send it to. -/
theorem Made.addressed {kept' : Option SessionToken} {x : Exchange σ} (h : client.Made waits path kept a kept') (hx : a.get = some x) :
    ∃ b, client.config.request "GET" path = .ok b := by
  cases h with
  | tokenless _ _ => cases hx
  | unaddressed _ _ _ => cases hx
  | read _ _ hrequest _ => exact ⟨_, hrequest⟩

/-- The failure to decode a body is not one that is worth another attempt. -/
theorem not_grants_of_undecodable (hcondition : client.config.policy.condition = Retry.isRetryable) {body : Bytes} {f : Failure}
    (h : textOf body = .error f) : ¬client.Grants k f := by
  unfold textOf at h
  cases hdecode : Text.Utf8.decode body with
  | ok text =>
    rw [hdecode] at h
    cases h
  | error fault =>
    rw [hdecode] at h
    obtain rfl := Except.error.inj h
    have hnot : Retry.isRetryable { retries := k, failure := some (Failure.inner .decoding fault.message) } = false := rfl
    simp [Grants, RetryPolicy.shouldRetry, hcondition, hnot]

/-- A rejected token is worth another attempt as long as a retry is left. -/
theorem grants_tokenRejected (hcondition : client.config.policy.condition = Retry.isRetryable)
    (hk : k < client.config.policy.retries) : client.Grants k tokenRejected := by
  have hpasses : Retry.isRetryable { retries := k, failure := some tokenRejected } = true := rfl
  simp [Grants, RetryPolicy.shouldRetry, hcondition, hpasses, hk]

theorem textIn_of_rejects {x : Outcome Response} (h : rejects x = true) : textIn path x = .failed tokenRejected := by
  cases x with
  | value r => exact if_pos (by simpa [rejects] using h)
  | failed f => cases h
  | cancelled => cases h

theorem textIn_of_served {r : Response} (h : r.status = 200) : textIn path (.value r) = .of (textOf r.body) := by
  rw [textIn, if_neg (by rw [h]; decide), if_neg (not_not.2 h)]

/-- After a rejected token and while a retry is left another attempt follows, unless no delay can be computed for it. -/
theorem Course.follows_rejection (hcondition : client.config.policy.condition = Retry.isRetryable)
    (h : client.Course waits path k delay kept (a :: after) o) {x : Exchange σ} (hx : a.get = some x) (hrejects : rejects x.answer = true)
    (hk : k < client.config.policy.retries) :
    after ≠ [] ∨ ∃ draws fault, client.config.policy.delay { retries := k, failure := some tokenRejected } draws = .error fault ∧
      o = .failed fault.failure := by
  obtain ⟨kept', hmade, hrest⟩ := h.head
  obtain ⟨-, -, -, -, -, houtcome, -⟩ := hmade.of_get hx
  rw [textIn_of_rejects hrejects] at houtcome
  rcases hrest with ⟨-, -, hlast⟩ | ⟨f, draws, fault, -, hf, -, hdelay, ho⟩ | ⟨f, delay', -, -, hcourse⟩
  · exact absurd (grants_tokenRejected hcondition hk) (hlast _ houtcome)
  · obtain rfl := Outcome.failed.inj (houtcome.symm.trans hf)
    exact Or.inr ⟨draws, fault, hdelay, ho⟩
  · refine Or.inl ?_
    rintro rfl
    cases hcourse

/-- Where no token is kept, the next request for the path carries a token that was asked for in between. -/
theorem Course.renews {mid : List (Attempt σ)} {b : Attempt σ} (h : client.Course waits path k delay none (mid ++ b :: after) o)
    (hmid : ∀ c ∈ mid, c.get = none) {y : Exchange σ} (hy : b.get = some y) :
    ∃ c ∈ mid ++ [b], ∃ z ∈ c.put, ∃ value, tokenIn z.answer = .value value ∧ y.request.header? tokenHeader = some value := by
  induction mid generalizing k delay with
  | nil =>
    obtain ⟨kept', hmade, -⟩ := h.head
    obtain ⟨t, hobtains, hfresh, -, hheader, -, -⟩ := hmade.of_get hy
    obtain ⟨t', hfresh', ⟨-, hnone⟩ | ⟨z, hz, hvalue⟩⟩ := hobtains.fresh
    · cases hnone
    · obtain rfl := Option.some.inj (hfresh.symm.trans hfresh')
      exact ⟨b, List.mem_singleton_self b, z, hz, t.value, hvalue, hheader⟩
  | cons c mid ih =>
    obtain ⟨kept', hmade, hrest⟩ := h.head
    have hcourse : ∃ delay', client.Course waits path (k + 1) delay' kept' (mid ++ b :: after) o := by
      rcases hrest with ⟨hnil, -⟩ | ⟨-, -, -, hnil, -⟩ | ⟨-, delay', -, -, hcourse⟩
      · simp at hnil
      · simp at hnil
      · exact ⟨delay', hcourse⟩
    obtain ⟨delay', hcourse⟩ := hcourse
    obtain ⟨_, _, hlater⟩ := hcourse.suffix
    obtain ⟨_, hmade', -⟩ := hlater.head
    obtain ⟨_, haddress⟩ := hmade'.addressed hy
    obtain rfl := hmade.none_of_unsent (hmid c List.mem_cons_self) haddress
    obtain ⟨c', hc', hfound⟩ := ih hcourse fun c hc => hmid c (List.mem_cons_of_mem _ hc)
    exact ⟨c', List.mem_cons_of_mem _ hc', hfound⟩

/-- A request that is served is the last one, and its text is what comes of the reading. -/
theorem Course.served (hcondition : client.config.policy.condition = Retry.isRetryable)
    (h : client.Course waits path k delay kept (a :: after) o) {x : Exchange σ} (hx : a.get = some x) {r : Response}
    (hanswer : x.answer = .value r) (hstatus : r.status = 200) : after = [] ∧ o = .of (textOf r.body) := by
  obtain ⟨kept', hmade, hrest⟩ := h.head
  obtain ⟨-, -, -, -, -, houtcome, -⟩ := hmade.of_get hx
  rw [hanswer, textIn_of_served hstatus] at houtcome
  have hlast : ∀ f, a.outcome = .failed f → ¬client.Grants k f := fun f hf =>
    not_grants_of_undecodable hcondition (Outcome.of_eq_failed (houtcome.symm.trans hf))
  rcases hrest with ⟨hnil, ho, -⟩ | ⟨f, -, -, -, hf, hgrants, -⟩ | ⟨f, -, hf, hgrants, -⟩
  · exact ⟨hnil, ho.trans houtcome⟩
  · exact absurd hgrants (hlast f hf)
  · exact absurd hgrants (hlast f hf)

end Course

/-! ## Whole readings -/

/-- How an attempt ends without a request for the path, and after which request for a token. -/
inductive Fruitless (client : MetadataClient σ) (waits : Outcome Unit → Prop) (path : String) :
    Option (Exchange σ) → Outcome String → Prop
  /-- A request for a token is answered without one. -/
  | refused {x : Exchange σ} {o : Outcome String} : (tokenIn x.answer).Passes o → Fruitless client waits path (some x) o
  /-- There is a token, but no address to send the request for the path to. -/
  | unaddressed {put : Option (Exchange σ)} {fault : Url.Fault} :
      (∀ x ∈ put, ∃ value, tokenIn x.answer = .value value) → client.config.request "GET" path = .error fault →
      Fruitless client waits path put (.failed fault.failure)
  /-- There is no address to send a request for a token to. -/
  | unasked {fault : Url.Fault} : client.config.request "PUT" tokenPath = .error fault →
      Fruitless client waits path none (.failed fault.failure)
  /-- The wait for the turn to ask for a token is broken off. -/
  | brokenOff {x : Outcome Unit} {o : Outcome String} : waits x → x.Passes o → Fruitless client waits path none o

/-- The attempts of a reading with some number of retries, and how it ends. -/
structure Reads (client : MetadataClient σ) (waits : Outcome Unit → Prop) (path : String) (attempts : List (Attempt σ))
    (o : Outcome String) : Prop where
  /-- There is at most one attempt more than there are retries. -/
  limit : attempts.length ≤ client.config.policy.retries + 1
  /-- A request for a token is a `PUT`. -/
  asks : ∀ a ∈ attempts, ∀ x ∈ a.put, x.request.method = "PUT"
  /-- A request for the path is a `GET` and carries the token that is kept then, which has not expired. -/
  carries : ∀ a ∈ attempts, ∀ x ∈ a.get, x.request.method = "GET" ∧
    ∃ t, client.slot.get x.sending = some t ∧ t.isExpired (client.host.now x.sending) = false ∧
      x.request.header? tokenHeader = some t.value
  /-- After a rejected token another attempt follows while a retry is left, unless no delay can be computed for it. -/
  retries : ∀ (before after : List (Attempt σ)) (a : Attempt σ) (x : Exchange σ), attempts = before ++ a :: after → a.get = some x →
    rejects x.answer = true → before.length < client.config.policy.retries → after ≠ [] ∨ ∃ draws fault,
      client.config.policy.delay { retries := before.length, failure := some tokenRejected } draws = .error fault ∧
        o = .failed fault.failure
  /-- The next request for the path then carries a token that was asked for after the rejection. -/
  renews : ∀ (before mid after : List (Attempt σ)) (a b : Attempt σ) (x y : Exchange σ),
    attempts = before ++ a :: (mid ++ b :: after) → a.get = some x → rejects x.answer = true → (∀ c ∈ mid, c.get = none) →
      b.get = some y →
        ∃ c ∈ mid ++ [b], ∃ z ∈ c.put, ∃ value, tokenIn z.answer = .value value ∧ y.request.header? tokenHeader = some value
  /-- A request for the path that is served is the last one, and the text of its body is what comes of the reading. -/
  served : ∀ (before after : List (Attempt σ)) (a : Attempt σ) (x : Exchange σ) (r : Response), attempts = before ++ a :: after →
    a.get = some x → x.answer = .value r → r.status = 200 → after = [] ∧ o = .of (textOf r.body)
  /-- An attempt ends as its request for the path was answered. Without one it is fruitless. -/
  outcome : ∀ a ∈ attempts, (∀ x ∈ a.get, a.outcome = textIn path x.answer) ∧
    (a.get = none → client.Fruitless waits path a.put a.outcome)
  /-- The reading ends as its last attempt did, unless no delay can be computed for another one. -/
  last : ∃ (before : List (Attempt σ)) (a : Attempt σ), attempts = before ++ [a] ∧ (o = a.outcome ∨ ∃ f draws fault, a.outcome = .failed f ∧
    client.config.policy.delay { retries := before.length, failure := some f } draws = .error fault ∧ o = .failed fault.failure)

/-- In every attempt tokens are asked for with `PUT`. -/
theorem Made.method {kept kept' : Option SessionToken} {a : Attempt σ} (h : client.Made waits path kept a kept') :
    ∀ x ∈ a.put, x.request.method = "PUT" := by
  cases h with
  | tokenless hobtains _ => exact hobtains.method
  | unaddressed hobtains _ _ => exact hobtains.method
  | read hobtains _ _ _ => exact hobtains.method

/-- An attempt ends as the answer to its request for the path says, or fruitlessly without one. -/
theorem Made.outcome {kept kept' : Option SessionToken} {a : Attempt σ} (h : client.Made waits path kept a kept') :
    (∀ x ∈ a.get, a.outcome = textIn path x.answer) ∧ (a.get = none → client.Fruitless waits path a.put a.outcome) := by
  cases h with
  | tokenless hobtains ho =>
    refine ⟨nofun, fun _ => ?_⟩
    cases hobtains with
    | unneeded _ _ => exact absurd rfl (ho.value_ne _)
    | granted _ _ _ => exact absurd rfl (ho.value_ne _)
    | refused _ hpasses _ => exact .refused (hpasses.trans ho)
    | unaddressed hrequest _ => exact ho.eq_failed ▸ .unasked hrequest
    | brokenOff hwait hpasses _ => exact .brokenOff hwait (hpasses.trans ho)
  | unaddressed hobtains _ hrequest =>
    refine ⟨nofun, fun _ => .unaddressed (fun x hx => ?_) hrequest⟩
    obtain ⟨t, -, ⟨hnone, -⟩ | ⟨y, hy, hvalue⟩⟩ := hobtains.fresh
    · rw [hnone] at hx
      cases hx
    · obtain rfl := Option.some.inj (hx.symm.trans hy)
      exact ⟨t.value, hvalue⟩
  | read _ _ _ _ => exact ⟨fun y hy => Option.some.inj hy ▸ rfl, nofun⟩

/-- A course from the first attempt on is that of a reading. -/
theorem Course.reads (hcondition : client.config.policy.condition = Retry.isRetryable) {delay : Binary64} {kept : Option SessionToken}
    {attempts : List (Attempt σ)} {o : Outcome String} (h : client.Course waits path 0 delay kept attempts o) :
    client.Reads waits path attempts o := by
  have hfrom : ∀ {before a after}, attempts = before ++ a :: after →
      ∃ delay' kept', client.Course waits path before.length delay' kept' (a :: after) o := by
    rintro before a after rfl
    have hsuffix := h.suffix
    rwa [Nat.zero_add] at hsuffix
  have hmade : ∀ a ∈ attempts, ∃ kept' kept'', client.Made waits path kept' a kept'' := by
    intro a ha
    obtain ⟨before, after, hattempts⟩ := List.append_of_mem ha
    obtain ⟨_, kept', hcourse⟩ := hfrom hattempts
    obtain ⟨kept'', hmade, -⟩ := hcourse.head
    exact ⟨kept', kept'', hmade⟩
  constructor
  case limit => exact h.length_le (Nat.zero_le _)
  case asks =>
    intro a ha
    obtain ⟨_, _, hmade⟩ := hmade a ha
    exact hmade.method
  case carries =>
    intro a ha x hx
    obtain ⟨_, _, hmade⟩ := hmade a ha
    obtain ⟨t, -, hfresh, hmethod, hheader, -, -⟩ := hmade.of_get hx
    obtain ⟨hkept, hexpired⟩ := Option.filter_eq_some_iff.1 hfresh
    exact ⟨hmethod, t, hkept, by simpa using hexpired, hheader⟩
  case retries =>
    intro before after a x hattempts hx hrejects hleft
    obtain ⟨_, _, hcourse⟩ := hfrom hattempts
    exact hcourse.follows_rejection hcondition hx hrejects hleft
  case renews =>
    intro before mid after a b x y hattempts hx hrejects hmid hy
    obtain ⟨_, _, hcourse⟩ := hfrom hattempts
    obtain ⟨kept', hmade, hrest⟩ := hcourse.head
    obtain ⟨_, -, -, -, -, -, hkept⟩ := hmade.of_get hx
    rw [if_pos hrejects] at hkept
    rcases hrest with ⟨hnil, -⟩ | ⟨-, -, -, hnil, -⟩ | ⟨-, delay', -, -, hcourse⟩
    · simp at hnil
    · simp at hnil
    · rw [hkept] at hcourse
      exact hcourse.renews hmid hy
  case served =>
    intro before after a x r hattempts hx hanswer hstatus
    obtain ⟨_, _, hcourse⟩ := hfrom hattempts
    exact hcourse.served hcondition hx hanswer hstatus
  case outcome =>
    intro a ha
    obtain ⟨_, _, hmade⟩ := hmade a ha
    exact hmade.outcome
  case last =>
    rcases List.eq_nil_or_concat attempts with hnil | ⟨before, a, hattempts⟩
    · rw [hnil] at h
      cases h
    · rw [List.concat_eq_append] at hattempts
      obtain ⟨_, _, hcourse⟩ := hfrom hattempts
      obtain ⟨_, -, ⟨-, ho, -⟩ | ⟨f, draws, fault, -, hf, -, hdelay, ho⟩ | ⟨_, _, -, -, hcourse⟩⟩ := hcourse.head
      · exact ⟨before, a, hattempts, Or.inl ho⟩
      · exact ⟨before, a, hattempts, Or.inr ⟨f, draws, fault, hf, hdelay, ho⟩⟩
      · cases hcourse

/-- An attempt sends at most one request of a kind. -/
theorem Attempt.countP_le {a : Attempt σ} (hput : ∀ x ∈ a.put, x.request.method = "PUT") (hget : ∀ x ∈ a.get, x.request.method = "GET") :
    (a.notes.countP fun e => e.1.sends "GET") ≤ 1 ∧ (a.notes.countP fun e => e.1.sends "PUT") ≤ 1 := by
  obtain ⟨delay, awake, put, get, outcome⟩ := a
  have hpause : ∀ method, ((if delay.isZero then [] else [(.slept delay (.value ()), awake)] : List (HostNote σ)).countP fun e =>
      e.1.sends method) = 0 := by
    intro method
    split <;> rfl
  simp only [notes, List.countP_append, hpause]
  cases put <;> cases get <;> simp_all [Exchange.notes, HostEvent.sends]

/-- A reading sends at most one request for the path more than there are retries, and no more for tokens than that. -/
theorem Reads.countP_le {attempts : List (Attempt σ)} {o : Outcome String} (h : client.Reads waits path attempts o) :
    ((attempts.flatMap Attempt.notes).countP fun e => e.1.sends "GET") ≤ client.config.policy.retries + 1 ∧
      ((attempts.flatMap Attempt.notes).countP fun e => e.1.sends "PUT") ≤ client.config.policy.retries + 1 := by
  have hall : ∀ as : List (Attempt σ), (∀ a ∈ as, a ∈ attempts) →
      ((as.flatMap Attempt.notes).countP fun e => e.1.sends "GET") ≤ as.length ∧
        ((as.flatMap Attempt.notes).countP fun e => e.1.sends "PUT") ≤ as.length := by
    intro as
    induction as with
    | nil => exact fun _ => ⟨Nat.le_refl 0, Nat.le_refl 0⟩
    | cons a as ih =>
      intro has
      obtain ⟨hgets, hputs⟩ := ih fun b hb => has b (List.mem_cons_of_mem a hb)
      have ha := has a List.mem_cons_self
      obtain ⟨hget, hput⟩ := Attempt.countP_le (h.asks a ha) fun x hx => (h.carries a ha x hx).1
      rw [List.flatMap_cons, List.countP_append, List.countP_append, List.length_cons]
      omega
  obtain ⟨hgets, hputs⟩ := hall attempts fun _ ha => ha
  exact ⟨Nat.le_trans hgets h.limit, Nat.le_trans hputs h.limit⟩

/-- Take any reading that nobody else's work on the token comes in between of, with any policy whose condition is the one that policies
have unless they are given another one, whichever token is kept before and however the requests are answered. The notes do not change
how it ends, and in which state. What it does are attempts, at most one more than there are retries, with at most one request for a token
and one for the path each. Every request for the path carries a token that has not expired; a rejected token is followed by another
attempt while a retry is left, and by a new token before the path is asked for again. A request for the path that is served is the last
one, and its text, if it is one, is what comes of the reading; else it ends with the very failure of the last attempt. Only where the
delay of another attempt cannot be computed it ends for want of that. An attempt goes without a request for the path only if it gets no
token, or has no address, or its wait for the lock is broken off. -/
theorem reads_with_fresh_tokens (hc : client.Sound) (hleaves : client.host.Leaves client.slot.get)
    (hcondition : client.config.policy.condition = Retry.isRetryable) (path : String) {env : Nat → Reaction σ}
    (henv : ∀ n s, client.slot.get ((env n).change s) = client.slot.get s) (s : σ) {o : Outcome String} {s' : σ}
    {notes : List (HostNote σ)} (hrun : (client.logged.read path).play (fun n => (env n).beside) (s, []) = (o, s', notes))
    (hrested : Rested notes) :
    (client.read path).play env s = (o, s') ∧ ∃ attempts, notes = attempts.flatMap Attempt.notes ∧
      client.Reads (Reaction.ends env) path attempts o ∧
      (notes.countP fun e => e.1.sends "GET") ≤ client.config.policy.retries + 1 ∧
      (notes.countP fun e => e.1.sends "PUT") ≤ client.config.policy.retries + 1 := by
  have hcomes : (client.logged.read path).ComesTo (Host.besides (Reaction.ends env) client.slot.get)
      (client.Ends (Reaction.ends env) path {} (client.slot.get s) []) (s, []) :=
    comesTo_readFrom hc hleaves client.config.policy.retries {} rfl (s, [])
  have hends := hcomes (fun n => (env n).beside) fun n => ⟨⟨n, rfl⟩, fun s => Prod.ext (henv n s.1) rfl⟩
  obtain ⟨_, hsame⟩ := (read_noting client.host.logged_noting path).play env s []
  change (client.logged.read path).play _ _ = _ at hsame
  rw [hrun] at hends hsame
  obtain ⟨notes', hnotes, hends⟩ := hends
  obtain rfl : notes = notes' := hnotes
  obtain ⟨attempts, hattempts, hcourse⟩ := hends hrested
  have hplain : (client.read path).play env s = (o, s') := by
    simp only [Prod.mk.injEq] at hsame
    exact Prod.ext hsame.1.symm hsame.2.1.symm
  have hreads : client.Reads (Reaction.ends env) path attempts o := hcourse.reads hcondition
  exact ⟨hplain, attempts, hattempts, hreads, hattempts ▸ hreads.countP_le⟩

/-! ## A rehearsal -/

/-- A client for rehearsals with some policy. -/
def rehearsing (policy : RetryPolicy) : MetadataClient Stage :=
  { rehearsed with config := { MetadataConfig.standard with policy } }

/-- The settings of the rehearsing client were checked. -/
theorem rehearsing_sound (policy : RetryPolicy) : (rehearsing policy).Sound where
  settings := ⟨some policy, none, .text "IPv4", MetadataConfig.maxLifetime, none, rfl⟩
  keeps := rehearsed_sound.keeps
  shuns := rehearsed_sound.shuns
  clock := rehearsed_sound.clock

/-- The host of a rehearsal leaves the token alone. -/
theorem rehearsing_leaves (policy : RetryPolicy) : (rehearsing policy).host.Leaves (rehearsing policy).slot.get where
  draws _ _ := rfl
  send := rehearsed_sound.keeps
  sendWithin := ScriptedService.sendWithin_keeps fun _ _ => rfl
  sleep _ := Rehearsal.sleep_keeps fun _ => rfl

/-- What a rehearsal takes place in where no token is kept at first and requests are answered with some statuses and bodies, after some
turns each. -/
def answering (replies : List (Int × Bytes)) (turns : List Nat := []) : Stage :=
  (none, { now := Rehearsal.start
           service := { replies := replies.map fun (status, body) => .response { status, body }, turns } })

/-- A reading in a rehearsal. -/
def rehearsal (policy : RetryPolicy) (replies : List (Int × Bytes)) : Outcome String × Stage × List (HostNote Stage) :=
  ((rehearsing policy).logged.read "/").play (fun _ => Reaction.beside {}) (answering replies, [])

/-- A policy with one retry and no delay in front of it. -/
def atOnce : RetryPolicy := { retries := 1, backoff := (BackoffStrategy.fixed (.whole 0)).rule }

/-- The requests among some notes: the method of each, and the token that it carries. -/
def carriedIn (notes : List (HostNote σ)) : List (String × Option String) :=
  notes.filterMap fun e =>
    match e.1 with
    | .sent request => some (request.method, request.header? tokenHeader)
    | _ => none

/-- Whether nothing among some notes is a sleep. -/
def wakeful (notes : List (HostNote σ)) : Bool :=
  notes.all fun e =>
    match e.1 with
    | .slept _ _ => false
    | _ => true

/-- Where nothing is a sleep, all sleeps come to their ends. -/
theorem rested_of_wakeful {notes : List (HostNote σ)} (h : wakeful notes = true) : Rested notes := by
  intro delay o hmem
  obtain ⟨e, he, hevent⟩ := List.mem_map.1 hmem
  have hwake := List.all_eq_true.1 h e he
  rw [hevent] at hwake
  cases hwake

/-- The first token is rejected, the second one is not. -/
def rejectedOnce : List (Int × Bytes) := [(200, [116]), (401, []), (200, [117]), (200, [100])]

/-- A reading asks for another token after the first one was rejected, and is served with that. -/
theorem reads_with_fresh_tokens_renewed :
    let run := rehearsal atOnce rejectedOnce
    (rehearsing atOnce).Sound ∧ run.1 = .value "d" ∧
      carriedIn run.2.2 = [("PUT", none), ("GET", some "t"), ("PUT", none), ("GET", some "u")] ∧
      ∃ attempts, run.2.2 = attempts.flatMap Attempt.notes ∧
        (rehearsing atOnce).Reads (Reaction.ends fun _ => ({} : Reaction Stage)) "/" attempts run.1 := by
  intro run
  have hvalue : run.1 = .value "d" := by rfl
  have hcarried : carriedIn run.2.2 = [("PUT", none), ("GET", some "t"), ("PUT", none), ("GET", some "u")] := by rfl
  have hwakeful : wakeful run.2.2 = true := by rfl
  have hrun : ((rehearsing atOnce).logged.read "/").play (fun _ => Reaction.beside {}) (answering rejectedOnce, []) =
      (run.1, run.2.1, run.2.2) := rfl
  obtain ⟨-, attempts, hattempts, hreads, -⟩ := reads_with_fresh_tokens (rehearsing_sound atOnce) (rehearsing_leaves atOnce) rfl "/"
    (fun _ _ => rfl) (answering rejectedOnce) hrun (rested_of_wakeful hwakeful)
  exact ⟨rehearsing_sound atOnce, hvalue, hcarried, attempts, hattempts, hreads⟩

/-- A policy with two retries whose delays cannot be computed: in milliseconds its base, `2 ^ 1023` seconds, is beyond all finite
numbers. -/
def boundless : RetryPolicy :=
  { retries := 2, backoff := (BackoffStrategy.exponential .full (.real (.finite false (2 ^ 52) 971)) (.whole 20) 1).rule }

/-- The path is served, but with a body that is no text. -/
def servedBytes : List (Int × Bytes) := [(200, [116]), (200, [255])]

/-- The method of the request that is answered last, and the status of its answer, if nothing is noted after that. -/
def lastAnswer? (notes : List (HostNote σ)) : Option (String × Int) :=
  notes.getLast?.bind fun e =>
    match e.1 with
    | .answered request (.value r) => some (request.method, r.status)
    | _ => none

/-- The last of some notes is that of the answer with this method and status. -/
theorem exists_of_lastAnswer? {notes : List (HostNote σ)} {method : String} {status : Int}
    (h : lastAnswer? notes = some (method, status)) :
    ∃ before request r, notes.map Prod.fst = before ++ [HostEvent.answered request (.value r)] ∧ request.method = method ∧
      r.status = status := by
  obtain ⟨⟨event, s⟩, hlast, hevent⟩ := Option.bind_eq_some_iff.1 h
  obtain ⟨before, rfl⟩ := List.getLast?_eq_some_iff.1 hlast
  match event, hevent with
  | .answered request (.value r), hevent =>
    obtain ⟨rfl, rfl⟩ := Prod.mk.inj (Option.some.inj hevent)
    exact ⟨before.map Prod.fst, request, r, by simp, rfl, rfl⟩

/-- Two things do not hold of all readings: that there is a text wherever the path is served, and that something follows a rejected token
wherever no more requests were made than there are retries. -/
theorem reads_with_fresh_tokens_always_false :
    (¬∀ (policy : RetryPolicy) (replies : List (Int × Bytes)), policy.condition = Retry.isRetryable →
      ∀ (before after : List HostEvent) request r,
        (rehearsal policy replies).2.2.map Prod.fst = before ++ .answered request (.value r) :: after →
        request.method = "GET" → r.status = 200 → ∃ text, (rehearsal policy replies).1 = .value text) ∧
    ¬∀ (policy : RetryPolicy) (replies : List (Int × Bytes)), policy.condition = Retry.isRetryable →
      ∀ (before after : List HostEvent) request r,
        (rehearsal policy replies).2.2.map Prod.fst = before ++ .answered request (.value r) :: after →
        request.method = "GET" → r.status = 401 → (carriedIn (rehearsal policy replies).2.2).length ≤ policy.retries → after ≠ [] := by
  refine ⟨fun h => ?_, fun h => ?_⟩
  · have hlast : lastAnswer? (rehearsal atOnce servedBytes).2.2 = some ("GET", 200) := by decide +kernel
    have hfailed : ∃ f, (rehearsal atOnce servedBytes).1 = .failed f := ⟨_, rfl⟩
    obtain ⟨before, request, r, hevents, hmethod, hstatus⟩ := exists_of_lastAnswer? hlast
    obtain ⟨text, htext⟩ := h atOnce servedBytes rfl before [] request r hevents hmethod hstatus
    obtain ⟨f, hf⟩ := hfailed
    rw [htext] at hf
    cases hf
  · have hlast : lastAnswer? (rehearsal boundless rejectedOnce).2.2 = some ("GET", 401) := by decide +kernel
    have hlength : (carriedIn (rehearsal boundless rejectedOnce).2.2).length ≤ boundless.retries := by decide +kernel
    obtain ⟨before, request, r, hevents, hmethod, hstatus⟩ := exists_of_lastAnswer? hlast
    exact h boundless rejectedOnce rfl before [] request r hevents hmethod hstatus hlength rfl

end SignedCall.MetadataClient
