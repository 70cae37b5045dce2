import SignedCall.Proofs.Sender.Notes
import SignedCall.Proofs.Task.Play

/-!
# The course of a call

A call makes attempts one after the other. `Course` says what it may note from a round on, and how it then ends: which failures are
followed by another attempt and after which sleep, which end the call and with which note, and what ends it at once. Every call runs
such a course, whatever it meets, and comes to its end after at most one attempt more than there are retries (`send_course`).
-/

namespace SignedCall

/-- Whether a note tells that there is an identity, which a request is then signed for. -/
def SendNote.signs {σ : Type} : SendNote σ → Bool
  | .identified (.value _) _ => true
  | _ => false

/-- Whether a note tells that a request was sent. -/
def SendNote.sends {σ : Type} : SendNote σ → Bool
  | .sent _ _ => true
  | _ => false

/-- One attempt: the identity, the state in which the request was signed, and what came back in which state if it was sent. -/
structure Attempt (σ : Type) where
  identity : Identity
  signing : σ
  answer : Outcome Response
  answering : σ

/-- Whether the delay rules of a policy give a delay for everything. -/
def RetryPolicy.Delays (policy : RetryPolicy) : Prop :=
  ∀ c draws, (∃ d, policy.backoff c draws = .ok d) ∧ ∃ d, policy.throttlingBackoff c draws = .ok d

/-- A policy whose rules give delays gives one for every failed attempt. -/
theorem RetryPolicy.Delays.delay {policy : RetryPolicy} (h : policy.Delays) (c : RetryContext) (draws : Draws) :
    ∃ delay draws', policy.delay c draws = .ok (delay, draws') := by
  unfold RetryPolicy.delay
  split
  · exact ⟨_, _, rfl⟩
  · split
    · exact Prod.exists.1 (h c draws).2
    · exact Prod.exists.1 (h c draws).1

/-- The delay that a policy gives after a failed attempt, and the draws that are left. -/
inductive RetryPolicy.Gives (policy : RetryPolicy) (c : RetryContext) (draws : Draws) : Binary64 → Draws → Prop
  /-- The failure asks for a delay. -/
  | asked {f : Failure} {x : Binary64} : c.failure = some f → f.info.retryAfter = some (some x) → Gives policy c draws x draws
  /-- The failure asks for none, and is one of throttling. -/
  | throttled {x : Binary64} {draws' : Draws} : (∀ f y, c.failure = some f → f.info.retryAfter ≠ some (some y)) →
      Retry.isThrottling c.failure c.statusCode = true → policy.throttlingBackoff c draws = .ok (x, draws') →
      Gives policy c draws x draws'
  /-- The failure asks for none, and is of another kind. -/
  | regular {x : Binary64} {draws' : Draws} : (∀ f y, c.failure = some f → f.info.retryAfter ≠ some (some y)) →
      Retry.isThrottling c.failure c.statusCode = false → policy.backoff c draws = .ok (x, draws') → Gives policy c draws x draws'

/-- A policy computes the delay that it is said to give. -/
theorem RetryPolicy.gives_iff {policy : RetryPolicy} {c : RetryContext} {draws draws' : Draws} {x : Binary64} :
    policy.Gives c draws x draws' ↔ policy.delay c draws = .ok (x, draws') := by
  unfold RetryPolicy.delay
  constructor
  · intro h
    cases h with
    | asked hf hx => simp [hf, hx]
    | throttled hnone hthrottling hx =>
      split
      · next y hy =>
        obtain ⟨f, hf, hy⟩ := Option.bind_eq_some_iff.1 hy
        exact absurd hy (hnone f y hf)
      · rw [if_pos hthrottling, hx]
    | regular hnone hthrottling hx =>
      split
      · next y hy =>
        obtain ⟨f, hf, hy⟩ := Option.bind_eq_some_iff.1 hy
        exact absurd hy (hnone f y hf)
      · rw [if_neg (by simp [hthrottling]), hx]
  · intro h
    split at h
    · next y hy =>
      obtain ⟨f, hf, hy⟩ := Option.bind_eq_some_iff.1 hy
      cases h
      exact .asked hf hy
    · next hnone =>
      have hnone : ∀ f y, c.failure = some f → f.info.retryAfter ≠ some (some y) :=
        fun f y hf hy => hnone y (Option.bind_eq_some_iff.2 ⟨f, hf, hy⟩)
      split at h
      · next hthrottling => exact .throttled hnone hthrottling h
      · next hthrottling => exact .regular hnone (by simpa using hthrottling) h

namespace Sender

variable {σ : Type} {sender : Sender σ} {request : Request} {properties : Properties}

/-- What an answer amounts to: a response below the first error status, or a failure. -/
def judged : Outcome Response → Outcome Response
  | .value r => match check r with | .ok r => .value r | .error f => .failed f
  | o => o

/-- What is noted of an attempt. A request that cannot be signed is not sent. -/
def attemptNotes (sender : Sender σ) (request : Request) (a : Attempt σ) : List (SendNote σ) :=
  .identified (.value a.identity) a.signing ::
    match sender.sign request a.identity a.signing with
    | .ok signed => [.sent signed a.signing, .answered a.answer a.answering]
    | .error _ => []

/-- What an attempt gives. -/
def result (sender : Sender σ) (request : Request) (a : Attempt σ) : Outcome Response :=
  match sender.sign request a.identity a.signing with
  | .ok _ => judged a.answer
  | .error f => .failed f

/-- What an answer amounts to. -/
inductive Amounts : Outcome Response → Outcome Response → Prop
  /-- A response below status 300 is what was asked for. -/
  | accepted {r : Response} : r.status < 300 → Amounts (.value r) (.value r)
  /-- Any other response stands for the failure that it tells. -/
  | refused {r : Response} {f : Failure} : 300 ≤ r.status → ServiceReply.failure r = .ok f → Amounts (.value r) (.failed f)
  /-- The response tells no failure, as its date overflows. -/
  | overflowed {r : Response} {f : Failure} : 300 ≤ r.status → ServiceReply.failure r = .error f → Amounts (.value r) (.failed f)
  /-- There is no response. -/
  | passed {o o' : Outcome Response} : o.Passes o' → Amounts o o'

/-- What comes of an attempt. -/
inductive Comes (sender : Sender σ) (request : Request) (a : Attempt σ) : Outcome Response → Prop
  /-- The request cannot be signed, and is not sent. -/
  | unsigned {f : Failure} : sender.sign request a.identity a.signing = .error f → Comes sender request a (.failed f)
  /-- The signed request is sent and answered. -/
  | answered {signed : Request} {o : Outcome Response} :
      sender.sign request a.identity a.signing = .ok signed → Amounts a.answer o → Comes sender request a o

/-- A failure with one more note, on the number of attempts. -/
def givenUp (f : Failure) (attempts : Nat) : Failure :=
  { f with notes := f.notes ++ ["Request failed after " ++ toString attempts ++ " attempt(s)."] }

/-- What is noted of the sleep before an attempt. There is none if the delay is zero. -/
def sleepNotes (delay : Binary64) : List (SendNote σ) := if delay.isZero then [] else [.slept delay (.value ())]

/-- What a call notes, and how it ends, from the attempt on that comes after `k` retries and a delay. -/
inductive Course (sender : Sender σ) (request : Request) : Nat → Binary64 → List (SendNote σ) → Outcome Response → Prop
  /-- The sleep does not come to its end. -/
  | awakened {k : Nat} {delay : Binary64} {o : Outcome Unit} {o' : Outcome Response} :
      delay.isZero = false → o.Passes o' → Course sender request k delay [.slept delay o] o'
  /-- There is no identity. -/
  | unidentified {k : Nat} {delay : Binary64} {o : Outcome Identity} {o' : Outcome Response} (s : σ) :
      o.Passes o' → Course sender request k delay (sleepNotes delay ++ [.identified o s]) o'
  /-- The attempt is given up from outside. -/
  | cancelled {k : Nat} {delay : Binary64} {a : Attempt σ} :
      sender.Comes request a .cancelled → Course sender request k delay (sleepNotes delay ++ sender.attemptNotes request a) .cancelled
  /-- There is a response below status 300. -/
  | returned {k : Nat} {delay : Binary64} {a : Attempt σ} {r : Response} :
      sender.Comes request a (.value r) →
      Course sender request k delay (sleepNotes delay ++ sender.attemptNotes request a) (.value r)
  /-- The attempt fails, and that is not worth another one or no retry is left. The call ends with the failure and one more note. -/
  | gaveUp {k : Nat} {delay : Binary64} {a : Attempt σ} {f : Failure} :
      sender.Comes request a (.failed f) →
      ¬(k < sender.policy.retries ∧ sender.policy.condition { retries := k, failure := some f } = true) →
      Course sender request k delay (sleepNotes delay ++ sender.attemptNotes request a) (.failed (givenUp f (k + 1)))
  /-- The attempt fails, and another one follows after the delay that the policy gives for the failure. -/
  | retried {k : Nat} {delay delay' : Binary64} {a : Attempt σ} {f : Failure} {draws draws' : Draws} {notes : List (SendNote σ)}
      {o : Outcome Response} :
      sender.Comes request a (.failed f) → k < sender.policy.retries →
      sender.policy.condition { retries := k, failure := some f } = true →
      sender.policy.Gives { retries := k, failure := some f } draws delay' draws' →
      Course sender request (k + 1) delay' notes o →
      Course sender request k delay (sleepNotes delay ++ sender.attemptNotes request a ++ notes) o

/-- Whether the server times that answers carry are in the calendar as universal time. -/
def Timely (notes : List (SendNote σ)) : Prop :=
  ∀ o s f t, .answered o s ∈ notes → Amounts o (.failed f) → f.info.serverTime = some t → t.utc? ≠ none

/-! ## What comes of an attempt -/

variable {a : Attempt σ}

/-- An answer is judged by what it amounts to. -/
theorem amounts_iff {o o' : Outcome Response} : Amounts o o' ↔ judged o = o' := by
  cases o with
  | failed f => exact ⟨fun | .passed h => h.eq_failed.symm, fun h => h ▸ .passed (.failed f)⟩
  | cancelled => exact ⟨fun | .passed .cancelled => rfl, fun h => h ▸ .passed .cancelled⟩
  | value r =>
    by_cases hstatus : firstErrorStatus ≤ r.status
    · have hjudged : ∀ {f}, ServiceReply.failure r = .ok f ∨ ServiceReply.failure r = .error f → judged (.value r) = .failed f := by
        rintro f (hf | hf) <;> simp only [judged, check, if_pos hstatus, hf]
      constructor
      · rintro (haccepted | ⟨-, hf⟩ | ⟨-, hf⟩ | hpasses)
        · exact absurd hstatus (Int.not_le.2 haccepted)
        · exact hjudged (.inl hf)
        · exact hjudged (.inr hf)
        · cases hpasses
      · rintro rfl
        cases hf : ServiceReply.failure r with
        | ok f => exact hjudged (.inl hf) ▸ .refused hstatus hf
        | error f => exact hjudged (.inr hf) ▸ .overflowed hstatus hf
    · have hjudged : judged (.value r) = .value r := by simp only [judged, check, if_neg hstatus]
      rw [hjudged]
      constructor
      · rintro (haccepted | ⟨hrefused, -⟩ | ⟨hrefused, -⟩ | hpasses)
        · rfl
        · exact absurd hrefused hstatus
        · exact absurd hrefused hstatus
        · cases hpasses
      · rintro rfl
        exact .accepted (Int.not_le.1 hstatus)

/-- An attempt gives what comes of it. -/
theorem comes_iff {o : Outcome Response} : sender.Comes request a o ↔ sender.result request a = o := by
  unfold result
  constructor
  · rintro (hf | ⟨hsigned, ho⟩)
    · rw [hf]
    · rw [hsigned]
      exact amounts_iff.1 ho
  · intro h
    cases hsign : sender.sign request a.identity a.signing with
    | error f =>
      rw [hsign] at h
      exact h ▸ .unsigned hsign
    | ok signed =>
      rw [hsign] at h
      exact .answered hsign (amounts_iff.2 h)

/-- An answer amounts to a response exactly if it is that response and its status is below 300. -/
theorem Amounts.eq_value_iff {o o' : Outcome Response} (h : Amounts o o') (r : Response) :
    o' = .value r ↔ r.status < 300 ∧ o = .value r := by
  cases h with
  | accepted hstatus =>
    constructor
    · intro hr
      exact ⟨Outcome.value.inj hr ▸ hstatus, hr⟩
    · exact fun h => h.2
  | refused hstatus _ =>
    refine ⟨nofun, fun ⟨hlow, hr⟩ => ?_⟩
    rw [Outcome.value.inj hr] at hstatus
    omega
  | overflowed hstatus _ =>
    refine ⟨nofun, fun ⟨hlow, hr⟩ => ?_⟩
    rw [Outcome.value.inj hr] at hstatus
    omega
  | passed hpasses => exact ⟨fun hr => absurd hr (hpasses.ne_value r), fun h => absurd h.2 (hpasses.value_ne r)⟩

/-- Signing fails without a time of the service. -/
theorem sign_serverTime {i : Identity} {s : σ} {f : Failure} (h : sender.sign request i s = .error f) : f.info.serverTime = none := by
  unfold sign at h
  cases hsign : QuerySigner.sign (sender.host.now s) (sender.offset.get s) i request with
  | ok signed =>
    rw [hsign] at h
    cases h
  | error fault =>
    rw [hsign] at h
    obtain rfl := Except.error.inj h
    cases fault <;> rfl

/-- A failed attempt whose server time is out of the calendar does not occur among timely notes. -/
theorem Timely.utc {notes : List (SendNote σ)} (h : Timely notes)
    (hmem : ∀ e ∈ sender.attemptNotes request a, e ∈ notes) {f : Failure} (hf : sender.result request a = .failed f)
    {t : DateTime} (ht : f.info.serverTime = some t) : t.utc? ≠ none := by
  cases comes_iff.2 hf with
  | answered hsign hanswer => exact h _ a.answering f t (hmem _ (by simp [attemptNotes, hsign])) hanswer ht
  | unsigned hsign =>
    rw [sign_serverTime hsign] at ht
    cases ht

/-! ## The parts of a round -/

/-- Nobody else makes notes. -/
def undisturbed (σ : Type) : Conduct (σ × List (SendNote σ)) where
  turn _ _ := True
  others s s' := s'.2 = s.2

/-- What leaves the journal alone and notes how it ended adds that one note. -/
theorem turns_reported {α : Type} (p : Program σ α) (e : Outcome α → σ → SendNote σ) {s₀ s : σ × List (SendNote σ)} :
    (p.beside.reported e).Turns (undisturbed σ) (fun o _ s' => s'.2 = s.2 ++ [e o s'.1]) s₀ s := by
  have hp : p.beside.Turns (undisturbed σ) (fun _ _ s' => s'.2 = s.2) s₀ s :=
    Program.Turns.of_keeps (K := fun _ js => js = s.2) (Program.beside_keeps p)
      (fun _ s₁ s₂ h (h' : s₂.2 = s₁.2) => h'.trans h) (fun _ _ _ => trivial) (fun _ _ => trivial) (fun _ _ _ h => h) rfl
  refine hp.andThen fun o _ s' hs' => ?_
  simp [Program.Turns, inscribe, hs']

/-- A request that is sent adds the notes that it was sent and what came back. -/
theorem turns_send (signed : Request) {s₀ s : σ × List (SendNote σ)} :
    ((sender.noted id).host.send signed).Turns (undisturbed σ)
      (fun o _ s' => s'.2 = s.2 ++ [.sent signed s.1, .answered o s'.1]) s₀ s := by
  refine (turns_reported (sender.host.send signed) .answered (s := inscribe (.sent signed) s)).mono fun o _ s' hs' => ?_
  simpa [inscribe] using hs'

/-- An attempt that follows the question for the identity. -/
theorem turns_attempt {i : Identity} {js : List (SendNote σ)} {s₀ s : σ × List (SendNote σ)}
    (hs : s.2 = js ++ [.identified (.value i) s.1]) :
    ((sender.noted id).attempt request i).Turns (undisturbed σ)
      (fun o _ s' => ∃ a, s'.2 = js ++ sender.attemptNotes request a ∧ o = sender.result request a) s₀ s := by
  refine Program.turns_read ?_
  change (Program.ofExcept (sender.sign request i s.1) >>= fun signed =>
    (sender.noted id).host.send signed >>= fun r => Program.ofExcept (check r)).Turns (undisturbed σ) _ s₀ s
  cases hsign : sender.sign request i s.1 with
  | error f => exact ⟨⟨i, s.1, .failed f, s.1⟩, by simp [attemptNotes, hsign, hs], by simp [result, hsign]⟩
  | ok signed =>
    refine (turns_send signed).andThen fun o _ s' hs' => ?_
    have hnotes : s'.2 = js ++ sender.attemptNotes request ⟨i, s.1, o, s'.1⟩ := by simp [attemptNotes, hsign, hs', hs]
    have hresult : sender.result request ⟨i, s.1, o, s'.1⟩ = judged o := by simp [result, hsign]
    cases o with
    | failed f => exact ⟨_, hnotes, hresult.symm⟩
    | cancelled => exact ⟨_, hnotes, hresult.symm⟩
    | value r =>
      change (Program.ofExcept (check r)).Turns (undisturbed σ) _ _ s'
      cases hcheck : check r with
      | ok r' => exact ⟨_, hnotes, by simp [hresult, judged, hcheck]⟩
      | error f => exact ⟨_, hnotes, by simp [hresult, judged, hcheck]⟩

/-- Taking over the clock of the service fails only for a time that is out of the calendar. -/
theorem turns_correctOffset (f : Failure) {s₀ s : σ × List (SendNote σ)} :
    ((sender.noted id).correctOffset f).Turns (undisturbed σ)
      (fun o _ s' => s'.2 = s.2 ∧ (o = .value () ∨ ∃ t, f.info.serverTime = some t ∧ t.utc? = none)) s₀ s := by
  unfold correctOffset
  split
  · exact ⟨rfl, Or.inl rfl⟩
  · next t ht =>
    split
    · next hutc => exact ⟨rfl, Or.inr ⟨t, ht, hutc⟩⟩
    · exact ⟨rfl, Or.inl rfl⟩

/-- How a call may end from an attempt on, if it noted `js` before. -/
def Ends (sender : Sender σ) (request : Request) (js : List (SendNote σ)) (token : RetryToken) (o : Outcome Response)
    (_ s : σ × List (SendNote σ)) : Prop :=
  Timely s.2 → ∃ notes, s.2 = js ++ notes ∧ Course sender request token.retries token.delay notes o

/-- What may follow a failed attempt: nothing if no retry is left, else an attempt with one more retry behind it. -/
structure Continues (sender : Sender σ) (request : Request) (token : RetryToken)
    (again : Option (RetryToken → Program (σ × List (SendNote σ)) Response)) : Prop where
  exhausted : again = none → sender.policy.retries ≤ token.retries
  ends : ∀ next, again = some next → ∀ token' js s₀ s, token'.retries = token.retries + 1 → s.2 = js →
    (next token').Turns (undisturbed σ) (sender.Ends request js token') s₀ s

/-- A failed attempt is followed by another one or ends the call, as the policy says. -/
theorem turns_tryAgain (hdelays : sender.policy.Delays) {token : RetryToken}
    {again : Option (RetryToken → Program (σ × List (SendNote σ)) Response)} (hagain : sender.Continues request token again)
    {js : List (SendNote σ)} {a : Attempt σ} {f : Failure} (hf : sender.result request a = .failed f)
    {s₀ s : σ × List (SendNote σ)} (hs : s.2 = js ++ (sleepNotes token.delay ++ sender.attemptNotes request a)) :
    ((sender.noted id).tryAgain again token f).Turns (undisturbed σ) (sender.Ends request js token) s₀ s := by
  refine Program.turns_read ?_
  have hpolicy : (sender.noted id).policy = sender.policy := rfl
  rw [hpolicy]
  generalize (sender.noted id).host.draws.get s = draws
  by_cases hretry : sender.policy.shouldRetry { retries := token.retries, failure := some f }
  · obtain ⟨hlt, hcondition⟩ : token.retries < sender.policy.retries ∧
        sender.policy.condition { retries := token.retries, failure := some f } = true := by
      simpa [RetryPolicy.shouldRetry] using hretry
    obtain ⟨delay', draws', hdelay⟩ := hdelays.delay { retries := token.retries, failure := some f } draws
    have hrenew : sender.policy.renew token (some f) draws = .ok ({ retries := token.retries + 1, delay := delay' }, draws') := by
      simp [RetryPolicy.renew, hretry, hdelay]
    rw [hrenew]
    cases again with
    | none => exact absurd (hagain.exhausted rfl) (Nat.not_le.2 hlt)
    | some next =>
      refine (hagain.ends next rfl _ _ s₀ _ rfl rfl).mono fun o _ s' hends htimely => ?_
      obtain ⟨notes, hnotes, hcourse⟩ := hends htimely
      refine ⟨sleepNotes token.delay ++ sender.attemptNotes request a ++ notes, ?_,
        .retried (comes_iff.2 hf) hlt hcondition (RetryPolicy.gives_iff.2 hdelay) hcourse⟩
      have hput : (Slot.set (sender.noted id).host.draws draws' s).2 = s.2 := rfl
      rw [hnotes, hput, hs]
      simp
  · have hrenew : sender.policy.renew token (some f) draws = .error (.exhausted token.attempts (some f)) := by
      simp [RetryPolicy.renew, hretry]
    rw [hrenew]
    refine fun _ => ⟨_, hs, .gaveUp (comes_iff.2 hf) fun hmore => hretry ?_⟩
    simpa [RetryPolicy.shouldRetry] using hmore

/-- After a failed attempt a call goes on, or ends as its policy says. -/
theorem turns_afterFailure (hdelays : sender.policy.Delays) {token : RetryToken}
    {again : Option (RetryToken → Program (σ × List (SendNote σ)) Response)} (hagain : sender.Continues request token again)
    {js : List (SendNote σ)} {a : Attempt σ} {f : Failure} (hf : sender.result request a = .failed f)
    {s₀ s : σ × List (SendNote σ)} (hs : s.2 = js ++ (sleepNotes token.delay ++ sender.attemptNotes request a)) :
    ((sender.noted id).afterFailure again token f).Turns (undisturbed σ) (sender.Ends request js token) s₀ s := by
  unfold afterFailure
  split
  · refine (turns_correctOffset f).andThen fun o s₀ s' hs' => ?_
    obtain ⟨hnotes, rfl | ⟨t, ht, hutc⟩⟩ := hs'
    · exact turns_tryAgain hdelays hagain hf (hnotes.trans hs)
    · have hlate : ¬Timely s'.2 := by
        refine fun htimely => htimely.utc (a := a) (fun e he => ?_) hf ht hutc
        rw [hnotes, hs]
        simp [he]
      cases o with
      | value u => exact turns_tryAgain hdelays hagain hf (hnotes.trans hs)
      | failed f => exact fun htimely => absurd htimely hlate
      | cancelled => exact fun htimely => absurd htimely hlate
  · exact turns_tryAgain hdelays hagain hf hs

/-- An attempt whose failure is handed over as a value. -/
theorem turns_attempt_attempt {i : Identity} {js : List (SendNote σ)} {s₀ s : σ × List (SendNote σ)}
    (hs : s.2 = js ++ [.identified (.value i) s.1]) :
    ((sender.noted id).attempt request i).attempt.Turns (undisturbed σ)
      (fun o _ s' => ∃ a, s'.2 = js ++ sender.attemptNotes request a ∧
        ((∃ r, o = .value (.ok r) ∧ sender.result request a = .value r) ∨
          (∃ f, o = .value (.error f) ∧ sender.result request a = .failed f) ∨
          (o = .cancelled ∧ sender.result request a = .cancelled))) s₀ s := by
  refine (turns_attempt hs).andThen fun o s₀ s' hs' => ?_
  obtain ⟨a, hnotes, rfl⟩ := hs'
  cases hresult : sender.result request a with
  | value r => exact ⟨a, hnotes, Or.inl ⟨r, rfl, hresult⟩⟩
  | failed f => exact ⟨a, hnotes, Or.inr (Or.inl ⟨f, rfl, hresult⟩)⟩
  | cancelled => exact ⟨a, hnotes, Or.inr (Or.inr ⟨rfl, hresult⟩)⟩

/-- An attempt with an identity that is asked for anew, and what follows it, run a course. -/
theorem turns_attemptAnew (hdelays : sender.policy.Delays) {token : RetryToken}
    {again : Option (RetryToken → Program (σ × List (SendNote σ)) Response)} (hagain : sender.Continues request token again)
    {js : List (SendNote σ)} {s₀ s : σ × List (SendNote σ)} (hs : s.2 = js ++ sleepNotes token.delay) :
    ((sender.noted id).attemptAnew request properties again token).Turns (undisturbed σ) (sender.Ends request js token) s₀ s := by
  refine (turns_reported (sender.resolver.identity properties) .identified).andThen fun o s₀ s₁ hs₁ => ?_
  rw [hs] at hs₁
  cases o with
  | failed f => exact fun _ => ⟨_, by rw [hs₁, List.append_assoc], .unidentified s₁.1 (.failed f)⟩
  | cancelled => exact fun _ => ⟨_, by rw [hs₁, List.append_assoc], .unidentified s₁.1 .cancelled⟩
  | value i =>
    refine (turns_attempt_attempt hs₁).andThen fun o s₀ s₂ hs₂ => ?_
    obtain ⟨a, hnotes, hend⟩ := hs₂
    rw [List.append_assoc] at hnotes
    rcases hend with ⟨r, rfl, hr⟩ | ⟨f, rfl, hf⟩ | ⟨rfl, hc⟩
    · exact fun _ => ⟨_, hnotes, .returned (comes_iff.2 hr)⟩
    · exact turns_afterFailure hdelays hagain hf hnotes
    · exact fun _ => ⟨_, hnotes, .cancelled (comes_iff.2 hc)⟩

/-- A round is a sleep, an attempt and what follows it. -/
theorem turns_round (hdelays : sender.policy.Delays) {token : RetryToken}
    {again : Option (RetryToken → Program (σ × List (SendNote σ)) Response)} (hagain : sender.Continues request token again)
    {js : List (SendNote σ)} {s₀ s : σ × List (SendNote σ)} (hs : s.2 = js) :
    ((sender.noted id).round request properties again token).Turns (undisturbed σ) (sender.Ends request js token) s₀ s := by
  change (if token.delay.isZero then _ else _ : Program (σ × List (SendNote σ)) Response).Turns (undisturbed σ) _ s₀ s
  split
  · next hzero => exact turns_attemptAnew hdelays hagain (by simp [sleepNotes, hzero, hs])
  · next hzero =>
    have hslept : token.delay.isZero = false := by simpa using hzero
    refine (turns_reported (sender.host.sleep token.delay) fun o _ => .slept token.delay o).andThen fun o s₀ s₁ hs₁ => ?_
    rw [hs] at hs₁
    cases o with
    | failed f => exact fun _ => ⟨_, hs₁, .awakened hslept (.failed f)⟩
    | cancelled => exact fun _ => ⟨_, hs₁, .awakened hslept .cancelled⟩
    | value u => exact turns_attemptAnew hdelays hagain (by simp [sleepNotes, hslept, hs₁])

/-- The number of retries left and the number of retries made add up to the limit, so that the recursion never cuts a call short. -/
theorem turns_sendFrom (hdelays : sender.policy.Delays) (left : Nat) {token : RetryToken}
    (hleft : left + token.retries = sender.policy.retries) {js : List (SendNote σ)} {s₀ s : σ × List (SendNote σ)} (hs : s.2 = js) :
    ((sender.noted id).sendFrom request properties left token).Turns (undisturbed σ) (sender.Ends request js token) s₀ s := by
  induction left generalizing token js s₀ s with
  | zero =>
    have hlast : sender.Continues request token none := by
      refine ⟨fun _ => by omega, fun next hnext => ?_⟩
      cases hnext
    exact turns_round hdelays hlast hs
  | succ left ih =>
    have hmore : sender.Continues request token (some ((sender.noted id).sendFrom request properties left)) := by
      refine ⟨fun hnone => ?_, fun next hnext token' js s₀ s htoken hs => ?_⟩
      · cases hnone
      · obtain rfl := Option.some.inj hnext
        exact ih (by omega) hs
    exact turns_round hdelays hmore hs

/-! ## Whole calls -/

/-- The note of a sleep is none of a signature and none of a request. -/
theorem countP_sleepNotes (delay : Binary64) :
    (sleepNotes delay : List (SendNote σ)).countP SendNote.signs = 0 ∧
      (sleepNotes delay : List (SendNote σ)).countP SendNote.sends = 0 := by
  unfold sleepNotes
  split <;> exact ⟨rfl, rfl⟩

/-- A round signs once and sends at most once. -/
theorem countP_round (sender : Sender σ) (request : Request) (delay : Binary64) (a : Attempt σ) :
    (sleepNotes delay ++ sender.attemptNotes request a).countP SendNote.signs = 1 ∧
      (sleepNotes delay ++ sender.attemptNotes request a).countP SendNote.sends ≤ 1 := by
  obtain ⟨hsigns, hsends⟩ := countP_sleepNotes (σ := σ) delay
  rw [List.countP_append, List.countP_append, hsigns, hsends]
  unfold attemptNotes
  split
  · exact ⟨rfl, Nat.le_refl 1⟩
  · exact ⟨rfl, Nat.zero_le 1⟩

/-- A call signs and sends at most once more than there are retries left. -/
theorem Course.countP_le {k : Nat} {delay : Binary64} {notes : List (SendNote σ)} {o : Outcome Response}
    (h : Course sender request k delay notes o) (hk : k ≤ sender.policy.retries) :
    notes.countP SendNote.signs + k ≤ sender.policy.retries + 1 ∧ notes.countP SendNote.sends + k ≤ sender.policy.retries + 1 := by
  have hround : ∀ k delay (a : Attempt σ), k ≤ sender.policy.retries →
      (sleepNotes delay ++ sender.attemptNotes request a).countP SendNote.signs + k ≤ sender.policy.retries + 1 ∧
        (sleepNotes delay ++ sender.attemptNotes request a).countP SendNote.sends + k ≤ sender.policy.retries + 1 := by
    intro k delay a hk
    obtain ⟨hsigns, hsends⟩ := countP_round sender request delay a
    omega
  induction h with
  | awakened _ _ => exact ⟨by simp [SendNote.signs]; omega, by simp [SendNote.sends]; omega⟩
  | @unidentified k delay o o' s ho =>
    obtain ⟨hsigns, hsends⟩ := countP_sleepNotes (σ := σ) delay
    rw [List.countP_append, List.countP_append, hsigns, hsends]
    cases ho <;> exact ⟨by simp [SendNote.signs]; omega, by simp [SendNote.sends]; omega⟩
  | cancelled _ => exact hround _ _ _ hk
  | returned _ => exact hround _ _ _ hk
  | gaveUp _ _ => exact hround _ _ _ hk
  | @retried k delay delay' a f draws draws' notes o _ hlt _ _ _ ih =>
    obtain ⟨hsigns, hsends⟩ := countP_round sender request delay a
    obtain ⟨hsigns', hsends'⟩ := ih hlt
    simp only [List.countP_append] at hsigns hsends ⊢
    omega

/-- Nothing is answered in a sleep. -/
theorem answered_not_mem_sleepNotes (delay : Binary64) (o : Outcome Response) (s : σ) : SendNote.answered o s ∉ sleepNotes delay := by
  unfold sleepNotes
  split <;> simp

/-- The answer among the notes of a round is that to the request that the round signed. -/
theorem answered_mem_iff {delay : Binary64} {a : Attempt σ} {o : Outcome Response} {s : σ} :
    SendNote.answered o s ∈ sleepNotes delay ++ sender.attemptNotes request a ↔
      (∃ signed, sender.sign request a.identity a.signing = .ok signed) ∧ o = a.answer ∧ s = a.answering := by
  rw [List.mem_append, or_iff_right (answered_not_mem_sleepNotes delay o s)]
  cases hsign : sender.sign request a.identity a.signing <;> simp [attemptNotes, hsign]

/-- What comes of an attempt is a response exactly if that response is among the notes of the round and its status is below 300. -/
theorem Comes.eq_value_iff {a : Attempt σ} {o : Outcome Response} (h : sender.Comes request a o) (delay : Binary64) (r : Response) :
    o = .value r ↔ r.status < 300 ∧ ∃ s, SendNote.answered (.value r) s ∈ sleepNotes delay ++ sender.attemptNotes request a := by
  simp only [answered_mem_iff]
  cases h with
  | unsigned hf =>
    refine ⟨nofun, fun ⟨_, _, ⟨signed, hsigned⟩, _⟩ => ?_⟩
    rw [hf] at hsigned
    cases hsigned
  | answered hsigned ho =>
    rw [ho.eq_value_iff]
    constructor
    · rintro ⟨hstatus, hr⟩
      exact ⟨hstatus, a.answering, ⟨_, hsigned⟩, hr.symm, rfl⟩
    · rintro ⟨hstatus, s, -, hr, -⟩
      exact ⟨hstatus, hr.symm⟩

/-- A call ends with a response exactly if that response came back and its status is below 300. -/
theorem Course.eq_value_iff {k : Nat} {delay : Binary64} {notes : List (SendNote σ)} {o : Outcome Response}
    (h : Course sender request k delay notes o) (r : Response) :
    o = .value r ↔ r.status < 300 ∧ ∃ s, SendNote.answered (.value r) s ∈ notes := by
  induction h with
  | awakened _ ho => exact ⟨fun hr => absurd hr (ho.ne_value r), fun ⟨_, s, hmem⟩ => by simp at hmem⟩
  | unidentified s ho =>
    refine ⟨fun hr => absurd hr (ho.ne_value r), fun ⟨_, s, hmem⟩ => ?_⟩
    rcases List.mem_append.1 hmem with hmem | hmem
    · exact absurd hmem (answered_not_mem_sleepNotes _ _ s)
    · simp at hmem
  | cancelled hcomes => exact hcomes.eq_value_iff _ r
  | returned hcomes => exact hcomes.eq_value_iff _ r
  | gaveUp hcomes _ => exact ⟨nofun, fun hr => absurd ((hcomes.eq_value_iff _ r).2 hr) nofun⟩
  | retried hcomes _ _ _ _ ih =>
    -- The response did not come back in the failed attempt, so it is among the notes of those that follow.
    refine ih.trans (and_congr_right fun hstatus => exists_congr fun s => ?_)
    rw [List.mem_append]
    exact (or_iff_right fun hmem => absurd ((hcomes.eq_value_iff _ r).2 ⟨hstatus, s, hmem⟩) nofun).symm

/-- The failure of a sleep or of a question for an identity that comes last. -/
def Breaks (notes : List (SendNote σ)) (f : Failure) : Prop :=
  ∃ js, (∃ delay, notes = js ++ [.slept delay (.failed f)]) ∨ ∃ s, notes = js ++ [.identified (.failed f) s]

/-- A call that fails ends with the failure of a sleep or of a question for an identity, or else with the failure of its last attempt
and a note that counts its attempts. -/
theorem Course.failed {k : Nat} {delay : Binary64} {notes : List (SendNote σ)} {f' : Failure}
    (h : Course sender request k delay notes (.failed f')) :
    Breaks notes f' ∨ ∃ js a f, notes = js ++ sender.attemptNotes request a ∧ sender.Comes request a (.failed f) ∧
      f' = givenUp f (k + notes.countP SendNote.signs) := by
  generalize ho : Outcome.failed f' = o at h
  induction h with
  | @awakened k delay o o' _ hpasses =>
    subst ho
    cases hpasses
    exact Or.inl ⟨[], Or.inl ⟨delay, rfl⟩⟩
  | unidentified s hpasses =>
    subst ho
    cases hpasses
    exact Or.inl ⟨_, Or.inr ⟨s, rfl⟩⟩
  | cancelled _ => cases ho
  | returned _ => cases ho
  | @gaveUp k delay a f hcomes _ =>
    rw [(countP_round sender request delay a).1]
    exact Or.inr ⟨_, a, f, rfl, hcomes, Outcome.failed.inj ho⟩
  | @retried k delay delay' a f draws draws' notes o _ _ _ _ _ ih =>
    rcases ih ho with ⟨js, hlast⟩ | ⟨js, b, g, hnotes, hcomes, hf'⟩
    · refine Or.inl ⟨sleepNotes delay ++ sender.attemptNotes request a ++ js, ?_⟩
      simpa only [List.append_assoc, List.append_cancel_left_eq] using hlast
    · refine Or.inr ⟨sleepNotes delay ++ sender.attemptNotes request a ++ js, b, g, ?_, hcomes, ?_⟩
      · rw [hnotes, List.append_assoc _ js]
      · rw [hf', List.countP_append, (countP_round sender request delay a).1, Nat.add_assoc]

/-- A call that is played runs its course, if the answers are timely. -/
theorem course_of_play (hdelays : sender.policy.Delays) {env : Nat → Reaction σ} {s : σ} {o : Outcome Response} {s' : σ}
    {notes : List (SendNote σ)}
    (hrun : ((sender.noted id).send request properties).play (fun n => (env n).beside) (s, []) = (o, s', notes))
    (htimely : Timely notes) : Course sender request 0 (Binary64.zero false) notes o := by
  have hturns : ((sender.noted id).send request properties).Turns (undisturbed σ) (sender.Ends request [] {}) (s, []) (s, []) :=
    turns_sendFrom hdelays sender.policy.retries (Nat.add_zero _) rfl
  have hothers : ∀ n (s : σ × List (SendNote σ)), (undisturbed σ).others s ((env n).beside.change s) := fun _ _ => rfl
  obtain ⟨_, hends⟩ := hturns.play hothers
  rw [hrun] at hends
  obtain ⟨notes', hnotes, hcourse⟩ := hends htimely
  obtain rfl : notes = notes' := hnotes
  exact hcourse

/-- The time that the service tells in the rehearsal is one of the calendar. -/
theorem timely_rehearsedNotes : Timely rehearsedNotes := by
  intro o s f t hmem hf ht
  simp only [rehearsedNotes, List.mem_cons, SendNote.answered.injEq, reduceCtorEq, false_or, List.not_mem_nil, or_false] at hmem
  have hf := amounts_iff.1 hf
  rcases hmem with ⟨rfl, -⟩ | ⟨rfl, -⟩
  · obtain rfl := Outcome.failed.inj hf
    obtain rfl := Option.some.inj ht
    decide
  · cases hf

/-- A service denies what it is asked for. -/
def denied : Response := { status := 403 }

/-- The same rehearsal, but for the second request, which is denied. -/
def denial (requests : Nat) (sleeps : List Binary64) (offset : Int) : Rehearsal × Int :=
  let (rehearsal, offset) := stage requests sleeps offset
  ({ rehearsal with service.replies := [.failure tooSkewed, .response denied].drop requests }, offset)

/-- What is noted of a call that is denied in the end. -/
def denialNotes : List (SendNote (Rehearsal × Int)) :=
  [.identified (.value (.anonymous none)) (denial 0 [] 0), .sent plain (denial 0 [] 0), .answered (.failed tooSkewed) (denial 1 [] 0),
    .slept second (.value ()), .identified (.value (.anonymous none)) (denial 1 [second] 90), .sent plain (denial 1 [second] 90),
    .answered (.value denied) (denial 2 [second] 90)]

/-- The failure that a denial stands for. -/
def deniedFailure : Failure :=
  Failure.service "Service returned 403" 403 { Failure.CallInfo.unknown with retryAfter := some none }

/-- The times that the service tells when it denies are times of the calendar. -/
theorem timely_denialNotes : Timely denialNotes := by
  intro o s f t hmem hf ht
  simp only [denialNotes, List.mem_cons, SendNote.answered.injEq, reduceCtorEq, false_or, List.not_mem_nil, or_false] at hmem
  have hf := amounts_iff.1 hf
  rcases hmem with ⟨rfl, -⟩ | ⟨rfl, -⟩
  · obtain rfl := Outcome.failed.inj hf
    obtain rfl := Option.some.inj ht
    decide
  · have hdenied : judged (.value denied) = .failed deniedFailure := rfl
    obtain rfl := Outcome.failed.inj (hdenied.symm.trans hf)
    cases ht

end Sender

end SignedCall
