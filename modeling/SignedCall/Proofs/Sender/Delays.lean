import SignedCall.Proofs.Number.Reading
import SignedCall.Proofs.Sender.Replies

/-!
# Delays after error responses

What a call sleeps for after an error response is what the response asks for, or else what the delay rules of the policy give
(`Sender.paced_of_play`). A header field asks for a delay exactly if it writes a number that is not below zero
(`ServiceReply.retryAfter?_eq_some_iff`); that may be infinity, or a number so large that it is rounded to infinity
(`Sender.delays_after_replies_always_false`).
-/

namespace SignedCall

namespace ServiceReply

/-- A header field is taken over exactly if it writes a delay, or something endless. -/
theorem retryAfter?_eq_some_iff (text : String) (x : Binary64) : retryAfter? (some text) = some x ↔
    ∃ w, Binary64.written? text = some w ∧ w.nearest = x ∧ (w.IsDelay ∨ w.IsEndless) := by
  have hread : retryAfter? (some text) = (Binary64.ofText? text).bind fun x => if x.isNonneg then some x else none := rfl
  rw [hread, Binary64.ofText?_eq]
  cases Binary64.written? text with
  | none => simp
  | some w =>
    rw [Option.map_some, Option.bind_some]
    constructor
    · intro h
      split at h
      · next hnonneg => exact ⟨w, rfl, Option.some.inj h, w.isNonneg_nearest.1 hnonneg⟩
      · cases h
    · rintro ⟨w', hw', rfl, hasks⟩
      obtain rfl := Option.some.inj hw'
      exact if_pos (w.isNonneg_nearest.2 hasks)

/-- Whether a response asks for a delay. One whose date overflows does not, as the overflow takes its place. -/
def Asks (r : Response) (x : Binary64) : Prop :=
  ¬DateOverflows (r.header? dateHeader) ∧ retryAfter? (r.header? retryAfterHeader) = some x

/-- A response asks for no more than one delay. -/
theorem Asks.eq {r : Response} {x y : Binary64} (hx : Asks r x) (hy : Asks r y) : x = y := Option.some.inj (hx.2.symm.trans hy.2)

/-- What is asked for is not below zero. -/
theorem Asks.isNonneg {r : Response} {x : Binary64} (h : Asks r x) : x.isNonneg = true := by
  obtain ⟨-, h⟩ := h
  cases htext : r.header? retryAfterHeader with
  | none =>
    rw [htext] at h
    cases h
  | some text =>
    rw [htext] at h
    obtain ⟨w, -, rfl, hasks⟩ := (retryAfter?_eq_some_iff text x).1 h
    exact w.isNonneg_nearest.2 hasks

end ServiceReply

namespace RetryPolicy

/-- Whether what the delay rules of a policy give is finite and not below zero. -/
def Moderate (policy : RetryPolicy) : Prop :=
  ∀ c draws x draws', policy.backoff c draws = .ok (x, draws') ∨ policy.throttlingBackoff c draws = .ok (x, draws') → x.IsDelay

/-- The delay rule that goes for a failed attempt. -/
def ruleFor (policy : RetryPolicy) (c : RetryContext) : DelayRule :=
  if Retry.isThrottling c.failure c.statusCode then policy.throttlingBackoff else policy.backoff

/-- What the rule for a failure gives is finite and not below zero if both rules of the policy give such delays. -/
theorem Moderate.ruleFor {policy : RetryPolicy} (h : policy.Moderate) {c : RetryContext} {draws draws' : Draws} {x : Binary64}
    (hx : policy.ruleFor c c draws = .ok (x, draws')) : x.IsDelay := by
  unfold RetryPolicy.ruleFor at hx
  split at hx
  · exact h c draws x draws' (.inr hx)
  · exact h c draws x draws' (.inl hx)

/-- What a failure asks for goes before the rules. -/
theorem delay_of_retryAfter (policy : RetryPolicy) {f : Failure} {x : Binary64} (h : f.info.retryAfter = some (some x)) (k : Nat)
    (draws : Draws) : policy.delay { retries := k, failure := some f } draws = .ok (x, draws) := by
  simp [delay, h]

/-- A failure that asks for nothing is left to the rules. -/
theorem delay_of_rule (policy : RetryPolicy) {c : RetryContext} (h : ∀ x, c.failure.bind (·.info.retryAfter) ≠ some (some x))
    (draws : Draws) : policy.delay c draws = policy.ruleFor c c draws := by
  unfold delay
  split
  · next x hx => exact absurd hx (h x)
  · unfold ruleFor
    split <;> rfl

/-- A renewed token has the delay that the policy computes for the failure. -/
theorem delay_of_renew {policy : RetryPolicy} {token token' : RetryToken} {f : Failure} {draws draws' : Draws}
    (h : policy.renew token (some f) draws = .ok (token', draws')) :
    policy.delay { retries := token.retries, failure := some f } draws = .ok (token'.delay, draws') := by
  unfold renew at h
  dsimp only at h
  split at h
  · cases hdelay : policy.delay { retries := token.retries, failure := some f } draws with
    | error fault =>
      rw [hdelay] at h
      cases h
    | ok computed =>
      rw [hdelay] at h
      cases h
      rfl
  · cases h

end RetryPolicy

namespace Sender

open ServiceReply

variable {σ : Type} {sender : Sender σ} {request : Request} {properties : Properties}

/-! ## What a response asks for -/

/-- A response that amounts to a failure has an error status. -/
theorem status_of_judged {r : Response} {f : Failure} (h : judged (.value r) = .failed f) : firstErrorStatus ≤ r.status := by
  by_contra hstatus
  simp [judged, check, hstatus] at h

/-- Whether a policy computes a delay for the failure that a response stands for. -/
def Waits (policy : RetryPolicy) (r : Response) (x : Binary64) : Prop :=
  ∃ f k draws draws', judged (.value r) = .failed f ∧ policy.delay { retries := k, failure := some f } draws = .ok (x, draws')

/-- Whether a delay rule of a policy gives a delay for the failure that a response stands for. -/
def IsRuled (policy : RetryPolicy) (r : Response) (x : Binary64) : Prop :=
  ∃ f k draws draws', judged (.value r) = .failed f ∧
    policy.ruleFor { retries := k, failure := some f } { retries := k, failure := some f } draws = .ok (x, draws')

/-- The delay after an error response is what it asks for, or if it asks for nothing, what a delay rule gives. -/
theorem Waits.cases {policy : RetryPolicy} {r : Response} {x : Binary64} (h : Waits policy r x) :
    Asks r x ∨ (∀ y, ¬Asks r y) ∧ IsRuled policy r x := by
  obtain ⟨f, k, draws, draws', hf, hdelay⟩ := h
  rcases judged_error (status_of_judged hf) with ⟨hdate, f', hf', htells⟩ | ⟨hdate, hf'⟩
  · obtain rfl := Outcome.failed.inj (hf'.symm.trans hf)
    cases hasks : retryAfter? (r.header? retryAfterHeader) with
    | some y =>
      rw [policy.delay_of_retryAfter (htells.retryAfter.trans (congrArg some hasks))] at hdelay
      cases hdelay
      exact .inl ⟨hdate, hasks⟩
    | none =>
      have hnone : ∀ y, f'.info.retryAfter ≠ some (some y) := by
        intro y hy
        rw [htells.retryAfter, hasks] at hy
        cases hy
      rw [policy.delay_of_rule (c := { retries := k, failure := some f' }) hnone] at hdelay
      refine .inr ⟨fun y hy => ?_, f', k, draws, draws', hf, hdelay⟩
      have hy : retryAfter? (r.header? retryAfterHeader) = some y := hy.2
      rw [hasks] at hy
      cases hy
  · -- The overflow asks for nothing, whatever the field contains.
    obtain rfl := Outcome.failed.inj (hf'.symm.trans hf)
    have hnone : ∀ y, dateOverflow.info.retryAfter ≠ some (some y) := fun y hy => by cases hy
    rw [policy.delay_of_rule (c := { retries := k, failure := some dateOverflow }) hnone] at hdelay
    exact .inr ⟨fun y hy => hy.1 hdate, dateOverflow, k, draws, draws', hf, hdelay⟩

/-! ## The pace of a call -/

/-- Whether every sleep that comes right after a response is as long as the policy computes for it. -/
def Paced (policy : RetryPolicy) (notes : List (SendNote σ)) : Prop :=
  ∀ js ks r t x o, notes = js ++ .answered (.value r) t :: .slept x o :: ks → Waits policy r x

/-- Whether a sleep may come next: after a response, one that the policy computes for it. -/
def MayWait (policy : RetryPolicy) (notes : List (SendNote σ)) (x : Binary64) : Prop :=
  ∀ js r t, notes = js ++ [.answered (.value r) t] → Waits policy r x

/-- Whether the delay that the policy computes for a failure may come next. -/
def MayWaitFor (policy : RetryPolicy) (notes : List (SendNote σ)) (f : Failure) : Prop :=
  ∀ k x draws draws', policy.delay { retries := k, failure := some f } draws = .ok (x, draws') → MayWait policy notes x

variable {policy : RetryPolicy} {notes : List (SendNote σ)}

/-- One more note keeps the pace if it is no sleep, or one that may come next. -/
theorem Paced.concat (h : Paced policy notes) {e : SendNote σ} (he : ∀ x o, e = .slept x o → MayWait policy notes x) :
    Paced policy (notes ++ [e]) := by
  intro js ks r t x o hsplit
  rcases List.eq_nil_or_concat ks with rfl | ⟨ks, e', rfl⟩
  · have hlast : notes ++ [e] = (js ++ [.answered (.value r) t]) ++ [.slept x o] := by simpa using hsplit
    obtain ⟨hnotes, hslept⟩ := List.append_inj' hlast rfl
    exact he x o (List.singleton_inj.1 hslept) js r t hnotes
  · have hearlier : notes ++ [e] = (js ++ .answered (.value r) t :: .slept x o :: ks) ++ [e'] := by simpa using hsplit
    exact h js ks r t x o (List.append_inj' hearlier rfl).1

/-- An attempt has no sleeps. -/
theorem Paced.attempt (h : Paced policy notes) (a : Attempt σ) : Paced policy (notes ++ sender.attemptNotes request a) := by
  have hidentified : Paced policy (notes ++ [.identified (.value a.identity) a.signing]) := h.concat nofun
  unfold attemptNotes
  cases sender.sign request a.identity a.signing with
  | error f => exact hidentified
  | ok signed =>
    have hsent := hidentified.concat (e := .sent signed a.signing) nofun
    have hanswered := hsent.concat (e := .answered a.answer a.answering) nofun
    simpa using hanswered

/-- After a failed attempt there may be a sleep for its failure. -/
theorem mayWaitFor_attempt {a : Attempt σ} {f : Failure} (hf : sender.result request a = .failed f) :
    MayWaitFor policy (notes ++ sender.attemptNotes request a) f := by
  intro k x draws draws' hdelay js r t hnotes
  cases hsign : sender.sign request a.identity a.signing with
  | error f' =>
    simp only [attemptNotes, hsign] at hnotes
    cases (List.append_inj' hnotes rfl).2
  | ok signed =>
    have hlast : (notes ++ [.identified (.value a.identity) a.signing, .sent signed a.signing]) ++ [.answered a.answer a.answering] =
        js ++ [.answered (.value r) t] := by simpa [attemptNotes, hsign] using hnotes
    have hanswer : a.answer = .value r := by
      have hsame := List.singleton_inj.1 (List.append_inj' hlast rfl).2
      exact (SendNote.answered.inj hsame).1
    simp only [result, hsign, hanswer] at hf
    exact ⟨f, k, draws, draws', hf, hdelay⟩

/-- What may follow a failed attempt keeps the pace, if it begins with a sleep that may come next. -/
def KeepsPace (sender : Sender σ) (again : Option (RetryToken → Program (σ × List (SendNote σ)) Response)) : Prop :=
  ∀ next, again = some next → ∀ token s₀ s, Paced sender.policy s.2 → MayWait sender.policy s.2 token.delay →
    (next token).Turns (undisturbed σ) (fun _ _ s' => Paced sender.policy s'.2) s₀ s

variable {again : Option (RetryToken → Program (σ × List (SendNote σ)) Response)} {token : RetryToken}
  {s₀ s : σ × List (SendNote σ)}

/-- Another attempt keeps the pace if the delay for the failure may come next. -/
theorem paced_tryAgain (hagain : sender.KeepsPace again) {f : Failure} (hs : Paced sender.policy s.2)
    (hwait : MayWaitFor sender.policy s.2 f) :
    ((sender.noted id).tryAgain again token f).Turns (undisturbed σ) (fun _ _ s' => Paced sender.policy s'.2) s₀ s := by
  refine Program.turns_read ?_
  have hpolicy : (sender.noted id).policy = sender.policy := rfl
  rw [hpolicy]
  generalize (sender.noted id).host.draws.get s = draws
  cases hrenew : sender.policy.renew token (some f) draws with
  | error refusal => cases refusal <;> exact hs
  | ok renewed =>
    obtain ⟨token', draws'⟩ := renewed
    cases again with
    | none => exact hs
    | some next => exact hagain next rfl token' s₀ _ hs (hwait _ _ _ _ (RetryPolicy.delay_of_renew hrenew))

/-- What follows a failed attempt keeps the pace. -/
theorem paced_afterFailure (hagain : sender.KeepsPace again) {f : Failure} (hs : Paced sender.policy s.2)
    (hwait : MayWaitFor sender.policy s.2 f) :
    ((sender.noted id).afterFailure again token f).Turns (undisturbed σ) (fun _ _ s' => Paced sender.policy s'.2) s₀ s := by
  unfold afterFailure
  split
  · refine (turns_correctOffset f).andThen fun o s₀ s' hs' => ?_
    have hsame : s'.2 = s.2 := hs'.1
    rw [← hsame] at hs hwait
    cases o with
    | value _ => exact paced_tryAgain hagain hs hwait
    | failed f => exact hs
    | cancelled => exact hs
  · exact paced_tryAgain hagain hs hwait

/-- An attempt, and what follows it, keep the pace. -/
theorem paced_attemptAnew (hagain : sender.KeepsPace again) (hs : Paced sender.policy s.2) :
    ((sender.noted id).attemptAnew request properties again token).Turns (undisturbed σ)
      (fun _ _ s' => Paced sender.policy s'.2) s₀ s := by
  refine (turns_reported (sender.resolver.identity properties) .identified).andThen fun o s₀ s₁ hs₁ => ?_
  have hidentified : Paced sender.policy s₁.2 := hs₁ ▸ hs.concat nofun
  cases o with
  | failed f => exact hidentified
  | cancelled => exact hidentified
  | value i =>
    refine (turns_attempt_attempt hs₁).andThen fun o s₀ s₂ hs₂ => ?_
    obtain ⟨a, hnotes, hend⟩ := hs₂
    have hattempted : Paced sender.policy s₂.2 := hnotes ▸ hs.attempt a
    rcases hend with ⟨r, rfl, -⟩ | ⟨f, rfl, hf⟩ | ⟨rfl, -⟩
    · exact hattempted
    · refine paced_afterFailure hagain hattempted ?_
      rw [hnotes]
      exact mayWaitFor_attempt hf
    · exact hattempted

/-- A round keeps the pace if its own sleep may come next. -/
theorem paced_round (hagain : sender.KeepsPace again) (hs : Paced sender.policy s.2) (hwait : MayWait sender.policy s.2 token.delay) :
    ((sender.noted id).round request properties again token).Turns (undisturbed σ)
      (fun _ _ s' => Paced sender.policy s'.2) s₀ s := by
  change (if token.delay.isZero then _ else _ : Program (σ × List (SendNote σ)) Response).Turns (undisturbed σ) _ s₀ s
  split
  · exact paced_attemptAnew hagain hs
  · refine (turns_reported (sender.host.sleep token.delay) fun o _ => .slept token.delay o).andThen fun o s₀ s₁ hs₁ => ?_
    have hslept : Paced sender.policy s₁.2 := by
      rw [hs₁]
      refine hs.concat fun x o h => ?_
      rwa [← (SendNote.slept.inj h).1]
    cases o with
    | failed f => exact hslept
    | cancelled => exact hslept
    | value _ => exact paced_attemptAnew hagain hslept

/-- A call keeps the pace from any round on. -/
theorem paced_sendFrom (left : Nat) (hs : Paced sender.policy s.2) (hwait : MayWait sender.policy s.2 token.delay) :
    ((sender.noted id).sendFrom request properties left token).Turns (undisturbed σ)
      (fun _ _ s' => Paced sender.policy s'.2) s₀ s := by
  induction left generalizing token s₀ s with
  | zero => exact paced_round nofun hs hwait
  | succ left ih =>
    refine paced_round (fun next hnext token s₀ s hs hwait => ?_) hs hwait
    obtain rfl := Option.some.inj hnext
    exact ih hs hwait

/-- Every call keeps the pace, whatever it meets. -/
theorem paced_of_play {env : Nat → Reaction σ} {s s' : σ} {o : Outcome Response}
    (hrun : ((sender.noted id).send request properties).play (fun n => (env n).beside) (s, []) = (o, s', notes)) :
    Paced sender.policy notes := by
  have hfirst : Paced sender.policy ([] : List (SendNote σ)) := by
    intro js ks r t x o h
    simp at h
  have hwait : MayWait sender.policy ([] : List (SendNote σ)) ({} : RetryToken).delay := by
    intro js r t h
    simp at h
  have hturns : ((sender.noted id).send request properties).Turns (undisturbed σ) (fun _ _ s' => Paced sender.policy s'.2)
      (s, []) (s, []) := paced_sendFrom sender.policy.retries hfirst hwait
  have hothers : ∀ n (s : σ × List (SendNote σ)), (undisturbed σ).others s ((env n).beside.change s) := fun _ _ => rfl
  obtain ⟨_, hpaced⟩ := hturns.play hothers
  rwa [hrun] at hpaced

/-- The delays of the rehearsing policy are finite and not below zero. -/
theorem moderate_rehearsed : rehearsed.policy.Moderate := by
  rintro c draws x draws' (hx | hx) <;> cases hx <;> exact ⟨rfl, rfl⟩

/-- A service that asks for a delay with a text. -/
def busy (text : String) : Response := { status := 503, headers := FieldMap.ofList [(retryAfterHeader, text)] }

/-- A rehearsal after some requests and sleeps, the first of which finds the service busy. -/
def rush (text : String) (requests : Nat) (sleeps : List Binary64) : Rehearsal × Int :=
  ({ now := Rehearsal.start
     service :=
       { replies := [.response (busy text), .response {}].drop requests, calls := requests
         requests := List.replicate requests plain }
     sleeps }, 0)

/-- What is noted of a call during the rush that sleeps for some time. -/
def rushNotes (text : String) (x : Binary64) : List (SendNote (Rehearsal × Int)) :=
  [.identified (.value (.anonymous none)) (rush text 0 []), .sent plain (rush text 0 []), .answered (.value (busy text)) (rush text 1 []),
    .slept x (.value ()), .identified (.value (.anonymous none)) (rush text 1 [x]), .sent plain (rush text 1 [x]),
    .answered (.value {}) (rush text 2 [x])]

end Sender

end SignedCall
