import SignedCall.Proofs.Sender.Replies
import SignedCall.Proofs.Text.Blank
import SignedCall.Proofs.Text.Split

/-!
# What a policy makes of an error response

The error code of a response is told by where it stands in which header field (`ServiceReply.Names`), and every response names one or
none (`ServiceReply.names_codeOf`, `ServiceReply.Names.eq_codeOf`). The condition that policies have unless they are given another one
looks at the failure and its status alone (`Retry.isRetryable_congr`), so a failure that tells what a response says is judged by the
status and the code, and its delay is the one that the response asks for or that of one of the two strategies
(`RetryPolicy.judges_replies`).
-/

namespace SignedCall

namespace ServiceReply

variable {r : Response} {code : Option String}

/-- A text without a colon that another one begins with, up to its first colon or as a whole. -/
inductive Heads (stem : List Char) : List Char → Prop
  | whole : ':' ∉ stem → Heads stem stem
  | cut {rest : List Char} : ':' ∉ stem → Heads stem (stem ++ ':' :: rest)

/-- The error code that a response names: what stands before the first colon in the first header field for it, whatever the letter
case of its name, without the blanks at either end. An empty one is none. -/
inductive Names (r : Response) : Option String → Prop
  | unnamed : (∀ e ∈ r.headers.entries, Text.sameIgnoringCase e.1 codeHeader = false) → Names r none
  | named {before after : List (String × String)} {name value : String} {stem kept : List Char} :
      r.headers.entries = before ++ (name, value) :: after → Text.sameIgnoringCase name codeHeader = true →
      (∀ e ∈ before, Text.sameIgnoringCase e.1 codeHeader = false) → Heads stem value.toList → Text.Strips stem kept →
      Names r (if kept = [] then none else some (String.ofList kept))

/-- What stands before the first colon heads a text. -/
theorem heads_cutAt (cs : List Char) : Heads (Text.cutAt ':' cs).1 cs := by
  obtain ⟨hstem, hcs⟩ := Text.cutAt_spec ':' cs
  generalize hcut : Text.cutAt ':' cs = cut at hstem hcs
  obtain ⟨stem, - | rest⟩ := cut
  · rw [hcs, Option.map_none, Option.getD_none, List.append_nil]
    exact .whole hstem
  · rw [hcs]
    exact .cut hstem

/-- A text is headed by nothing but what stands before its first colon. -/
theorem Heads.eq_cutAt {stem cs : List Char} (h : Heads stem cs) : stem = (Text.cutAt ':' cs).1 := by
  cases h with
  | whole hstem => rw [Text.cutAt_of_not_mem hstem]
  | cut hstem => rw [Text.cutAt_append hstem]

/-- The error code that the value of a header field gives. -/
theorem errorCode?_some {value : String} {stem kept : List Char} (hstem : Heads stem value.toList) (hkept : Text.Strips stem kept) :
    errorCode? (some value) = if kept = [] then none else some (String.ofList kept) := by
  obtain rfl := hstem.eq_cutAt
  obtain rfl := hkept.eq_trim
  simp only [errorCode?, Option.bind_eq_bind, Option.bind_some, String.ofList_eq_empty_iff]

/-- A response names no other code than the one that is read from it. -/
theorem Names.eq_codeOf (h : Names r code) : code = codeOf r := by
  unfold codeOf Response.header? Headers.find?
  cases h with
  | unnamed hnone =>
    rw [List.find?_eq_none.2 fun e he => by simp [hnone e he]]
    rfl
  | named hentries hname hbefore hstem hkept =>
    have hfind : r.headers.entries.find? (fun e => Text.sameIgnoringCase e.1 codeHeader) = some (_, _) :=
      List.find?_eq_some_iff_append.2 ⟨hname, _, _, hentries, fun e he => by simp [hbefore e he]⟩
    rw [hfind]
    exact (errorCode?_some hstem hkept).symm

/-- A response names the code that is read from it. -/
theorem names_codeOf (r : Response) : Names r (codeOf r) := by
  unfold codeOf Response.header? Headers.find?
  cases hfind : r.headers.entries.find? fun e => Text.sameIgnoringCase e.1 codeHeader with
  | none => exact .unnamed fun e he => by simpa using List.find?_eq_none.1 hfind e he
  | some e =>
    obtain ⟨hname, before, after, hentries, hbefore⟩ := List.find?_eq_some_iff_append.1 hfind
    rw [Option.map_some, errorCode?_some (heads_cutAt _) (Text.strips_trim _)]
    exact .named hentries hname (fun e he => by simpa using hbefore e he) (heads_cutAt _) (Text.strips_trim _)

end ServiceReply

namespace Retry

/-- Whether a failure is worth another attempt is a matter of the failure and of the status that is known. -/
theorem isRetryable_congr {c c' : RetryContext} (hfailure : c.failure = c'.failure) (hstatus : c.statusCode = c'.statusCode) :
    isRetryable c = isRetryable c' := by
  have hlooks : looksPassing c = looksPassing c' := by simp only [looksPassing, hfailure, hstatus]
  simp only [isRetryable, hfailure, hlooks]

variable {status : Int} {code : Option String}

/-- A status asks to slow down by itself, or a code does by its name. -/
theorem slows_iff : slows status code = true ↔ status = throttlingStatus ∨ ∃ c, code = some c ∧ c ∈ throttlingCodes := by
  simp [slows, Option.any_eq_true]

/-- A status is worth another attempt by itself, or a code is by its name. -/
theorem passes_iff :
    passes status code = true ↔
      status ∈ throttlingStatus :: retryableStatuses ∨ ∃ c, code = some c ∧ (c ∈ throttlingCodes ∨ c ∈ clockSkewCodes) := by
  have hskews : skews code = true ↔ ∃ c, code = some c ∧ c ∈ clockSkewCodes := by simp [skews, Option.any_eq_true]
  rw [passes, Bool.or_eq_true, Bool.or_eq_true, slows_iff, hskews, List.contains_iff_mem, List.mem_cons]
  constructor
  · rintro (((hstatus | ⟨c, hc, hcodes⟩) | ⟨c, hc, hcodes⟩) | hstatus)
    · exact Or.inl (Or.inl hstatus)
    · exact Or.inr ⟨c, hc, Or.inl hcodes⟩
    · exact Or.inr ⟨c, hc, Or.inr hcodes⟩
    · exact Or.inl (Or.inr hstatus)
  · rintro ((hstatus | hstatus) | ⟨c, hc, hcodes | hcodes⟩)
    · exact Or.inl (Or.inl (Or.inl hstatus))
    · exact Or.inr hstatus
    · exact Or.inl (Or.inl (Or.inr ⟨c, hc, hcodes⟩))
    · exact Or.inl (Or.inr ⟨c, hc, hcodes⟩)

end Retry

namespace RetryPolicy

open ServiceReply

variable {policy : RetryPolicy} {r : Response} {f : Failure} {c : RetryContext}

/-- A policy with the condition that policies have unless they are given another one, and the failure that an error response stands
for. The response names one error code, or none. As long as a retry is left, the policy accepts the failure if and only if the status is
429, 500, 502, 503 or 504, or the code is one of throttling or of a refused time. The delay is the one that the response asks for, else
that of the strategy for throttling if the status is 429 or the code is one of throttling, else that of the other strategy. -/
theorem judges_replies (hcondition : policy.condition = Retry.isRetryable) (hf : ServiceReply.failure r = .ok f)
    (hfailure : c.failure = some f) (hstatus : c.status = none ∨ c.status = some r.status) (hleft : c.retries < policy.retries) :
    ∃ code, Names r code ∧ (∀ other, Names r other → other = code) ∧
      (policy.shouldRetry c = true ↔
        r.status ∈ [429, 500, 502, 503, 504] ∨ ∃ c, code = some c ∧ (c ∈ Retry.throttlingCodes ∨ c ∈ Retry.clockSkewCodes)) ∧
      ∀ draws,
        (∀ seconds, retryAfter? (r.header? retryAfterHeader) = some seconds → policy.delay c draws = .ok (seconds, draws)) ∧
        (retryAfter? (r.header? retryAfterHeader) = none →
          ((r.status = 429 ∨ ∃ c, code = some c ∧ c ∈ Retry.throttlingCodes) → policy.delay c draws = policy.throttlingBackoff c draws) ∧
          (¬(r.status = 429 ∨ ∃ c, code = some c ∧ c ∈ Retry.throttlingCodes) → policy.delay c draws = policy.backoff c draws)) := by
  have htells : Tells r f := by
    by_cases hdate : DateOverflows (r.header? dateHeader)
    · rw [failure_of_overflows hdate] at hf
      cases hf
    · obtain ⟨f', hf', htells⟩ := failure_tells hdate
      obtain rfl := Except.ok.inj (hf'.symm.trans hf)
      exact htells
  have hcode : c.statusCode = some r.status := by
    unfold RetryContext.statusCode
    rcases hstatus with hstatus | hstatus <;> simp [hstatus, hfailure, htells.status]
  have hthrottling : Retry.isThrottling c.failure c.statusCode = Retry.slows r.status (codeOf r) := by
    rw [← htells.throttling, hfailure, hcode, Retry.isThrottling_some htells.status (Or.inl rfl),
      Retry.isThrottling_some htells.status (Or.inr rfl)]
  refine ⟨codeOf r, names_codeOf r, fun other hother => hother.eq_codeOf, ?_, fun draws => ⟨fun seconds hseconds => ?_, fun hnone => ?_⟩⟩
  · have hretryable : Retry.isRetryable c = Retry.passes r.status (codeOf r) := by
      rw [← htells.retryable c.retries]
      refine Retry.isRetryable_congr hfailure (hcode.trans ?_)
      exact htells.status.symm
    rw [shouldRetry, hcondition, decide_eq_true hleft, Bool.true_and, hretryable, Retry.passes_iff]
    rfl
  · unfold delay
    rw [hfailure, Option.bind_some, htells.retryAfter, hseconds]
  · have hdelay : policy.delay c draws =
        if Retry.slows r.status (codeOf r) then policy.throttlingBackoff c draws else policy.backoff c draws := by
      unfold delay
      rw [hthrottling, hfailure, Option.bind_some, htells.retryAfter, hnone]
    rw [hdelay]
    exact ⟨fun h => if_pos (Retry.slows_iff.2 h), fun h => if_neg fun hslows => h (Retry.slows_iff.1 hslows)⟩

/-- A response that asks to slow down by its error code alone. -/
def slowDown : Response :=
  { status := 400, headers := FieldMap.ofList [("Content-Length", "0"), ("X-AMZN-ERRORTYPE", " SlowDown :http://localhost")] }

/-- The same response with a header field that asks for two and a half seconds. -/
def slowDownFor : Response := { slowDown with headers := FieldMap.ofList (slowDown.headers.entries ++ [("retry-after", "2.5")]) }

/-- Two and a half. -/
def twoAndAHalf : Binary64 := .finite false (5 * Nat.pow 2 50) (-51)

/-- Both responses are worth another attempt, after a delay of the rule for throttling, and after the one that is asked for. -/
theorem judges_replies_slowDown :
    let policy : RetryPolicy := {}
    (∃ f, ServiceReply.failure slowDown = .ok f ∧ policy.shouldRetry { retries := 2, failure := some f } = true ∧
      ∀ draws, policy.delay { retries := 2, failure := some f } draws =
        BackoffStrategy.throttling.rule { retries := 2, failure := some f } draws) ∧
    ∃ f, ServiceReply.failure slowDownFor = .ok f ∧ policy.shouldRetry { retries := 2, failure := some f } = true ∧
      ∀ draws, policy.delay { retries := 2, failure := some f } draws = .ok (twoAndAHalf, draws) := by
  intro policy
  have hcondition : policy.condition = Retry.isRetryable := rfl
  have hcodes : "SlowDown" ∈ Retry.throttlingCodes := by decide
  have htells : ∀ r : Response, r.header? dateHeader = none → ∃ f, ServiceReply.failure r = .ok f := by
    intro r hdate
    obtain ⟨f, hf, -⟩ := failure_tells (r := r) (by rw [hdate]; rintro ⟨text, p, hnone, -⟩; cases hnone)
    exact ⟨f, hf⟩
  constructor
  · obtain ⟨f, hf⟩ := htells slowDown (by decide +kernel)
    obtain ⟨code, hcode, -, haccepts, hdelay⟩ :=
      judges_replies (c := { retries := 2, failure := some f }) hcondition hf rfl (Or.inl rfl) (Nat.lt_succ_self 2)
    obtain rfl : code = some "SlowDown" := hcode.eq_codeOf.trans (by decide +kernel)
    refine ⟨f, hf, haccepts.2 (Or.inr ⟨_, rfl, Or.inl hcodes⟩), fun draws => ?_⟩
    exact ((hdelay draws).2 (by decide +kernel)).1 (Or.inr ⟨_, rfl, hcodes⟩)
  · obtain ⟨f, hf⟩ := htells slowDownFor (by decide +kernel)
    obtain ⟨code, hcode, -, haccepts, hdelay⟩ :=
      judges_replies (c := { retries := 2, failure := some f }) hcondition hf rfl (Or.inl rfl) (Nat.lt_succ_self 2)
    obtain rfl : code = some "SlowDown" := hcode.eq_codeOf.trans (by decide +kernel)
    have hasks : retryAfter? (slowDownFor.header? retryAfterHeader) = some twoAndAHalf := by decide +kernel
    exact ⟨f, hf, haccepts.2 (Or.inr ⟨_, rfl, Or.inl hcodes⟩), fun draws => (hdelay draws).1 _ hasks⟩

end RetryPolicy

end SignedCall
