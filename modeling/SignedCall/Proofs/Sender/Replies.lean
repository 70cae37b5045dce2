import SignedCall.Proofs.Rehearsal
import SignedCall.Proofs.Sender.Course

/-!
# Error responses

What an error response amounts to. A `Date` header overflows if its numbers do not make an instant of the calendar
(`MailDate.Parts.Overflows`); any other one gives an instant or is passed over, and then there is a failure that tells the status and
the code of the response and is judged by these two alone (`ServiceReply.Tells`). A call goes on after such a response, or ends with
it, as that failure says, whatever else the response contains (`Sender.replies_classified`). A date that overflows takes the place of
the response's own failure (`Sender.replies_classified_always_false`).
-/

namespace SignedCall

namespace MailDate

/-- The seconds that the zone of a date is ahead of universal time. -/
def Parts.ahead (p : Parts) : Int := (p.zone.map zoneSeconds).getD 0

/-- What makes a date overflow: its zone is too far off for a span of time, a number does not fit into a field, or the instant is out
of the calendar. -/
inductive Parts.Overflows (p : Parts) : Prop
  | zone : p.ahead / 86400 < -maxSpanDays ∨ maxSpanDays < p.ahead / 86400 → Overflows p
  | number {n : Int} : -86400 < p.ahead → p.ahead < 86400 → n ∈ [p.year, p.day, p.hour, p.minute, p.second] → tooLarge n = true →
      Overflows p
  | instant {fields : Fields} {micros : Nat} : -86400 < p.ahead → p.ahead < 86400 → p.fields? = some fields →
      fields.micros? = some micros → Instant.ofMicros? (micros - p.ahead * secondMicros) = none → Overflows p

/-- Reading overflows exactly where a number is too large, or the instant is not in the calendar. -/
theorem Parts.reading_eq_overflow_iff (p : Parts) (zone : Int) :
    p.reading zone = .overflow ↔
      (∃ n ∈ [p.year, p.day, p.hour, p.minute, p.second], tooLarge n = true) ∨
        ∃ fields micros, p.fields? = some fields ∧ fields.micros? = some micros ∧
          Instant.ofMicros? (micros - zone * secondMicros) = none := by
  unfold reading
  split
  · next hlarge => exact ⟨fun _ => Or.inl (List.any_eq_true.1 hlarge), fun _ => rfl⟩
  · next hlarge =>
    have hnone : ¬∃ n ∈ [p.year, p.day, p.hour, p.minute, p.second], tooLarge n = true := fun h => hlarge (List.any_eq_true.2 h)
    rw [or_iff_right hnone]
    cases hfields : p.fields? with
    | none => simp
    | some fields =>
      cases hmicros : fields.micros? with
      | none => simp [hmicros]
      | some micros => cases hinstant : Instant.ofMicros? (micros - zone * secondMicros) <;> simp [hmicros, hinstant]

/-- A date overflows if it has parts that do. -/
theorem read_eq_overflow_iff (s : String) : read s = .overflow ↔ ∃ p, readParts? s = some p ∧ p.Overflows := by
  unfold read
  cases readParts? s with
  | none => simp
  | some p =>
    change (if p.ahead / 86400 < -maxSpanDays || maxSpanDays < p.ahead / 86400 then _
      else if p.ahead ≤ -86400 || 86400 ≤ p.ahead then _ else p.reading p.ahead) = _ ↔ _
    simp only [Option.some.injEq, exists_eq_left']
    split
    · next hspan => exact ⟨fun _ => .zone (by simpa using hspan), fun _ => rfl⟩
    · next hspan =>
      have hspan : ¬(p.ahead / 86400 < -maxSpanDays ∨ maxSpanDays < p.ahead / 86400) := by simpa using hspan
      split
      · next hday =>
        have hday : p.ahead ≤ -86400 ∨ 86400 ≤ p.ahead := by simpa using hday
        refine ⟨nofun, fun h => ?_⟩
        cases h with
        | zone h => exact absurd h hspan
        | number h h' => omega
        | instant h h' => omega
      · next hday =>
        have hday : ¬(p.ahead ≤ -86400 ∨ 86400 ≤ p.ahead) := by simpa using hday
        rw [p.reading_eq_overflow_iff]
        constructor
        · rintro (⟨n, hn, hlarge⟩ | ⟨fields, micros, hfields, hmicros, hout⟩)
          · exact .number (by omega) (by omega) hn hlarge
          · exact .instant (by omega) (by omega) hfields hmicros hout
        · intro h
          cases h with
          | zone h => exact absurd h hspan
          | number _ _ hn hlarge => exact Or.inl ⟨_, hn, hlarge⟩
          | instant _ _ hfields hmicros hout => exact Or.inr ⟨_, _, hfields, hmicros, hout⟩

end MailDate

namespace Retry

/-- Whether a status and an error code ask to slow down. -/
def slows (status : Int) (code : Option String) : Bool := status == throttlingStatus || code.any throttlingCodes.contains

/-- Whether an error code refuses the time of a signature. -/
def skews (code : Option String) : Bool := code.any clockSkewCodes.contains

/-- Whether a status and an error code are worth another attempt. -/
def passes (status : Int) (code : Option String) : Bool :=
  slows status code || skews code || retryableStatuses.contains status

/-- The code of a failure is looked up among some codes. -/
theorem hasCode_some (codes : List String) (f : Failure) : hasCode codes (some f) = f.info.errorCode.any codes.contains := by
  unfold hasCode
  cases hcode : f.info.errorCode <;> simp [hcode]

/-- A failure with a status asks to slow down if it says so itself, or its status or its code does. -/
theorem isThrottling_some {f : Failure} {status : Int} (h : f.info.statusCode = some status) {known : Option Int}
    (hknown : known = none ∨ known = some status) :
    isThrottling (some f) known = (f.info.isThrottling == some true || slows status f.info.errorCode) := by
  have hstatus : known.or f.info.statusCode = some status := by
    rcases hknown with rfl | rfl <;> simp [h]
  simp [isThrottling, slows, hasCode_some, hstatus, Bool.or_assoc]

end Retry

namespace ServiceReply

/-- The failure that stands for a date that overflows. -/
def dateOverflow : Failure := Failure.inner .overflow "date value out of range"

/-- Whether the value of a date header overflows. -/
def DateOverflows (value : Option String) : Prop := ∃ text p, value = some text ∧ MailDate.readParts? text = some p ∧ p.Overflows

/-- The error code of a response. -/
def codeOf (r : Response) : Option String := errorCode? (r.header? codeHeader)

/-- A failure that tells what a response says, and that the status and the error code of the response alone make worth another
attempt. -/
structure Tells (r : Response) (f : Failure) : Prop where
  kind : f.kind = .service
  text : f.text = describe r (codeOf r)
  status : f.info.statusCode = some r.status
  code : f.info.errorCode = codeOf r
  serverTime : ∃ time, date? (r.header? dateHeader) = .ok time ∧ f.info.serverTime = time.map Instant.toDateTime
  retryAfter : f.info.retryAfter = some (retryAfter? (r.header? retryAfterHeader))
  throttling : Retry.isThrottling (some f) none = Retry.slows r.status (codeOf r)
  clockSkew : Retry.isClockSkew (some f) = Retry.skews (codeOf r)
  retryable : ∀ k, Retry.isRetryable { retries := k, failure := some f } = Retry.passes r.status (codeOf r)

variable {value : Option String} {r : Response} {f : Failure}

/-- A date that overflows gives a failure in place of a time. -/
theorem date?_of_overflows (h : DateOverflows value) : date? value = .error dateOverflow := by
  obtain ⟨text, p, rfl, hparts, hp⟩ := h
  have hread : MailDate.read text = .overflow := (MailDate.read_eq_overflow_iff text).2 ⟨p, hparts, hp⟩
  unfold date?
  split
  · next h => cases h
  · next h =>
    obtain rfl := Option.some.inj h
    cases hparts
  · next h =>
    obtain rfl := Option.some.inj h
    rw [hread]
    rfl

/-- Any other date gives a time, or is passed over. -/
theorem exists_date? (h : ¬DateOverflows value) : ∃ time, date? value = .ok time := by
  unfold date?
  split
  · exact ⟨_, rfl⟩
  · exact ⟨_, rfl⟩
  · next text _ =>
    split
    · exact ⟨_, rfl⟩
    · exact ⟨_, rfl⟩
    · next hread =>
      obtain ⟨p, hparts, hp⟩ := (MailDate.read_eq_overflow_iff text).1 hread
      exact absurd ⟨text, p, rfl, hparts, hp⟩ h

/-- A date that overflows takes the place of the response's own failure. -/
theorem failure_of_overflows (h : DateOverflows (r.header? dateHeader)) : failure r = .error dateOverflow := by
  unfold failure
  rw [date?_of_overflows h]
  rfl

/-- The failure that stands for a response whose date gives a time or is passed over. -/
def told (r : Response) (time : Option Instant) : Failure :=
  Failure.service (describe r (codeOf r)) r.status
    { Failure.CallInfo.unknown with
      errorCode := codeOf r
      serverTime := time.map Instant.toDateTime
      retryAfter := some (retryAfter? (r.header? retryAfterHeader))
      isThrottling := some (Retry.slows r.status (codeOf r)) }

/-- Any other response gives the failure that stands for it. -/
theorem failure_eq {time : Option Instant} (h : date? (r.header? dateHeader) = .ok time) : failure r = .ok (told r time) := by
  have hthrottling : Retry.isThrottling (some (Failure.service (describe r (codeOf r)) r.status
      { Failure.CallInfo.unknown with
        errorCode := codeOf r
        serverTime := time.map Instant.toDateTime
        retryAfter := some (retryAfter? (r.header? retryAfterHeader)) })) none = Retry.slows r.status (codeOf r) := by
    rw [Retry.isThrottling_some rfl (Or.inl rfl)]
    rfl
  unfold failure
  rw [h, told, ← hthrottling]
  rfl

/-- The failure that stands for a response tells what it says. -/
theorem tells_told {time : Option Instant} (h : date? (r.header? dateHeader) = .ok time) : Tells r (told r time) := by
  have hthrottling : ∀ known, known = none ∨ known = some r.status →
      Retry.isThrottling (some (told r time)) known = Retry.slows r.status (codeOf r) := by
    intro known hknown
    rw [Retry.isThrottling_some rfl hknown]
    simp [told, Failure.service]
  have hskews : Retry.isClockSkew (some (told r time)) = Retry.skews (codeOf r) := Retry.hasCode_some _ _
  refine ⟨rfl, rfl, rfl, rfl, ⟨time, h, rfl⟩, rfl, hthrottling none (Or.inl rfl), hskews, fun k => ?_⟩
  change Retry.looksPassing { retries := k, failure := some (told r time) } = _
  change (Retry.isThrottling (some (told r time)) (some r.status) || Retry.isClockSkew (some (told r time)) ||
    Retry.retryableStatuses.contains r.status || false) = _
  rw [hthrottling _ (Or.inr rfl), hskews, Bool.or_false, Retry.passes]

/-- A response whose date does not overflow stands for a failure that tells what it says. -/
theorem failure_tells (h : ¬DateOverflows (r.header? dateHeader)) : ∃ f, failure r = .ok f ∧ Tells r f := by
  obtain ⟨time, htime⟩ := exists_date? h
  exact ⟨told r time, failure_eq htime, tells_told htime⟩

/-- The time that a failure tells is a time of the calendar as universal time. -/
theorem Tells.utc (h : Tells r f) {t : DateTime} (ht : f.info.serverTime = some t) : t.offset = some 0 ∧ t.utc? ≠ none := by
  obtain ⟨time, -, htime⟩ := h.serverTime
  rw [htime] at ht
  obtain ⟨i, -, rfl⟩ := Option.map_eq_some_iff.1 ht
  refine ⟨rfl, ?_⟩
  simp [DateTime.utc?, Instant.toDateTime, Instant.ofMicros?, i.micros_lt]

end ServiceReply

namespace Sender

variable {σ : Type} {sender : Sender σ} {request : Request} {properties : Properties}

/-- How a call goes on when an attempt failed after `k` retries: it tries again, or ends with the failure. -/
inductive Proceeds (sender : Sender σ) (request : Request) (k : Nat) (f : Failure) : List (SendNote σ) → Outcome Response → Prop
  /-- Retries are left and the policy finds the failure worth one. -/
  | retried {delay : Binary64} {draws draws' : Draws} {notes : List (SendNote σ)} {o : Outcome Response} :
      k < sender.policy.retries → sender.policy.condition { retries := k, failure := some f } = true →
      sender.policy.delay { retries := k, failure := some f } draws = .ok (delay, draws') →
      Course sender request (k + 1) delay notes o → Proceeds sender request k f notes o
  /-- No retry is left, or the policy does not find the failure worth one. -/
  | gaveUp :
      ¬(k < sender.policy.retries ∧ sender.policy.condition { retries := k, failure := some f } = true) →
      Proceeds sender request k f [] (.failed (givenUp f (k + 1)))

/-- What is judged of a response with an error status. -/
theorem judged_error {r : Response} (h : firstErrorStatus ≤ r.status) :
    (¬ServiceReply.DateOverflows (r.header? ServiceReply.dateHeader) ∧ ∃ f, judged (.value r) = .failed f ∧ ServiceReply.Tells r f) ∨
      (ServiceReply.DateOverflows (r.header? ServiceReply.dateHeader) ∧ judged (.value r) = .failed ServiceReply.dateOverflow) := by
  by_cases hdate : ServiceReply.DateOverflows (r.header? ServiceReply.dateHeader)
  · exact Or.inr ⟨hdate, by simp [judged, check, h, ServiceReply.failure_of_overflows hdate]⟩
  · obtain ⟨f, hf, htells⟩ := ServiceReply.failure_tells hdate
    exact Or.inl ⟨hdate, f, by simp [judged, check, h, hf], htells⟩

/-- The times that responses tell are in the calendar, so only failures to get a response may bring another one. -/
theorem timely_of_failures {notes : List (SendNote σ)}
    (h : ∀ f s t, .answered (.failed f) s ∈ notes → f.info.serverTime = some t → t.utc? ≠ none) : Timely notes := by
  intro o s f t hmem hf ht
  cases o with
  | failed f' =>
    obtain rfl := Outcome.failed.inj (amounts_iff.1 hf)
    exact h f' s t hmem ht
  | cancelled => cases amounts_iff.1 hf
  | value r =>
    by_cases hstatus : firstErrorStatus ≤ r.status
    · rcases judged_error hstatus with ⟨-, f', hf', htells⟩ | ⟨-, hf'⟩
      · obtain rfl := Outcome.failed.inj (hf'.symm.trans (amounts_iff.1 hf))
        exact (htells.utc ht).2
      · obtain rfl := Outcome.failed.inj (hf'.symm.trans (amounts_iff.1 hf))
        cases ht
    · cases (hf.eq_value_iff r).2 ⟨Int.not_le.1 hstatus, rfl⟩

/-- The only answer in the notes of a round is that of its attempt, and comes last. -/
theorem answered_round {delay : Binary64} {a : Attempt σ} {js ks : List (SendNote σ)} {x : Outcome Response} {s : σ}
    (h : sleepNotes delay ++ sender.attemptNotes request a = js ++ .answered x s :: ks) :
    js.countP SendNote.signs = 1 ∧ sender.result request a = judged x ∧ ks = [] := by
  unfold sleepNotes attemptNotes at h
  unfold result
  cases hsign : sender.sign request a.identity a.signing with
  | error f =>
    rw [hsign] at h
    split at h <;> simp [List.cons_eq_append_iff] at h
  | ok signed =>
    rw [hsign] at h
    split at h <;> simp [List.cons_eq_append_iff] at h
    · obtain ⟨rfl, ⟨rfl, rfl⟩, rfl⟩ := h
      exact ⟨rfl, rfl, rfl⟩
    · obtain ⟨rfl, ⟨rfl, rfl⟩, rfl⟩ := h
      exact ⟨rfl, rfl, rfl⟩

/-- An answer in the notes of a round and of what follows is that of the round's attempt, or is in what follows. -/
theorem answered_split {delay : Binary64} {a : Attempt σ} {notes js ks : List (SendNote σ)} {x : Outcome Response} {s : σ}
    (h : sleepNotes delay ++ sender.attemptNotes request a ++ notes = js ++ .answered x s :: ks) :
    (js.countP SendNote.signs = 1 ∧ sender.result request a = judged x ∧ ks = notes) ∨
      ∃ js', js.countP SendNote.signs = js'.countP SendNote.signs + 1 ∧ notes = js' ++ .answered x s :: ks := by
  have hsigns : (sleepNotes delay ++ sender.attemptNotes request a).countP SendNote.signs = 1 :=
    (countP_round sender request delay a).1
  have hlater : ∀ js', js = sleepNotes delay ++ sender.attemptNotes request a ++ js' →
      js.countP SendNote.signs = js'.countP SendNote.signs + 1 := by
    rintro js' rfl
    rw [List.countP_append, hsigns, Nat.add_comm]
  rcases List.append_eq_append_iff.1 h with ⟨js', hjs, hnotes⟩ | ⟨rest, hround, hrest⟩
  · exact Or.inr ⟨js', hlater js' hjs, hnotes⟩
  · cases rest with
    | nil => exact Or.inr ⟨[], hlater [] (by simpa using hround.symm), hrest.symm⟩
    | cons e rest =>
      obtain ⟨rfl, rfl⟩ := List.cons.inj hrest
      obtain ⟨hcount, hresult, rfl⟩ := answered_round hround
      exact Or.inl ⟨hcount, hresult, rfl⟩

/-- After an answer that is judged a failure a call goes on as the policy says of the failure and of the retries made so far. -/
theorem Course.proceeds {k : Nat} {delay : Binary64} {notes : List (SendNote σ)} {o : Outcome Response}
    (h : Course sender request k delay notes o) {js ks : List (SendNote σ)} {x : Outcome Response} {s : σ} {f : Failure}
    (hnotes : notes = js ++ .answered x s :: ks) (hf : judged x = .failed f) :
    ∃ n, js.countP SendNote.signs + k = n + 1 ∧ Proceeds sender request n f ks o := by
  induction h generalizing js with
  | awakened _ _ => simp [List.cons_eq_append_iff] at hnotes
  | @unidentified k delay o o' s' _ =>
    unfold sleepNotes at hnotes
    split at hnotes <;> simp [List.cons_eq_append_iff] at hnotes
  | cancelled hcomes =>
    obtain ⟨-, hjudged, -⟩ := answered_round hnotes
    rw [comes_iff.1 hcomes, hf] at hjudged
    cases hjudged
  | returned hcomes =>
    obtain ⟨-, hjudged, -⟩ := answered_round hnotes
    rw [comes_iff.1 hcomes, hf] at hjudged
    cases hjudged
  | @gaveUp k delay a f' hcomes hlast =>
    obtain ⟨hcount, hjudged, rfl⟩ := answered_round hnotes
    rw [comes_iff.1 hcomes, hf] at hjudged
    obtain rfl := Outcome.failed.inj hjudged
    exact ⟨k, by omega, .gaveUp hlast⟩
  | @retried k delay delay' a f' draws draws' notes o hcomes hlt hcondition hgives hcourse ih =>
    rcases answered_split hnotes with ⟨hcount, hjudged, rfl⟩ | ⟨js', hcount, hnotes'⟩
    · rw [comes_iff.1 hcomes, hf] at hjudged
      obtain rfl := Outcome.failed.inj hjudged
      exact ⟨k, by omega, .retried hlt hcondition (RetryPolicy.gives_iff.1 hgives) hcourse⟩
    · obtain ⟨n, hn, hproceeds⟩ := ih hnotes'
      exact ⟨n, by omega, hproceeds⟩

/-- A service that is not available at first. -/
def unavailable : Response := { status := 503 }

/-- A rehearsal after some requests and sleeps, the first of which finds the service unavailable. -/
def outage (requests : Nat) (sleeps : List Binary64) : Rehearsal × Int :=
  ({ now := Rehearsal.start
     service :=
       { replies := [.response unavailable, .response {}].drop requests, calls := requests
         requests := List.replicate requests plain }
     sleeps }, 0)

/-- What is noted of a call during the outage. -/
def outageNotes : List (SendNote (Rehearsal × Int)) :=
  [.identified (.value (.anonymous none)) (outage 0 []), .sent plain (outage 0 []), .answered (.value unavailable) (outage 1 []),
    .slept second (.value ()), .identified (.value (.anonymous none)) (outage 1 [second]), .sent plain (outage 1 [second]),
    .answered (.value {}) (outage 2 [second])]

/-- The last second of the calendar, by a clock an hour behind universal time. -/
def lateReply : Response := { status := 503, headers := FieldMap.ofList [("Date", "Fri, 31 Dec 9999 23:59:59 -0100")] }

end Sender

end SignedCall
