import SignedCall.Proofs.Signing.SignedUrl
import SignedCall.Proofs.Time.Epoch

/-!
# When signed URLs expire

An expiration is written as one and the same count of seconds in policies of both kinds and in URLs (`WritesExpiration`). It is the
number of full seconds up to what was asked for, and so no later, unless the count is ahead (`expirations_counted`). That happens to
the last moment of the calendar and to moments before 1970 (`expirations_in_time_always_false`).
-/

namespace SignedCall

namespace Policy

/-- The count for a date that lies in the calendar is that of its instant. -/
theorem epochSeconds_of_utc {d : DateTime} {t : Instant} (h : d.utc? = some t) : epochSeconds d = .ok t.epochSeconds := by
  simp only [epochSeconds, h]

/-- Where there is a count the date lies in the calendar. -/
theorem epochSeconds_eq_ok {d : DateTime} {seconds : Int} (h : epochSeconds d = .ok seconds) :
    ∃ t, d.utc? = some t ∧ t.epochSeconds = seconds := by
  cases hutc : d.utc? with
  | none => simp [epochSeconds, hutc] at h
  | some t =>
    rw [epochSeconds_of_utc hutc] at h
    exact ⟨t, rfl, Except.ok.inj h⟩

end Policy

namespace SignedUrl

open Query (joinPairs)

/-- Wherever an expiration is written it is written as the given count of seconds. -/
structure WritesExpiration (d : DateTime) (seconds : Int) : Prop where
  canned : ∀ resource text, Policy.canned resource (some d) = .ok text →
    text.toList = Json.bare (fun _ => []) (Policy.Terms.mk resource seconds none none).document
  custom : ∀ p text, p.expiration = some d → Policy.custom p = .ok text → ∃ after, text.toList = Json.bare Policy.customGap
    (Policy.Terms.mk (p.resource.getD Policy.anyResource) seconds (some (p.ipRange.getD Policy.anyAddress)) after).document
  url : ∀ sign resource keyPairId url, SignedUrl.canned sign resource keyPairId (some d) = .ok url →
    ∃ signature, url = appendQuery resource (joinPairs (parameters "Expires" (toString seconds) signature keyPairId))

/-- An expiration that is counted is written as that count everywhere. -/
theorem writesExpiration {d : DateTime} {seconds : Int} (h : Policy.epochSeconds d = .ok seconds) : WritesExpiration d seconds where
  canned := by
    intro resource text htext
    obtain ⟨d', seconds', hd, -, hseconds, hdocument⟩ := Policy.canned_eq_ok htext
    cases hd
    cases h.symm.trans hseconds
    exact hdocument
  custom := by
    intro p text hp htext
    obtain ⟨d', seconds', after, hd, -, hseconds, -, hdocument⟩ := Policy.custom_eq_ok htext
    cases hp.symm.trans hd
    cases h.symm.trans hseconds
    exact ⟨after, hdocument⟩
  url := by
    intro sign resource keyPairId url hurl
    obtain ⟨d', policy, seconds', bytes, hd, hseconds, -, -, -, rfl⟩ := canned_eq_ok hurl
    cases hd
    cases h.symm.trans hseconds
    exact ⟨_, rfl⟩

/-- The count of seconds that is written for an expiration is the number of full seconds from the start of 1970 to its instant, rounded
down, or one more, and then it is later than the instant. It is never one more from 1970 to 2514, nor without microseconds: if these
are dropped, the count is the number of full seconds. -/
theorem expirations_counted {d : DateTime} {seconds : Int} (h : Policy.epochSeconds d = .ok seconds) :
    WritesExpiration d seconds ∧ ∃ t, d.utc? = some t ∧
      seconds = t.fullSecondsSince + (if t.CountsAhead then 1 else 0) ∧
      (seconds * secondMicros ≤ t.sinceEpoch ↔ ¬t.CountsAhead) ∧
      (0 ≤ t.sinceEpoch → t.fullSecondsSince < 2 ^ 34 → ¬t.CountsAhead) ∧
      t.atSecond.epochSeconds = t.fullSecondsSince ∧
      (d.offset.getD 0 % secondMicros = 0 → Policy.epochSeconds d.atSecond = .ok t.fullSecondsSince) := by
  obtain ⟨t, ht, hcount⟩ := Policy.epochSeconds_eq_ok h
  refine ⟨writesExpiration h, t, ht, ?_, ?_, ?_, t.epochSeconds_atSecond, ?_⟩
  · rw [← hcount, Instant.epochSeconds_eq]
  · rw [← hcount, Instant.epochSeconds_mul_le_iff]
  · intro hpos hlt
    exact Instant.not_countsAhead_of_lt hpos hlt
  · intro hoffset
    rw [Policy.epochSeconds_of_utc (DateTime.utc?_atSecond hoffset ht), Instant.epochSeconds_atSecond]

/-- The last microsecond of the first second of 2030, in a zone that is an hour ahead. -/
def second2030 : DateTime := ⟨64029056400999999, some 3600000000, by decide⟩

/-- The last microsecond of the calendar, as universal time. -/
def lastMoment : DateTime := ⟨timeLimit - 1, none, by decide⟩

/-- An expiration in 2030 counts its full seconds, and is not later than it was asked for. The last moment of the calendar counts one
second more, and is. -/
theorem expirations_counted_second2030 :
    (Policy.epochSeconds second2030 = .ok 1893456000 ∧ WritesExpiration second2030 1893456000 ∧
      (∃ t, second2030.utc? = some t ∧ ¬t.CountsAhead ∧ t.fullSecondsSince = 1893456000 ∧ 1893456000 * secondMicros ≤ t.sinceEpoch ∧
        t.atSecond.epochSeconds = 1893456000) ∧
      Policy.epochSeconds second2030.atSecond = .ok 1893456000) ∧
    Policy.epochSeconds lastMoment = .ok 253402300800 ∧
      ∃ t, lastMoment.utc? = some t ∧ t.CountsAhead ∧ t.fullSecondsSince = 253402300799 ∧ t.sinceEpoch < 253402300800 * secondMicros := by
  have hcount : Policy.epochSeconds second2030 = .ok 1893456000 := rfl
  have hinstant : second2030.utc? = some ⟨64029052800999999, by decide⟩ := rfl
  have hlast : lastMoment.utc? = some ⟨timeLimit - 1, by decide⟩ := by decide +kernel
  have hcount' : Policy.epochSeconds lastMoment = .ok 253402300800 :=
    (Policy.epochSeconds_of_utc hlast).trans (congrArg Except.ok (by decide +kernel))
  have hahead : Instant.CountsAhead ⟨timeLimit - 1, by decide⟩ := by decide +kernel
  refine ⟨?_, hcount', _, hlast, hahead, ?_⟩
  · obtain ⟨hwrites, t, ht, hseconds, hlate, hearly, hsecond, hdropped⟩ := expirations_counted hcount
    cases ht.symm.trans hinstant
    have hexact := hearly (by decide) (by decide)
    rw [if_neg hexact, Int.add_zero] at hseconds
    exact ⟨hcount, hwrites, ⟨_, hinstant, hexact, hseconds.symm, hlate.2 hexact, hsecond.trans hseconds.symm⟩, hdropped rfl⟩
  · obtain ⟨-, t, ht, hseconds, hlate, -⟩ := expirations_counted hcount'
    cases ht.symm.trans hlast
    rw [if_pos hahead] at hseconds
    exact ⟨by omega, Int.not_le.1 fun hle => hlate.1 hle hahead⟩

/-- Not every expiration is written as its full seconds, nor in time: the last moment of the calendar counts as the second after it,
and half a second before 1970 as the start of 1970. -/
theorem expirations_in_time_always_false :
    (¬∀ (d : DateTime) (seconds : Int) (t : Instant), Policy.epochSeconds d = .ok seconds → d.utc? = some t → 0 ≤ t.sinceEpoch →
      seconds = t.fullSecondsSince ∨ seconds * secondMicros ≤ t.sinceEpoch) ∧
    ¬∀ (d : DateTime) (seconds : Int) (t : Instant), Policy.epochSeconds d = .ok seconds → d.utc? = some t → t.sinceEpoch < 0 →
      seconds = t.fullSecondsSince ∨ seconds * secondMicros ≤ t.sinceEpoch := by
  constructor
  · intro h
    have hutc : DateTime.utc? ⟨timeLimit - 1, none, by decide⟩ = some ⟨timeLimit - 1, by decide⟩ := by decide +kernel
    have hcount := h _ _ _ (Policy.epochSeconds_of_utc hutc) hutc (by decide)
    exact absurd hcount (by decide +kernel)
  · intro h
    have hutc : DateTime.utc? ⟨epochMicros - 500000, none, by decide⟩ = some ⟨epochMicros - 500000, by decide⟩ := by decide +kernel
    have hcount := h _ _ _ (Policy.epochSeconds_of_utc hutc) hutc (by decide)
    exact absurd hcount (by decide +kernel)

end SignedUrl

end SignedCall
