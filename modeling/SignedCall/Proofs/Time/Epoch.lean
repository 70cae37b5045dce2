import SignedCall.Proofs.Time.Seconds

/-!
# Seconds since 1970

The count of seconds since 1970 is the number of full seconds up to an instant, rounded down, or one more than that
(`Instant.epochSeconds_eq`). It is one more in two cases (`Instant.CountsAhead`): centuries after 1970, where a span just below a
full second gains it, and before 1970, where the part of a second is cut off toward 1970 unless the span gains the second. The
microseconds of a date and time are to blame for both: without them the count is exact (`epochSeconds_atSecond`).
-/

namespace SignedCall

namespace Instant

/-- The microseconds from the start of 1970 to an instant, below zero before it. -/
def sinceEpoch (t : Instant) : Int := t.micros - epochMicros

/-- The full seconds from the start of 1970 to an instant, rounded down. -/
def fullSecondsSince (t : Instant) : Int := t.sinceEpoch / secondMicros

/-- The count of seconds is later than the instant: from 1970 on because the span gains a second, before it because the part of a
second is cut off, and the span does not gain it. -/
def CountsAhead (t : Instant) : Prop :=
  (0 ≤ t.sinceEpoch ∧ GainsSecond t.sinceEpoch.natAbs) ∨
    (t.sinceEpoch < 0 ∧ t.sinceEpoch % secondMicros ≠ 0 ∧ ¬GainsSecond t.sinceEpoch.natAbs)

instance (t : Instant) : Decidable t.CountsAhead := inferInstanceAs (Decidable (_ ∨ _))

/-- No instant is further from 1970 than the calendar is long. -/
theorem natAbs_sinceEpoch_lt (t : Instant) : t.sinceEpoch.natAbs < timeLimit := by
  have hlt := t.micros_lt
  have hepoch : epochMicros < timeLimit := by decide
  unfold sinceEpoch
  omega

/-- Only a span with a part of a second gains one. -/
theorem mod_ne_zero_of_gainsSecond (t : Instant) (h : GainsSecond t.sinceEpoch.natAbs) :
    t.sinceEpoch.natAbs % secondMicros ≠ 0 := by
  have hhalf := h.two_mul_le (natAbs_div_lt t.natAbs_sinceEpoch_lt)
  unfold secondMicros at hhalf ⊢
  omega

/-- The count of seconds is the number of full seconds, or one more. -/
theorem epochSeconds_eq (t : Instant) : t.epochSeconds = t.fullSecondsSince + if t.CountsAhead then 1 else 0 := by
  have hcount : t.epochSeconds = if t.sinceEpoch < 0 then -(fullSeconds t.sinceEpoch.natAbs : Int)
      else fullSeconds t.sinceEpoch.natAbs := wholeSeconds_eq t.natAbs_sinceEpoch_lt
  unfold fullSeconds at hcount
  unfold fullSecondsSince
  by_cases hgain : GainsSecond t.sinceEpoch.natAbs
  · have hpart := t.mod_ne_zero_of_gainsSecond hgain
    have hahead : t.CountsAhead ↔ 0 ≤ t.sinceEpoch := by simp [CountsAhead, hgain]
    simp only [hcount, hgain, hahead, if_true]
    unfold secondMicros at hpart ⊢
    split_ifs <;> omega
  · have hahead : t.CountsAhead ↔ t.sinceEpoch < 0 ∧ t.sinceEpoch % secondMicros ≠ 0 := by simp [CountsAhead, hgain]
    simp only [hcount, hgain, hahead, if_false]
    unfold secondMicros
    split_ifs <;> omega

/-- The count of seconds is no later than the instant unless it counts ahead. -/
theorem epochSeconds_mul_le_iff (t : Instant) : t.epochSeconds * secondMicros ≤ t.sinceEpoch ↔ ¬t.CountsAhead := by
  rw [epochSeconds_eq]
  unfold fullSecondsSince secondMicros
  split_ifs with h
  · simp only [h, not_true_eq_false, iff_false]
    omega
  · simp only [h, not_false_eq_true, iff_true]
    omega

/-- From 1970 on and short of 2 ^ 34 seconds, which is in 2514, the count is exact. -/
theorem not_countsAhead_of_lt {t : Instant} (h : 0 ≤ t.sinceEpoch) (h' : t.fullSecondsSince < 2 ^ 34) : ¬t.CountsAhead := by
  have hspan : t.sinceEpoch.natAbs / secondMicros < 2 ^ 34 := by
    unfold fullSecondsSince at h'
    unfold secondMicros at h' ⊢
    omega
  rintro (⟨-, hgain⟩ | ⟨hneg, -⟩)
  · exact not_gainsSecond hspan hgain
  · omega

/-! ## Without microseconds -/

/-- An instant on a full second counts exactly. -/
theorem not_countsAhead_of_dvd {t : Instant} (h : t.sinceEpoch % secondMicros = 0) : ¬t.CountsAhead := by
  rintro (⟨hpos, hgain⟩ | ⟨-, hpart, -⟩)
  · have hpart := t.mod_ne_zero_of_gainsSecond hgain
    unfold secondMicros at h hpart
    omega
  · exact hpart h

/-- The last full second up to an instant. -/
def atSecond (t : Instant) : Instant where
  micros := t.micros - t.micros % secondMicros
  micros_lt := Nat.lt_of_le_of_lt (Nat.sub_le _ _) t.micros_lt

/-- The last full second up to an instant is as far from 1970 as its full seconds say. -/
theorem sinceEpoch_atSecond (t : Instant) : t.atSecond.sinceEpoch = t.fullSecondsSince * secondMicros := by
  have hepoch : epochMicros = 719162 * 86400 * secondMicros := rfl
  have hmicros : t.atSecond.micros = t.micros - t.micros % secondMicros := rfl
  unfold fullSecondsSince sinceEpoch
  rw [hmicros, hepoch]
  unfold secondMicros
  omega

/-- Without its microseconds an instant counts as its full seconds. -/
theorem epochSeconds_atSecond (t : Instant) : t.atSecond.epochSeconds = t.fullSecondsSince := by
  have hspan := t.sinceEpoch_atSecond
  have hexact : t.atSecond.sinceEpoch % secondMicros = 0 := by
    rw [hspan, Int.mul_emod_left]
  rw [epochSeconds_eq, if_neg (not_countsAhead_of_dvd hexact), Int.add_zero, fullSecondsSince, hspan]
  exact Int.mul_ediv_cancel _ (by decide)

end Instant

/-- A date and time without its microseconds. -/
def DateTime.atSecond (d : DateTime) : DateTime where
  wall := d.wall - d.wall % secondMicros
  offset := d.offset
  wall_lt := Nat.lt_of_le_of_lt (Nat.sub_le _ _) d.wall_lt

/-- Without the microseconds of the clock the instant is without its own, if the clock is whole seconds ahead of universal time. -/
theorem DateTime.utc?_atSecond {d : DateTime} {t : Instant} (hoffset : d.offset.getD 0 % secondMicros = 0) (h : d.utc? = some t) :
    d.atSecond.utc? = some t.atSecond := by
  have hwall : d.atSecond.wall = d.wall - d.wall % secondMicros := rfl
  have hsame : d.atSecond.offset = d.offset := rfl
  unfold utc? Instant.ofMicros? at h ⊢
  split at h
  · next hrange =>
    have hmicros : t.micros = ((d.wall : Int) - d.offset.getD 0).toNat := by
      rw [← Option.some.inj h]
    have hfull : (d.atSecond.wall : Int) - d.atSecond.offset.getD 0 = t.atSecond.micros := by
      have hpart : t.atSecond.micros = t.micros - t.micros % secondMicros := rfl
      rw [hpart, hmicros, hwall, hsame]
      unfold secondMicros at hoffset ⊢
      omega
    simp [hfull, t.atSecond.micros_lt]
  · cases h

end SignedCall
