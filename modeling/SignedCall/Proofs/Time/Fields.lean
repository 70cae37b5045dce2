import SignedCall.Proofs.Time.Calendar
import SignedCall.Proofs.Time.Columns

/-!
# The fields of moments

The fields of every moment of the calendar are in range, and give the moment back (`micros?_ofMicros`). Cut to milliseconds they are
those of the moment cut to milliseconds (`ofMicros_atMilli`), and they are ordered like such moments (`numbers_ofMicros_lt_iff`).
-/

namespace SignedCall.Fields

/-- The day of a moment is one of the calendar. -/
theorem day_lt {n : Nat} (h : n < timeLimit) : n / dayMicros < Date.limit := Nat.div_lt_of_lt_mul (Nat.mul_comm _ _ ▸ h)

/-- The time of day is in range. -/
theorem clock_lt (n : Nat) : (ofMicros n).hour < 24 ∧ (ofMicros n).minute < 60 ∧ (ofMicros n).second < 60 ∧
    (ofMicros n).micro < secondMicros := by
  have hrest : n % dayMicros < dayMicros := Nat.mod_lt n (by decide)
  unfold ofMicros
  generalize n % dayMicros = rest at *
  unfold dayMicros secondMicros at *
  refine ⟨?_, ?_, ?_, ?_⟩ <;> simp only <;> omega

/-- The fields of a moment give it back. -/
theorem micros?_ofMicros {n : Nat} (h : n < timeLimit) : (ofMicros n).micros? = some n := by
  have hvalid := Date.isValid_ofDays (day_lt h)
  have hday := Nat.div_add_mod n dayMicros
  obtain ⟨hhour, hminute, hsecond, hmicro⟩ := clock_lt n
  unfold micros?
  simp only [Bool.and_eq_true, decide_eq_true_eq]
  rw [if_pos ⟨⟨⟨⟨hvalid, hhour⟩, hminute⟩, hsecond⟩, hmicro⟩]
  unfold ofMicros
  simp only [Date.toDays_ofDays, Option.some.injEq]
  generalize n / dayMicros = days at *
  generalize n % dayMicros = rest at *
  unfold dayMicros secondMicros at *
  omega

/-- The fields with the microseconds cut to full milliseconds. -/
def atMilli (f : Fields) : Fields := { f with micro := f.micro / 1000 * 1000 }

/-- Cutting the fields cuts the moment. -/
theorem ofMicros_atMilli (n : Nat) : (ofMicros n).atMilli = ofMicros (n / 1000 * 1000) := by
  have hday : n / 1000 * 1000 / dayMicros = n / dayMicros := by
    unfold dayMicros secondMicros
    omega
  have hrest : n / 1000 * 1000 % dayMicros = n % dayMicros / 1000 * 1000 := by
    unfold dayMicros secondMicros
    omega
  unfold atMilli ofMicros
  simp only [hday, hrest, mk.injEq, true_and]
  generalize n % dayMicros = rest
  unfold secondMicros
  omega

/-- Fields cut to milliseconds give the moment cut to milliseconds. -/
theorem micros?_atMilli {n : Nat} (h : n < timeLimit) : (ofMicros n).atMilli.micros? = some (n / 1000 * 1000) := by
  rw [ofMicros_atMilli]
  exact micros?_ofMicros (Nat.lt_of_le_of_lt (Nat.div_mul_le_self n 1000) h)

/-! ## The order of fields -/

/-- Hour, minute, second and millisecond. -/
def clock (f : Fields) : List Nat := [f.hour, f.minute, f.second, f.micro / 1000]

/-- The date and the time of day to the millisecond. -/
def numbers (f : Fields) : List Nat := f.date.numbers ++ f.clock

/-- The times of one day are ordered like the milliseconds since its beginning. -/
theorem clock_ofMicros_lt_iff (n n' : Nat) :
    (ofMicros n).clock < (ofMicros n').clock ↔ n % dayMicros / 1000 < n' % dayMicros / 1000 := by
  simp only [clock, ofMicros, List.cons_lt_cons_iff, List.not_lt_nil, and_false, or_false]
  generalize n % dayMicros = rest
  generalize n' % dayMicros = rest'
  unfold secondMicros
  omega

/-- The fields of moments are ordered like the moments to the millisecond. -/
theorem numbers_ofMicros_lt_iff {n n' : Nat} (h : n < timeLimit) (h' : n' < timeLimit) :
    (ofMicros n).numbers < (ofMicros n').numbers ↔ n / 1000 < n' / 1000 := by
  have hdate : (ofMicros n).date.numbers < (ofMicros n').date.numbers ↔ n / dayMicros < n' / dayMicros :=
    Date.numbers_ofDays_lt_iff (day_lt h) (day_lt h')
  have hback : (ofMicros n').date.numbers < (ofMicros n).date.numbers ↔ n' / dayMicros < n / dayMicros :=
    Date.numbers_ofDays_lt_iff (day_lt h') (day_lt h)
  have hsame := eq_iff_of_lt_iff hdate hback
  have hlength : (ofMicros n).date.numbers.length = (ofMicros n').date.numbers.length := by
    rw [Date.length_numbers, Date.length_numbers]
  rw [numbers, numbers, append_lt_append_iff hlength, hdate, hsame, clock_ofMicros_lt_iff]
  unfold dayMicros secondMicros
  omega

end SignedCall.Fields
