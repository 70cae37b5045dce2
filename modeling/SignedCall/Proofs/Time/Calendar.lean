import Mathlib.Algebra.Ring.Nat
import Mathlib.Data.List.Lex
import Mathlib.Order.Monotone.Basic
import Mathlib.Tactic.Common
import SignedCall.Time.Calendar

/-!
# The days of the calendar

The date of a day is one of the calendar (`isValid_ofDays`), its day is the one it was made for (`toDays_ofDays`), and later days have
later dates: by year, then month, then day of the month (`numbers_ofDays_lt_iff`). Each rests on where years and months start, which is
known for the steps of `ofDays` one by one (`yearAndDay_spec`, `monthAndDay_spec`).
-/

namespace SignedCall.Date

/-! ## Years -/

/-- The number of days of a year. -/
def yearLength (year : Nat) : Nat := if isLeap year then 366 else 365

/-- Every fourth year is a leap year, but of the full centuries every fourth one only. -/
theorem isLeap_iff {year : Nat} : isLeap year = true ↔ year % 4 = 0 ∧ (year % 100 ≠ 0 ∨ year % 400 = 0) := by
  simp [isLeap]

/-- Every year starts where the one before it ends. -/
theorem daysBeforeYear_succ {year : Nat} (h : 1 ≤ year) : daysBeforeYear (year + 1) = daysBeforeYear year + yearLength year := by
  obtain ⟨y, rfl⟩ := Nat.exists_eq_add_of_le' h
  have hleap : yearLength (y + 1) + (if 100 ∣ y + 1 then 1 else 0) =
      365 + (if 4 ∣ y + 1 then 1 else 0) + (if 400 ∣ y + 1 then 1 else 0) := by
    unfold yearLength
    simp only [isLeap_iff]
    split_ifs <;> omega
  have hcenturies : y / 100 ≤ y / 4 := Nat.div_le_div_left (by decide) (by decide)
  unfold daysBeforeYear
  simp only [Nat.add_sub_cancel, Nat.succ_div]
  split_ifs at hleap ⊢ <;> omega

/-- Later years have at least as many days before them. -/
theorem daysBeforeYear_mono : Monotone daysBeforeYear := by
  refine monotone_nat_of_le_succ fun year => ?_
  rcases year.eq_zero_or_pos with rfl | hpos
  · exact Nat.le_refl 0
  · rw [daysBeforeYear_succ hpos]
    exact Nat.le_add_right _ _

section Parts

variable {cycles centuries quads years : Nat} (hcenturies : centuries ≤ 3) (hquads : quads ≤ 24) (hyears : years ≤ 3)

include hcenturies hquads hyears

/-- The days before a year, by its cycle of four centuries, its century, its four years, and its number in them. -/
theorem daysBeforeYear_parts : daysBeforeYear (cycles * 400 + centuries * 100 + quads * 4 + years + 1) =
    cycles * 146097 + centuries * 36524 + quads * 1461 + years * 365 := by
  have h4 : (cycles * 400 + centuries * 100 + quads * 4 + years) / 4 = cycles * 100 + centuries * 25 + quads := by omega
  have h100 : (cycles * 400 + centuries * 100 + quads * 4 + years) / 100 = cycles * 4 + centuries := by omega
  have h400 : (cycles * 400 + centuries * 100 + quads * 4 + years) / 400 = cycles := by omega
  unfold daysBeforeYear
  simp only [Nat.add_sub_cancel, h4, h100, h400]
  omega

/-- Every fourth year is a leap year, but the last one of a century only if its century is the fourth. -/
theorem isLeap_parts : isLeap (cycles * 400 + centuries * 100 + quads * 4 + years + 1) = true ↔
    years = 3 ∧ (quads = 24 → centuries = 3) := by
  rw [isLeap_iff]
  omega

end Parts

/-- The year of a day starts as many days before it as there are days of that year before it. -/
theorem yearAndDay_spec (days : Nat) : 1 ≤ (yearAndDay days).1 ∧
    daysBeforeYear (yearAndDay days).1 + (yearAndDay days).2 = days ∧ (yearAndDay days).2 < yearLength (yearAndDay days).1 := by
  unfold yearAndDay
  simp only
  -- Every step leaves a remainder for the next one. Only the last day of four centuries, and of four years, is one more than fits:
  -- `min` keeps it in the last century, and in the last year, which is a leap year then.
  generalize hcycles : days / 146097 = cycles
  generalize hcycleDays : days % 146097 = cycleDays
  generalize hcenturies : min (cycleDays / 36524) 3 = centuries
  generalize hcenturyDays : cycleDays - centuries * 36524 = centuryDays
  generalize hquads : centuryDays / 1461 = quads
  generalize hquadDays : centuryDays % 1461 = quadDays
  generalize hyears : min (quadDays / 365) 3 = years
  have hcentury : centuries ≤ 3 ∧ centuryDays ≤ 36524 ∧ (centuryDays = 36524 → centuries = 3) := by omega
  have hquad : quads ≤ 24 ∧ quadDays ≤ 1460 := by omega
  have hyear : years ≤ 3 ∧ years * 365 ≤ quadDays ∧ quadDays - years * 365 ≤ 365 ∧ (quadDays - years * 365 = 365 → years = 3) := by
    omega
  rw [daysBeforeYear_parts hcentury.1 hquad.1 hyear.1]
  refine ⟨Nat.le_add_left 1 _, by omega, ?_⟩
  unfold yearLength
  simp only [isLeap_parts hcentury.1 hquad.1 hyear.1]
  split <;> omega

/-! ## Months -/

/-- The months of a year have all its days. -/
theorem sum_monthLengths (year : Nat) : (monthLengths (isLeap year)).sum = yearLength year := by
  unfold yearLength
  cases isLeap year <;> rfl

/-- The day of a month comes as many days after the first month as there are days of that month and of those before it. -/
theorem monthAndDay_spec {lengths : List Nat} {n : Nat} (h : n < lengths.sum) (month : Nat) : ∃ k length,
    lengths[k]? = some length ∧ (monthAndDay month n lengths).1 = month + k ∧ 1 ≤ (monthAndDay month n lengths).2 ∧
    (monthAndDay month n lengths).2 ≤ length ∧ (lengths.take k).sum + ((monthAndDay month n lengths).2 - 1) = n := by
  induction lengths generalizing n month with
  | nil => simp at h
  | cons length rest ih =>
    rw [monthAndDay]
    split
    next hlt => exact ⟨0, length, rfl, rfl, Nat.le_add_left 1 n, hlt, by simp⟩
    next hge =>
      rw [List.sum_cons] at h
      obtain ⟨k, last, hget, hmonth, hfirst, hlast, hsum⟩ := ih (n := n - length) (by omega) (month + 1)
      refine ⟨k + 1, last, hget, by rw [hmonth]; omega, hfirst, hlast, ?_⟩
      rw [List.take_succ_cons, List.sum_cons]
      omega

/-- A month ends before any later one starts. -/
theorem sum_take_add_le {lengths : List Nat} {k k' length : Nat} (h : lengths[k]? = some length) (hlt : k < k') :
    (lengths.take k).sum + length ≤ (lengths.take k').sum := by
  have hnext : (lengths.take (k + 1)).sum = (lengths.take k).sum + length := by
    rw [List.take_add_one, h, List.sum_append]
    simp
  rw [← hnext, ← List.take_append_drop (k + 1) (lengths.take k'), List.take_take, Nat.min_eq_left hlt, List.sum_append]
  exact Nat.le_add_right _ _

/-! ## Dates -/

/-- A date is one of the calendar if its year is, if the year has its month, and the month its day. -/
theorem isValid_iff (d : Date) : d.isValid = true ↔ 1 ≤ d.year ∧ d.year ≤ maxYear ∧ 1 ≤ d.month ∧
    ∃ length, (monthLengths (isLeap d.year))[d.month - 1]? = some length ∧ 1 ≤ d.day ∧ d.day ≤ length := by
  have hmonths : (monthLengths (isLeap d.year)).length = 12 := rfl
  unfold isValid
  simp only [Bool.and_eq_true, decide_eq_true_eq]
  constructor
  · rintro ⟨⟨⟨⟨⟨hyear, hyear'⟩, hmonth⟩, hmonth'⟩, hday⟩, hday'⟩
    have hlt : d.month - 1 < (monthLengths (isLeap d.year)).length := by omega
    rw [List.getElem?_eq_getElem hlt] at hday' ⊢
    exact ⟨hyear, hyear', hmonth, _, rfl, hday, hday'⟩
  · rintro ⟨hyear, hyear', hmonth, length, hlength, hday, hday'⟩
    obtain ⟨hlt, -⟩ := List.getElem?_eq_some_iff.1 hlength
    rw [hlength]
    exact ⟨⟨⟨⟨⟨hyear, hyear'⟩, hmonth⟩, by omega⟩, hday⟩, hday'⟩

/-- Months and days are numbers of at most two digits. -/
theorem month_day_le {d : Date} (h : d.isValid = true) : d.month ≤ 12 ∧ d.day ≤ 31 := by
  obtain ⟨-, -, -, length, hlength, -, hday⟩ := d.isValid_iff.1 h
  obtain ⟨hmonth, -⟩ := List.getElem?_eq_some_iff.1 hlength
  have hlongest : ∀ leap, ∀ length ∈ monthLengths leap, length ≤ 31 := by decide
  have hmonths : (monthLengths (isLeap d.year)).length = 12 := rfl
  exact ⟨by omega, hday.trans (hlongest _ _ (List.mem_of_getElem? hlength))⟩

/-- A day is counted by the years, the months and the days before it. -/
theorem toDays_eq (d : Date) : d.toDays =
    daysBeforeYear d.year + ((monthLengths (isLeap d.year)).take (d.month - 1)).sum + (d.day - 1) := by
  rw [toDays, List.sum_eq_foldl]

/-- The days of a year lie between its start and the start of the next one. -/
theorem toDays_lt {d : Date} (h : d.isValid = true) : d.toDays < daysBeforeYear (d.year + 1) := by
  obtain ⟨hyear, -, -, length, hlength, hday, hday'⟩ := d.isValid_iff.1 h
  obtain ⟨hlt, -⟩ := List.getElem?_eq_some_iff.1 hlength
  have hsum := sum_take_add_le hlength hlt
  rw [List.take_length, sum_monthLengths] at hsum
  rw [toDays_eq, daysBeforeYear_succ hyear]
  omega

/-- The date of a day is made of its year, and of the month and day of its number in the year. -/
theorem ofDays_eq {days year n month day : Nat} (h : yearAndDay days = (year, n))
    (h' : monthAndDay 1 n (monthLengths (isLeap year)) = (month, day)) : ofDays days = ⟨year, month, day⟩ := by
  rw [ofDays, h]
  simp only
  rw [h']

/-- The year of a day is found first. -/
theorem year_ofDays (days : Nat) : (ofDays days).year = (yearAndDay days).1 := by
  rcases h : yearAndDay days with ⟨year, n⟩
  rcases h' : monthAndDay 1 n (monthLengths (isLeap year)) with ⟨month, day⟩
  rw [ofDays_eq h h']

/-- The year of a day has the month, the month has the day, and the date comes as many days after the first one. -/
theorem ofDays_spec (days : Nat) : 1 ≤ (ofDays days).month ∧ (∃ length,
    (monthLengths (isLeap (ofDays days).year))[(ofDays days).month - 1]? = some length ∧
    1 ≤ (ofDays days).day ∧ (ofDays days).day ≤ length) ∧ (ofDays days).toDays = days := by
  obtain ⟨-, hdays, hlt⟩ := yearAndDay_spec days
  rcases h : yearAndDay days with ⟨year, n⟩
  rw [h] at hdays hlt
  obtain ⟨k, length, hget, hmonth, hfirst, hlast, hsum⟩ := monthAndDay_spec (sum_monthLengths year ▸ hlt) 1
  rcases h' : monthAndDay 1 n (monthLengths (isLeap year)) with ⟨month, day⟩
  rw [h'] at hmonth hfirst hlast hsum
  obtain rfl : month = 1 + k := hmonth
  rw [ofDays_eq h h', toDays_eq]
  simp only [Nat.add_sub_cancel_left]
  refine ⟨Nat.le_add_right 1 k, ⟨length, hget, hfirst, hlast⟩, ?_⟩
  rw [Nat.add_assoc, hsum, hdays]

/-- The day of the date of a day is that day. -/
@[simp] theorem toDays_ofDays (days : Nat) : (ofDays days).toDays = days := by
  obtain ⟨-, -, hdays⟩ := ofDays_spec days
  exact hdays

/-- The years from the given one on have the days from its start on. -/
theorem le_year_ofDays_iff {year days : Nat} : year ≤ (ofDays days).year ↔ daysBeforeYear year ≤ days := by
  obtain ⟨hyear, hdays, hlt⟩ := yearAndDay_spec days
  have hnext := daysBeforeYear_succ hyear
  rw [year_ofDays]
  constructor
  · intro h
    have hmono := daysBeforeYear_mono h
    omega
  · intro h
    by_contra hgt
    have hmono := daysBeforeYear_mono (show (yearAndDay days).1 + 1 ≤ year by omega)
    omega

/-- The date of a day is one of the calendar. -/
theorem isValid_ofDays {days : Nat} (h : days < limit) : (ofDays days).isValid = true := by
  obtain ⟨hmonth, hday, -⟩ := ofDays_spec days
  have hfirst : 1 ≤ (ofDays days).year := by
    rw [year_ofDays]
    exact (yearAndDay_spec days).1
  have hlast : ¬maxYear + 1 ≤ (ofDays days).year := by
    rw [le_year_ofDays_iff]
    exact Nat.not_le_of_lt h
  exact (isValid_iff _).2 ⟨hfirst, by omega, hmonth, hday⟩

/-! ## The order of dates -/

/-- Year, month and day of the month. -/
def numbers (d : Date) : List Nat := [d.year, d.month, d.day]

theorem length_numbers (d : Date) : d.numbers.length = 3 := rfl

/-- A date is told by its year, month and day of the month. -/
theorem numbers_injective : Function.Injective numbers := by
  rintro ⟨_, _, _⟩ ⟨_, _, _⟩ h
  simp only [numbers, List.cons.injEq, and_true] at h
  simp only [mk.injEq]
  exact h

/-- A date that is later by year, then month, then day of the month has a later day. -/
theorem toDays_lt_toDays {d d' : Date} (h : d.isValid = true) (h' : d'.isValid = true) (hlt : d.numbers < d'.numbers) :
    d.toDays < d'.toDays := by
  obtain ⟨-, -, hmonth, length, hlength, hday, hday'⟩ := d.isValid_iff.1 h
  obtain ⟨-, -, hmonth', -, -, hfirst, -⟩ := d'.isValid_iff.1 h'
  simp only [numbers, List.cons_lt_cons_iff, List.not_lt_nil, and_false, or_false] at hlt
  rcases hlt with hyear | ⟨hyear, hmonths | ⟨hmonths, hdays⟩⟩
  · have hstart := daysBeforeYear_mono (show d.year + 1 ≤ d'.year from hyear)
    have hend := toDays_lt h
    rw [toDays_eq d']
    omega
  · have hend := sum_take_add_le hlength (show d.month - 1 < d'.month - 1 by omega)
    rw [toDays_eq, toDays_eq, ← hyear]
    omega
  · rw [toDays_eq, toDays_eq, ← hyear, ← hmonths]
    omega

/-- The dates of the calendar are ordered like its days. -/
theorem numbers_ofDays_lt_iff {days days' : Nat} (h : days < limit) (h' : days' < limit) :
    (ofDays days).numbers < (ofDays days').numbers ↔ days < days' := by
  constructor
  · intro hlt
    simpa using toDays_lt_toDays (isValid_ofDays h) (isValid_ofDays h') hlt
  · intro hlt
    rcases lt_trichotomy (ofDays days).numbers (ofDays days').numbers with hdates | hdates | hdates
    · exact hdates
    · have hsame := congrArg toDays (numbers_injective hdates)
      rw [toDays_ofDays, toDays_ofDays] at hsame
      omega
    · have hback := toDays_lt_toDays (isValid_ofDays h') (isValid_ofDays h) hdates
      rw [toDays_ofDays, toDays_ofDays] at hback
      omega

end SignedCall.Date
