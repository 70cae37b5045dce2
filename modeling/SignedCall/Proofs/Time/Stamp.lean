import Mathlib.Data.String.Basic
import SignedCall.Proofs.Time.Fields
import SignedCall.Proofs.Time.IsoDate
import SignedCall.Time.Stamp

/-!
# Stamps

From year 1000 on the fields of a stamp stand in columns (`Instant.row_stamp`). So a stamp has one form and one length, is read as its
instant cut to milliseconds, and the stamps of two instants are ordered like the instants to the millisecond (`stamps_in_order`),
whatever the clocks read that the instants were told by.
-/

namespace SignedCall

/-- The columns of a stamp look like the form of a date and time with milliseconds. -/
theorem form_columns : Row.form IsoDate.columns = "0000-00-00T00:00:00.000Z".toList := by decide

namespace Instant

/-- The first moment of a year. -/
def startOfYear (year : Nat) : Nat := Date.daysBeforeYear year * dayMicros

/-- The fields of an instant. -/
def fields (t : Instant) : Fields := Fields.ofMicros t.micros

/-- An instant cut to milliseconds. -/
def atMilli (t : Instant) : Instant where
  micros := t.micros / 1000 * 1000
  micros_lt := Nat.lt_of_le_of_lt (Nat.div_mul_le_self _ _) t.micros_lt

variable {t t' : Instant}

/-- The date of an instant is one of the calendar. -/
theorem isValid_date (t : Instant) : t.fields.date.isValid = true := Date.isValid_ofDays (Fields.day_lt t.micros_lt)

/-- An instant from the first moment of a year on is in that year or a later one. -/
theorem le_year_fields {year : Nat} (h : startOfYear year ≤ t.micros) : year ≤ t.fields.date.year :=
  Date.le_year_ofDays_iff.2 ((Nat.le_div_iff_mul_le (by decide)).2 h)

/-- From year 1000 on the fields of a stamp stand in columns. -/
theorem row_stamp (h : startOfYear 1000 ≤ t.micros) : Row IsoDate.columns t.fields.numbers t.stamp.toList := by
  have hyear := le_year_fields h
  have hlast := ((Date.isValid_iff _).1 t.isValid_date).2.1
  obtain ⟨hmonth, hday⟩ := Date.month_day_le t.isValid_date
  obtain ⟨hhour, hminute, hsecond, hmicro⟩ := Fields.clock_lt t.micros
  have hmilli : t.fields.micro / 1000 < 1000 := Nat.div_lt_of_lt_mul hmicro
  have htext : t.stamp.toList = (toString t.fields.date.year).toList ++ '-' :: ((padded 2 t.fields.date.month).toList ++
      '-' :: ((padded 2 t.fields.date.day).toList ++ 'T' :: ((padded 2 t.fields.hour).toList ++
      ':' :: ((padded 2 t.fields.minute).toList ++ ':' :: ((padded 2 t.fields.second).toList ++
      '.' :: ((padded 3 (t.fields.micro / 1000)).toList ++ ['Z'])))))) := by
    simp [stamp, fields]
  rw [htext]
  exact .cons (fills_toString hyear (Nat.lt_of_le_of_lt hlast (by decide))) <|
    .cons (fills_padded (by decide) (Nat.lt_of_le_of_lt hmonth (by decide))) <|
    .cons (fills_padded (by decide) (Nat.lt_of_le_of_lt hday (by decide))) <|
    .cons (fills_padded (by decide) (Nat.lt_trans hhour (by decide))) <|
    .cons (fills_padded (by decide) (Nat.lt_trans hminute (by decide))) <|
    .cons (fills_padded (by decide) (Nat.lt_trans hsecond (by decide))) <|
    .cons (fills_padded (by decide) hmilli) .nil

/-- A stamp is read as its instant cut to milliseconds. -/
theorem read?_stamp (h : startOfYear 1000 ≤ t.micros) : IsoDate.read? t.stamp = some t.atMilli.toDateTime := by
  rw [IsoDate.read?_row (row_stamp h) (Fields.micros?_atMilli t.micros_lt)]
  exact dif_pos ⟨Int.natCast_nonneg _, t.atMilli.micros_lt⟩

/-- Stamps are ordered like their instants to the millisecond. -/
theorem stamp_lt_iff (h : startOfYear 1000 ≤ t.micros) (h' : startOfYear 1000 ≤ t'.micros) :
    t.stamp < t'.stamp ↔ t.micros / 1000 < t'.micros / 1000 := by
  rw [String.lt_iff_toList_lt, (row_stamp h).lt_iff (row_stamp h')]
  exact Fields.numbers_ofMicros_lt_iff t.micros_lt t'.micros_lt

/-- Stamps are the same if their instants are to the millisecond. -/
theorem stamp_eq_iff (h : startOfYear 1000 ≤ t.micros) (h' : startOfYear 1000 ≤ t'.micros) :
    t.stamp = t'.stamp ↔ t.micros / 1000 = t'.micros / 1000 :=
  eq_iff_of_lt_iff (stamp_lt_iff h h') (stamp_lt_iff h' h)

/-- From year 1000 on all stamps have the same form. -/
theorem hasForm_stamp (h : startOfYear 1000 ≤ t.micros) : Row.HasForm "0000-00-00T00:00:00.000Z".toList t.stamp.toList := by
  rw [← form_columns]
  exact (row_stamp h).hasForm

/-- From year 1000 on all stamps are of the same length. -/
theorem length_stamp (h : startOfYear 1000 ≤ t.micros) : t.stamp.length = 24 := by
  rw [← String.length_toList, ← (hasForm_stamp h).length_eq]
  rfl

end Instant

namespace DateTime

/-- The microseconds of universal time that a reading stands for, in the calendar or not. -/
def universal (d : DateTime) : Int := d.wall - d.offset.getD 0

/-- Whether a reading stands for a moment of the years from `first` to `last`. -/
def InYears (first last : Nat) (d : DateTime) : Prop :=
  Instant.startOfYear first ≤ d.universal ∧ d.universal < Instant.startOfYear (last + 1)

instance (first last : Nat) (d : DateTime) : Decidable (d.InYears first last) := inferInstanceAs (Decidable (_ ∧ _))

/-- A reading that stands for a moment of these years denotes it. -/
theorem InYears.exists_instant {d : DateTime} (h : d.InYears 1000 9999) :
    ∃ t, d.utc? = some t ∧ t.micros = d.universal ∧ Instant.startOfYear 1000 ≤ t.micros := by
  obtain ⟨hfirst, hlast⟩ := h
  have hlimit : Instant.startOfYear (9999 + 1) = timeLimit := by decide +kernel
  rw [hlimit] at hlast
  have hrange : 0 ≤ d.universal ∧ d.universal.toNat < timeLimit := by omega
  refine ⟨⟨d.universal.toNat, hrange.2⟩, dif_pos hrange, Int.toNat_of_nonneg hrange.1, ?_⟩
  show Instant.startOfYear 1000 ≤ d.universal.toNat
  omega

end DateTime

/-- The stamp of every date and time of the years 1000 to 9999, wherever its clock is, has 24 characters in one form, and is read as
its moment of universal time cut to milliseconds. So the same moment has the same stamp wherever it is told, and the order of any two
stamps as texts is that of their moments to the millisecond. -/
theorem stamps_in_order {d d' : DateTime} (h : d.InYears 1000 9999) (h' : d'.InYears 1000 9999) :
    ∃ t t', d.utc? = some t ∧ d'.utc? = some t' ∧
      (t.stamp.length = 24 ∧ Row.HasForm "0000-00-00T00:00:00.000Z".toList t.stamp.toList ∧
        ∃ r, IsoDate.read? t.stamp = some r ∧ r.offset = some 0 ∧ (r.wall : Int) = d.universal / 1000 * 1000) ∧
      (d.universal = d'.universal → t.stamp = t'.stamp) ∧
      (t.stamp < t'.stamp ↔ d.universal / 1000 < d'.universal / 1000) ∧
      (t.stamp = t'.stamp ↔ d.universal / 1000 = d'.universal / 1000) := by
  obtain ⟨t, ht, hmicros, hstart⟩ := h.exists_instant
  obtain ⟨t', ht', hmicros', hstart'⟩ := h'.exists_instant
  refine ⟨t, t', ht, ht', ⟨Instant.length_stamp hstart, Instant.hasForm_stamp hstart, t.atMilli.toDateTime,
    Instant.read?_stamp hstart, rfl, ?_⟩, ?_, ?_, ?_⟩
  · rw [← hmicros]
    rfl
  · intro hsame
    have hboth : t.micros = t'.micros := by omega
    rw [Instant.stamp_eq_iff hstart hstart', hboth]
  · rw [Instant.stamp_lt_iff hstart hstart', ← hmicros, ← hmicros']
    omega
  · rw [Instant.stamp_eq_iff hstart hstart', ← hmicros, ← hmicros']
    omega

/-- The last microsecond of a millisecond, told by a clock an hour ahead on the next day, which is a leap day, and the microsecond after
it, told by a clock of universal time. -/
theorem stamps_in_order_leapDay :
    DateTime.InYears 1000 9999 ⟨63844763400000999, some 3600000000, by decide⟩ ∧
      DateTime.InYears 1000 9999 ⟨63844759800001000, none, by decide⟩ ∧
      ∃ t t', DateTime.utc? ⟨63844763400000999, some 3600000000, by decide⟩ = some t ∧
        DateTime.utc? ⟨63844759800001000, none, by decide⟩ = some t' ∧
        t.stamp.length = 24 ∧ Row.HasForm "0000-00-00T00:00:00.000Z".toList t.stamp.toList ∧
        (∃ r, IsoDate.read? t.stamp = some r ∧ r.offset = some 0 ∧ (r.wall : Int) = 63844759800000000) ∧
        t.stamp < t'.stamp ∧ t.stamp ≠ t'.stamp := by
  have h : DateTime.InYears 1000 9999 ⟨63844763400000999, some 3600000000, by decide⟩ := by decide +kernel
  have h' : DateTime.InYears 1000 9999 ⟨63844759800001000, none, by decide⟩ := by decide +kernel
  obtain ⟨t, t', ht, ht', ⟨hlength, hform, r, hread, hoffset, hwall⟩, -, hlt, heq⟩ := stamps_in_order h h'
  exact ⟨h, h', t, t', ht, ht', hlength, hform, ⟨r, hread, hoffset, hwall⟩, hlt.2 (by decide),
    fun hsame => absurd (heq.1 hsame) (by decide)⟩

end SignedCall
