import SignedCall.Proofs.Time.Columns
import SignedCall.Time.IsoDate

/-!
# Reading dates in columns

A text with year, month, day, hour, minute, second and millisecond in columns of their own, with the marks of universal time between
and after them, is read as the moment with these fields (`read?_row`). The reader finds the columns one by one: a number that fills
its width is read up to where it ends (`digits?_of_fills`), and no digit is taken for one of the marks that it looks for.
-/

namespace SignedCall

open Text (isAsciiDigit natOfDigits)

namespace Fills

variable {width n : Nat} {ds : List Char}

/-- No column starts with anything but a digit. -/
theorem head?_ne (h : Fills (width + 1) n ds) {c : Char} (hc : isAsciiDigit c = false) (rest : List Char) :
    (ds ++ rest).head? ≠ some c := by
  obtain ⟨d, more, rfl⟩ := List.exists_cons_of_length_eq_add_one h.length
  intro hhead
  rw [List.cons_append, List.head?_cons, Option.some.injEq] at hhead
  have hd := h.digit d List.mem_cons_self
  rw [hhead, hc] at hd
  cases hd

/-- What comes behind a column, counted from the end of it. -/
theorem getElem?_append (h : Fills width n ds) (rest : List Char) (k : Nat) : (ds ++ rest)[width + k]? = rest[k]? := by
  rw [List.getElem?_append_right (by rw [h.length]; omega), h.length, Nat.add_sub_cancel_left]

theorem drop_append (h : Fills width n ds) (rest : List Char) (k : Nat) : (ds ++ rest).drop (width + k) = rest.drop k := by
  rw [← h.length, ← List.drop_drop, List.drop_left]

end Fills

namespace IsoDate

/-- The columns of a stamp, from the year to the milliseconds. -/
def columns : List Column := [(4, '-'), (2, '-'), (2, 'T'), (2, ':'), (2, ':'), (2, '.'), (3, 'Z')]

/-- A number is read from its column up to the end of it. -/
theorem digits?_of_fills {width n : Nat} {ds : List Char} (h : Fills width n ds) (rest : List Char) :
    digits? width (ds ++ rest) = some (n, rest) := by
  obtain ⟨rfl, hdigits, rfl⟩ := h
  induction ds with
  | nil => rfl
  | cons c ds ih =>
    rw [List.forall_mem_cons] at hdigits
    rw [List.cons_append, List.length_cons, digits?, if_pos hdigits.1, ih hdigits.2, Option.map_some, Text.natOfDigits_cons]

variable {year month day hour minute second milli : Nat} {ys ms ds hs ns ss fs : List Char}

/-- A date with a dash after its year and no week has ten characters. -/
theorem dateLength?_eq_ten {cs : List Char} (hlength : 7 < cs.length) (hdash : cs[4]? = some '-') (hweek : cs[5]? ≠ some 'W') :
    dateLength? cs = some 10 := by
  unfold dateLength?
  simp only [hdash, beq_self_eq_true, beq_false_of_ne hweek, if_true, Bool.false_eq_true, if_false]
  rw [if_neg (by omega), if_neg (by omega)]

/-- A date in columns is ten characters long. -/
theorem dateLength?_columns (hyear : Fills 4 year ys) (hmonth : Fills 2 month ms) (rest : List Char) (hrest : 1 ≤ rest.length) :
    dateLength? (ys ++ '-' :: (ms ++ rest)) = some 10 := by
  refine dateLength?_eq_ten ?_ (hyear.getElem?_append _ 0) ?_
  · simp only [List.length_append, List.length_cons, hyear.length, hmonth.length]
    omega
  · have hnext : (ys ++ '-' :: (ms ++ rest))[5]? = (ms ++ rest).head? := by
      rw [List.head?_eq_getElem?]
      exact hyear.getElem?_append _ 1
    rw [hnext]
    exact hmonth.head?_ne (by decide) rest

/-- A date in columns is read as its year, month and day. -/
theorem readDate?_columns (hyear : Fills 4 year ys) (hmonth : Fills 2 month ms) (hday : Fills 2 day ds) (rest : List Char)
    (length : Nat) : readDate? (ys ++ '-' :: (ms ++ '-' :: (ds ++ rest))) length = some ⟨year, month, day⟩ := by
  have hweek := beq_false_of_ne (hmonth.head?_ne (c := 'W') (by decide) ('-' :: (ds ++ rest)))
  unfold readDate?
  simp only [digits?_of_fills hyear, digits?_of_fills hmonth, digits?_of_fills hday, hweek, List.head?_cons, List.tail_cons,
    beq_self_eq_true, if_true, Bool.false_eq_true, if_false, Option.bind_eq_bind, Option.bind_some]

/-! ## The time -/

section Time

/-- The columns of the time of day, without the mark behind them. -/
def timeColumns (hs ns ss fs : List Char) : List Char := hs ++ ':' :: (ns ++ ':' :: (ss ++ '.' :: fs))

theorem timeColumns_append (rest : List Char) :
    timeColumns hs ns ss fs ++ rest = hs ++ ':' :: (ns ++ ':' :: (ss ++ '.' :: (fs ++ rest))) := by
  simp [timeColumns]

variable (hhour : Fills 2 hour hs) (hminute : Fills 2 minute ns) (hsecond : Fills 2 second ss) (hmilli : Fills 3 milli fs)

include hmilli in

/-- Three digits of a second and the mark of universal time are read as milliseconds. -/
theorem readFraction?_columns (clock : Clock) :
    readFraction? clock (fs ++ ['Z']) 3 = some ({ clock with micro := milli * 1000 }, true) := by
  have hleft : (['Z'].dropWhile isAsciiDigit).head?.getD '\x00' != '\x00' := by decide
  unfold readFraction?
  simp only [show min 6 3 = 3 from rfl, digits?_of_fills hmilli, Option.bind_eq_bind, Option.bind_some, hleft]

include hhour hminute hsecond hmilli

/-- The time of day is read up to the mark of universal time, which is left. -/
theorem readClock?_columns :
    readClock? (timeColumns hs ns ss fs ++ ['Z']) 12 = some (⟨hour, minute, second, milli * 1000⟩, true) := by
  rw [timeColumns_append]
  unfold readClock?
  simp [readComponents?, readFraction?_columns hmilli, digits?_of_fills hhour, digits?_of_fills hminute,
    digits?_of_fills hsecond, Clock.set]

/-- A time of day is made of digits and of the marks between them. -/
theorem mem_timeColumns : ∀ c ∈ timeColumns hs ns ss fs, isAsciiDigit c = true ∨ c = ':' ∨ c = '.' := by
  intro c hc
  simp only [timeColumns, List.mem_append, List.mem_cons] at hc
  rcases hc with hc | rfl | hc | rfl | hc | rfl | hc
  · exact .inl (hhour.digit c hc)
  · exact .inr (.inl rfl)
  · exact .inl (hminute.digit c hc)
  · exact .inr (.inl rfl)
  · exact .inl (hsecond.digit c hc)
  · exact .inr (.inr rfl)
  · exact .inl (hmilli.digit c hc)

omit hhour hminute hsecond hmilli in
/-- None of these characters begins a zone, and all of them are of one byte. -/
theorem plain_cases {c : Char} (h : isAsciiDigit c = true ∨ c = ':' ∨ c = '.') :
    (!(c == '+' || c == '-' || c == 'Z')) = true ∧ c.utf8Size = 1 := by
  rcases h with h | rfl | rfl
  · have hrange := Text.isAsciiDigit_iff.1 h
    refine ⟨?_, Char.utf8Size_eq_one_iff.2 (UInt32.le_iff_toNat_le.2 (Nat.le_trans hrange.2 (by decide)))⟩
    simp only [Bool.not_eq_true', Bool.or_eq_false_iff, beq_eq_false_iff_ne, ne_eq]
    refine ⟨⟨?_, ?_⟩, ?_⟩ <;> rintro rfl <;> exact absurd h (by decide)
  · decide
  · decide

omit hhour hminute hsecond hmilli in
/-- A text of characters of one byte is counted as it is. -/
theorem timePart_eq_self {cs : List Char} (h : ∀ c ∈ cs, c.utf8Size = 1) : timePart cs = cs := by
  induction cs with
  | nil => rfl
  | cons c cs ih =>
    rw [List.forall_mem_cons] at h
    show List.replicate c.utf8Size c ++ timePart cs = c :: cs
    rw [h.1, ih h.2]
    rfl

/-- A time of day with the mark of universal time is read as this time. -/
theorem readTime?_columns :
    readTime? (timePart (timeColumns hs ns ss fs ++ ['Z'])) = some (⟨hour, minute, second, milli * 1000⟩, some 0) := by
  have hplain := fun c hc => plain_cases (mem_timeColumns hhour hminute hsecond hmilli c hc)
  have hpart : timePart (timeColumns hs ns ss fs ++ ['Z']) = timeColumns hs ns ss fs ++ ['Z'] := by
    refine timePart_eq_self fun c hc => ?_
    rw [List.mem_append, List.mem_singleton] at hc
    rcases hc with hc | rfl
    · exact (hplain c hc).2
    · rfl
  have hzone : (timeColumns hs ns ss fs ++ ['Z']).dropWhile (fun c => !(c == '+' || c == '-' || c == 'Z')) = ['Z'] := by
    rw [List.dropWhile_append_of_pos fun c hc => (hplain c hc).1]
    rfl
  have hlength : (timeColumns hs ns ss fs ++ ['Z']).length - ['Z'].length = 12 := by
    simp only [timeColumns, List.length_append, List.length_cons, List.length_nil, hhour.length, hminute.length, hsecond.length,
      hmilli.length]
  unfold readTime?
  simp only [hpart, hzone, hlength, readClock?_columns hhour hminute hsecond hmilli, Option.bind_eq_bind, Option.bind_some]
  rfl

end Time

/-! ## Dates and times -/

/-- Behind a date in columns and one more character stands the time. -/
theorem read?_columns {text : String} {time : List Char} (hyear : Fills 4 year ys) (hmonth : Fills 2 month ms)
    (hday : Fills 2 day ds) (htext : text.toList = ys ++ '-' :: (ms ++ '-' :: (ds ++ 'T' :: time))) : read? text =
      (readTime? (timePart time)).bind fun (clock, offset) =>
        (Fields.micros? ⟨⟨year, month, day⟩, clock.hour, clock.minute, clock.second, clock.micro⟩).bind fun micros =>
          DateTime.ofMicros? micros offset := by
  have hdate := dateLength?_columns hyear hmonth ('-' :: (ds ++ 'T' :: time)) (Nat.le_add_left 1 _)
  have hlong : ¬(ys ++ '-' :: (ms ++ '-' :: (ds ++ 'T' :: time))).length ≤ 10 := by
    simp only [List.length_append, List.length_cons, hyear.length, hmonth.length, hday.length]
    omega
  have hdrop : (ys ++ '-' :: (ms ++ '-' :: (ds ++ 'T' :: time))).drop (10 + 1) = time := by
    calc (ys ++ '-' :: (ms ++ '-' :: (ds ++ 'T' :: time))).drop (10 + 1)
        = (ms ++ '-' :: (ds ++ 'T' :: time)).drop 6 := hyear.drop_append _ 7
      _ = (ds ++ 'T' :: time).drop 3 := hmonth.drop_append _ 4
      _ = time := hday.drop_append _ 1
  unfold read?
  simp only [htext, hdate, readDate?_columns hyear hmonth hday, hlong, if_false, hdrop, Option.bind_eq_bind, Option.bind_some]

/-- A row of numbers is read as the moment of universal time with these fields. -/
theorem read?_row {text : String} {micros : Nat} (hrow : Row columns [year, month, day, hour, minute, second, milli] text.toList)
    (hmicros : Fields.micros? ⟨⟨year, month, day⟩, hour, minute, second, milli * 1000⟩ = some micros) :
    read? text = DateTime.ofMicros? micros (some 0) := by
  generalize htext : text.toList = cs at hrow
  obtain _ | ⟨hyear, _ | ⟨hmonth, _ | ⟨hday, htime⟩⟩⟩ := hrow
  obtain _ | ⟨hhour, _ | ⟨hminute, _ | ⟨hsecond, _ | ⟨hmilli, _ | _⟩⟩⟩⟩ := htime
  rw [read?_columns hyear hmonth hday htext, ← timeColumns_append, readTime?_columns hhour hminute hsecond hmilli]
  simp only [Option.bind_some, hmicros]

end IsoDate

end SignedCall
