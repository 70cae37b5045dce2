import SignedCall.Number.Reading
import SignedCall.Proofs.Number.Rounding

/-!
# What decimal numbers are rounded to

A text writes one of the names of infinity and of the undefined number, or a decimal (`Written`), and is read as what is nearest to that
(`ofText?_eq`). A decimal is read as a finite number with its sign, which is zero exactly up to half of the least positive one, or, from
halfway between the largest one and the next power of two on, as infinity (`ofDecimal_cases`). So it is told by what a text writes
whether it is read as a finite number that is not below zero (`Written.isDelay_nearest`).
-/

namespace SignedCall

/-- A quotient is rounded to zero exactly up to one half. -/
theorem roundHalfEven_eq_zero_iff {num den : Nat} (hden : 0 < den) : roundHalfEven num den = 0 ↔ 2 * num ≤ den := by
  unfold roundHalfEven
  constructor
  · intro h
    split at h
    · cases h
    · next hdown =>
      have hlt : num < den := (Nat.div_eq_zero_iff.1 h).resolve_left (by omega)
      rw [Nat.mod_eq_of_lt hlt] at hdown
      omega
  · intro h
    have hlt : num < den := by omega
    rw [Nat.mod_eq_of_lt hlt, Nat.div_eq_of_lt hlt, if_neg (by omega)]

namespace Binary64

/-! ## The ends of the range -/

/-- What is halfway between the largest finite number and the next power of two. -/
def overflowLimit : ℚ := 2 ^ (1024 : Int) - 2 ^ (970 : Int)

/-- Half of the least positive number. -/
def underflowLimit : ℚ := 2 ^ (-1075 : Int)

/-- The limit is a whole number of halves of the largest unit. -/
theorem overflowLimit_eq : overflowLimit = ((2 ^ 54 - 1 : Nat) : ℚ) * 2 ^ (970 : Int) := by
  have hpower : (2 : ℚ) ^ (1024 : Int) = ((2 ^ 54 : Nat) : ℚ) * 2 ^ (970 : Int) := (two_pow_mul_zpow 54 970).symm
  rw [overflowLimit, hpower, Nat.cast_sub (by decide), Nat.cast_one, sub_mul, one_mul]

/-- The limit is below the next power of two. -/
theorem overflowLimit_lt : overflowLimit < beyond := sub_lt_self _ (two_zpow_pos 970)

/-- The limit is beyond the last power of two that is a finite number. -/
theorem zpow_lt_overflowLimit : (2 : ℚ) ^ (1023 : Int) < overflowLimit := by
  have hpower : (2 : ℚ) ^ (1023 : Int) = ((2 ^ 53 : Nat) : ℚ) * 2 ^ (970 : Int) := (two_pow_mul_zpow 53 970).symm
  rw [overflowLimit_eq, hpower]
  exact mul_lt_mul_of_pos_right (Nat.cast_lt.2 (by decide)) (two_zpow_pos 970)

/-- A power of two from one on is a whole number. -/
theorem powRatio_natCast (k : Nat) : powRatio (k : Int) = (2 ^ k, 1) := by
  have hneg : (-(k : Int)).toNat = 0 := by omega
  simp [powRatio, hneg]

/-- A power of two up to one is one over a whole number. -/
theorem powRatio_neg_natCast (k : Nat) : powRatio (-(k : Int)) = (1, 2 ^ k) := by
  have hneg : (-(k : Int)).toNat = 0 := by omega
  simp [powRatio, hneg]

variable {num den : Nat}

/-- On the last grid, the next power of two is reached from halfway on, as it is the even one. -/
theorem two_pow_le_roundHalfEven_iff (hden : 0 < den) :
    2 ^ 53 ≤ roundHalfEven (num * (powRatio maxExponent).2) (den * (powRatio maxExponent).1) ↔ overflowLimit ≤ (num : ℚ) / den := by
  have hlast : powRatio maxExponent = (2 ^ (970 + 1), 1) := powRatio_natCast (970 + 1)
  have hhalf : powRatio 970 = (2 ^ 970, 1) := powRatio_natCast 970
  rw [le_roundHalfEven_iff_of_even (Nat.mul_pos hden (powRatio_pos _).1) (by decide), overflowLimit_eq, mul_zpow_le_div hden, hlast,
    hhalf]
  generalize 970 = k
  dsimp only
  rw [Nat.pow_succ' (n := k), Nat.mul_left_comm den]
  generalize den * 2 ^ k = unit
  omega

/-- A quotient is rounded to a finite number exactly below the limit. -/
theorem rounded_lt_beyond_iff (hden : 0 < den) : rounded num den < beyond ↔ (num : ℚ) / den < overflowLimit := by
  rcases num.eq_zero_or_pos with rfl | hnum
  · have hlimit : 0 < overflowLimit := (two_zpow_pos 1023).trans zpow_lt_overflowLimit
    rw [rounded_zero, Nat.cast_zero, zero_div]
    exact iff_of_true (two_zpow_pos 1024) hlimit
  rcases lt_trichotomy (exponentFor num den) maxExponent with hlt | heq | hgt
  · have hlow : ((2 ^ 53 : Nat) : ℚ) * 2 ^ exponentFor num den ≤ 2 ^ (1023 : Int) := by
      rw [two_pow_mul_zpow]
      exact zpow_le_zpow_right₀ one_le_two (by unfold maxExponent at hlt; omega)
    have hdiv := div_lt_zpow_exponentFor hnum hden
    refine iff_of_true ?_ ((hdiv.trans_le hlow).trans zpow_lt_overflowLimit)
    calc rounded num den ≤ ((2 ^ 53 : Nat) : ℚ) * 2 ^ exponentFor num den := rounded_le_mul_zpow hden hdiv.le
      _ ≤ 2 ^ (1023 : Int) := hlow
      _ < beyond := zpow_lt_zpow_right₀ one_lt_two (by decide)
  · have hbeyond : beyond = ((2 ^ 53 : Nat) : ℚ) * 2 ^ maxExponent := (two_pow_mul_zpow 53 971).symm
    rw [rounded, heq, hbeyond, ← not_le, ← not_le, mul_le_mul_iff_of_pos_right (two_zpow_pos _), Nat.cast_le,
      two_pow_le_roundHalfEven_iff hden]
  · have hhigh : beyond ≤ ((2 ^ 52 : Nat) : ℚ) * 2 ^ exponentFor num den := by
      rw [two_pow_mul_zpow]
      exact zpow_le_zpow_right₀ one_le_two (by unfold maxExponent at hgt; omega)
    have hdiv := zpow_exponentFor_le hnum hden (lt_trans (by decide) hgt)
    refine iff_of_false (not_lt.2 ?_) (not_lt.2 ((overflowLimit_lt.le.trans hhigh).trans hdiv))
    exact hhigh.trans (mul_zpow_le_rounded hden hdiv)

/-- A quotient is rounded to zero exactly up to the limit. -/
theorem rounded_eq_zero_iff (hden : 0 < den) : rounded num den = 0 ↔ (num : ℚ) / den ≤ underflowLimit := by
  rcases num.eq_zero_or_pos with rfl | hnum
  · rw [rounded_zero, Nat.cast_zero, zero_div]
    exact iff_of_true rfl (two_zpow_pos _).le
  have hleast : minExponent ≤ exponentFor num den := Int.le_max_right _ _
  rcases hleast.eq_or_lt with heq | hlt
  · have hone : underflowLimit = ((1 : Nat) : ℚ) * 2 ^ (-1075 : Int) := by rw [Nat.cast_one, one_mul, underflowLimit]
    have hleast : powRatio minExponent = (1, 2 ^ 1074) := powRatio_neg_natCast 1074
    have hhalf : powRatio (-1075) = (1, 2 ^ (1074 + 1)) := powRatio_neg_natCast (1074 + 1)
    rw [rounded, ← heq, mul_eq_zero, or_iff_left (two_zpow_pos _).ne', Nat.cast_eq_zero,
      roundHalfEven_eq_zero_iff (Nat.mul_pos hden (powRatio_pos _).1), hone, div_le_mul_zpow hden, hleast, hhalf]
    generalize 1074 = k
    rw [Nat.pow_succ', Nat.mul_left_comm num, Nat.one_mul]
  · have hdiv := zpow_exponentFor_le hnum hden hlt
    have hpos : underflowLimit < ((2 ^ 52 : Nat) : ℚ) * 2 ^ exponentFor num den := by
      rw [two_pow_mul_zpow]
      exact zpow_lt_zpow_right₀ one_lt_two (by unfold minExponent at hlt; omega)
    have hrounded : 0 < rounded num den := ((two_zpow_pos _).trans hpos).trans_le (mul_zpow_le_rounded hden hdiv)
    exact iff_of_false hrounded.ne' (not_le.2 (hpos.trans_le hdiv))

/-! ## Decimals -/

/-- The exact value of a decimal. -/
def decimalValue (n : Nat) (e : Int) : ℚ := n * 10 ^ e

theorem ten_zpow_pos (e : Int) : (0 : ℚ) < 10 ^ e := zpow_pos (by decide) e

/-- A decimal as a quotient of whole numbers. -/
theorem decimalValue_eq_div (n : Nat) (e : Int) :
    decimalValue n e = ((n * Nat.pow 10 e.toNat : Nat) : ℚ) / (Nat.pow 10 (-e).toNat : Nat) := by
  have hpower : (10 : ℚ) ^ e = 10 ^ e.toNat / 10 ^ (-e).toNat := by
    rw [← zpow_natCast, ← zpow_natCast, ← zpow_sub₀ (by decide)]
    congr 1
    omega
  rw [decimalValue, hpower]
  simp only [Nat.pow_eq, Nat.cast_mul, Nat.cast_pow, Nat.cast_ofNat]
  rw [mul_div_assoc]

/-- A number with many digits is large, and one with few is small. -/
theorem decimalValue_bounds {n : Nat} (hn : n ≠ 0) (e : Int) :
    (10 : ℚ) ^ ((Nat.toDigits 10 n).length + e - 1) ≤ decimalValue n e ∧
      decimalValue n e < 10 ^ ((Nat.toDigits 10 n).length + e) := by
  have hpos : 0 < (Nat.toDigits 10 n).length := List.length_pos_iff.2 Nat.toDigits_ne_nil
  have hupper : n < 10 ^ (Nat.toDigits 10 n).length := (Nat.length_toDigits_le_iff (by decide) hpos).1 (Nat.le_refl _)
  have hlower : 10 ^ ((Nat.toDigits 10 n).length - 1) ≤ n := by
    rcases Nat.eq_or_lt_of_le (Nat.one_le_iff_ne_zero.2 hpos.ne') with hone | hmore
    · rw [← hone]
      exact Nat.one_le_iff_ne_zero.2 hn
    · refine Nat.not_lt.1 fun hlt => ?_
      have hle := (Nat.length_toDigits_le_iff (by decide) (by omega)).2 hlt
      omega
  have hupper : (n : ℚ) < 10 ^ ((Nat.toDigits 10 n).length : Int) := by
    rw [zpow_natCast]
    exact_mod_cast hupper
  have hlower : (10 : ℚ) ^ (((Nat.toDigits 10 n).length - 1 : Nat) : Int) ≤ n := by
    rw [zpow_natCast]
    exact_mod_cast hlower
  constructor
  · calc (10 : ℚ) ^ ((Nat.toDigits 10 n).length + e - 1) = 10 ^ (((Nat.toDigits 10 n).length - 1 : Nat) : Int) * 10 ^ e := by
          rw [← zpow_add₀ (by decide)]
          congr 1
          omega
      _ ≤ n * 10 ^ e := mul_le_mul_of_nonneg_right hlower (ten_zpow_pos e).le
  · calc decimalValue n e < 10 ^ ((Nat.toDigits 10 n).length : Int) * 10 ^ e := mul_lt_mul_of_pos_right hupper (ten_zpow_pos e)
      _ = 10 ^ ((Nat.toDigits 10 n).length + e) := (zpow_add₀ (by decide) _ _).symm

theorem two_zpow_le_ten_zpow : (2 : ℚ) ^ (1200 : Int) ≤ 10 ^ (400 : Int) :=
  calc (2 : ℚ) ^ (1200 : Int) = 2 ^ (3 * 400) := zpow_natCast 2 (3 * 400)
    _ = (2 ^ 3) ^ 400 := pow_mul 2 3 400
    _ ≤ 10 ^ 400 := pow_le_pow_left₀ (by norm_num) (by norm_num) 400
    _ = 10 ^ (400 : Int) := (zpow_natCast 10 400).symm

/-- Many digits before the point are beyond the range, and as many zeros behind it below it. -/
theorem decimalValue_of_magnitude {n : Nat} (hn : n ≠ 0) (e : Int) :
    (400 < ((Nat.toDigits 10 n).length : Int) + e → beyond ≤ decimalValue n e) ∧
      (((Nat.toDigits 10 n).length : Int) + e < -400 → decimalValue n e ≤ underflowLimit) := by
  obtain ⟨hlower, hupper⟩ := decimalValue_bounds hn e
  constructor
  · intro hlarge
    calc beyond ≤ 2 ^ (1200 : Int) := zpow_le_zpow_right₀ one_le_two (by decide)
      _ ≤ 10 ^ (400 : Int) := two_zpow_le_ten_zpow
      _ ≤ 10 ^ ((Nat.toDigits 10 n).length + e - 1) := zpow_le_zpow_right₀ (by norm_num) (by omega)
      _ ≤ decimalValue n e := hlower
  · intro hsmall
    calc decimalValue n e ≤ 10 ^ ((Nat.toDigits 10 n).length + e) := hupper.le
      _ ≤ 10 ^ (-400 : Int) := zpow_le_zpow_right₀ (by norm_num) hsmall.le
      _ = (10 ^ (400 : Int))⁻¹ := zpow_neg 10 400
      _ ≤ (2 ^ (1200 : Int))⁻¹ := inv_anti₀ (two_zpow_pos 1200) two_zpow_le_ten_zpow
      _ = 2 ^ (-1200 : Int) := (zpow_neg 2 1200).symm
      _ ≤ underflowLimit := zpow_le_zpow_right₀ one_le_two (by decide)

/-- A decimal is read as a finite number, which is zero exactly up to the lower limit, or from the upper limit on as infinity. -/
theorem ofDecimal_cases (negative : Bool) (n : Nat) (e : Int) :
    (decimalValue n e < overflowLimit ∧ ∃ m e', ofDecimal negative n e = .finite negative m e' ∧
        (m = 0 ↔ decimalValue n e ≤ underflowLimit)) ∨
      (overflowLimit ≤ decimalValue n e ∧ ofDecimal negative n e = .infinite negative) := by
  have hlimits : underflowLimit < overflowLimit :=
    (zpow_lt_zpow_right₀ one_lt_two (by decide)).trans zpow_lt_overflowLimit
  unfold ofDecimal
  by_cases hn : n = 0
  · have hzero : decimalValue n e = 0 := by rw [decimalValue, hn, Nat.cast_zero, zero_mul]
    have hpos : 0 < underflowLimit := two_zpow_pos _
    rw [if_pos hn, hzero]
    exact .inl ⟨hpos.trans hlimits, 0, minExponent, rfl, iff_of_true rfl hpos.le⟩
  rw [if_neg hn]
  obtain ⟨hlarge, hsmall⟩ := decimalValue_of_magnitude hn e
  dsimp only
  split
  · next h => exact .inr ⟨overflowLimit_lt.le.trans (hlarge h), rfl⟩
  · split
    · next h => exact .inl ⟨(hsmall h).trans_lt hlimits, 0, minExponent, rfl, iff_of_true rfl (hsmall h)⟩
    · have hnum : 0 < n * Nat.pow 10 e.toNat := Nat.mul_pos (Nat.pos_of_ne_zero hn) (Nat.pow_pos (by decide))
      have hden : 0 < Nat.pow 10 (-e).toNat := Nat.pow_pos (by decide)
      rw [decimalValue_eq_div, ← rounded_lt_beyond_iff hden, ← rounded_eq_zero_iff hden, ← not_lt, ← rounded_lt_beyond_iff hden, not_lt]
      rcases ofRatio_cases hnum hden negative with ⟨hlt, m, e', heq, hvalue, -⟩ | ⟨hge, heq⟩
      · refine .inl ⟨hlt, m, e', heq, ?_⟩
        rw [← hvalue, mul_eq_zero, or_iff_left (two_zpow_pos e').ne', Nat.cast_eq_zero]
      · exact .inr ⟨hge, heq⟩

/-! ## Texts -/

/-- What a text writes: one of the names, or a decimal. -/
inductive Written where
  | infinite (negative : Bool)
  | undefined
  | decimal (negative : Bool) (n : Nat) (e : Int)

/-- The number nearest to what is written. -/
def Written.nearest : Written → Binary64
  | .infinite negative => .infinite negative
  | .undefined => .nan
  | .decimal negative n e => ofDecimal negative n e

/-- The digits behind a decimal point, if there is one, and what follows them. -/
def fractionDigits (cs : List Char) : List Char × List Char :=
  match cs with
  | '.' :: rest => rest.span Text.isAsciiDigit
  | _ => ([], cs)

/-- The decimal that unsigned digits write. -/
def writtenDecimal? (negative : Bool) (cs : List Char) : Option Written := do
  let (whole, rest) := cs.span Text.isAsciiDigit
  let (fraction, rest) := fractionDigits rest
  if whole.isEmpty && fraction.isEmpty then none
  let exponent ← readExponent? rest
  some (.decimal negative (Text.natOfDigits (whole ++ fraction)) (exponent - fraction.length))

/-- What a text writes, if it is the text of a number at all. -/
def written? (s : String) : Option Written := do
  let cs ← Text.dropUnderscores? false (Text.plainNumber s)
  let (negative, body) := Text.splitSign cs
  let word := body.map Text.lowerChar
  if word == ['i', 'n', 'f'] || word == "infinity".toList then some (.infinite negative)
  else if word == ['n', 'a', 'n'] then some .undefined
  else writtenDecimal? negative body

/-- Unsigned digits are read as what is nearest to the decimal that they write. -/
theorem readUnsigned?_eq (negative : Bool) (cs : List Char) :
    readUnsigned? negative cs = (writtenDecimal? negative cs).map Written.nearest := by
  have hread : readUnsigned? negative cs = (do
      let (whole, rest) := cs.span Text.isAsciiDigit
      let (fraction, rest) := fractionDigits rest
      if whole.isEmpty && fraction.isEmpty then none
      let exponent ← readExponent? rest
      some (ofDecimal negative (Text.natOfDigits (whole ++ fraction)) (exponent - fraction.length))) := rfl
  rw [hread]
  unfold writtenDecimal?
  dsimp only
  split
  · rfl
  · cases readExponent? (fractionDigits (cs.span Text.isAsciiDigit).2).2 <;> rfl

/-- A text is read as the number nearest to what it writes. -/
theorem ofText?_eq (s : String) : ofText? s = (written? s).map Written.nearest := by
  unfold ofText? written?
  cases Text.dropUnderscores? false (Text.plainNumber s) with
  | none => rfl
  | some cs =>
    simp only [Option.bind_eq_bind, Option.bind_some]
    split
    · rfl
    · split
      · rfl
      · exact readUnsigned?_eq _ _

/-! ## Delays -/

/-- Whether a number is finite and not below zero. -/
def IsDelay (x : Binary64) : Prop := x.isFinite = true ∧ x.isNonneg = true

/-- Whether a text writes a number that is finite and not below zero once it is rounded. -/
def Written.IsDelay : Written → Prop
  | .decimal negative n e => decimalValue n e < overflowLimit ∧ (negative = true → decimalValue n e ≤ underflowLimit)
  | _ => False

/-- Whether a text writes infinity by its name, or a decimal beyond all finite numbers. -/
def Written.IsEndless : Written → Prop
  | .infinite negative => negative = false
  | .undefined => False
  | .decimal negative n e => negative = false ∧ overflowLimit ≤ decimalValue n e

/-- A finite number is not below zero if it is zero, or has no minus sign. -/
theorem isNonneg_finite (negative : Bool) (m : Nat) (e : Int) :
    (Binary64.finite negative m e).isNonneg = true ↔ (negative = true → m = 0) := by
  cases negative <;> simp [isNonneg, isPositive, isZero]
  omega

/-- What is not below zero is a delay, or infinity. -/
theorem isNonneg_iff (x : Binary64) : x.isNonneg = true ↔ x.IsDelay ∨ x = .infinite false := by
  cases x with
  | finite negative m e => simp [IsDelay, isFinite]
  | infinite negative => cases negative <;> simp [IsDelay, isFinite, isNonneg, isPositive, isZero]
  | nan => simp [IsDelay, isFinite, isNonneg, isPositive, isZero]

/-- Infinity is no delay. -/
theorem not_isDelay_infinite (negative : Bool) : ¬(Binary64.infinite negative).IsDelay := fun h => Bool.false_ne_true h.1

/-- A text is read as a delay exactly if it writes one. -/
theorem Written.isDelay_nearest (w : Written) : w.nearest.IsDelay ↔ w.IsDelay := by
  cases w with
  | infinite negative => exact iff_of_false (not_isDelay_infinite negative) not_false
  | undefined => exact iff_of_false (fun h => Bool.false_ne_true h.1) not_false
  | decimal negative n e =>
    simp only [nearest, IsDelay]
    rcases ofDecimal_cases negative n e with ⟨hlt, m, e', heq, hzero⟩ | ⟨hge, heq⟩
    · rw [heq, Binary64.IsDelay, isNonneg_finite, hzero]
      exact ⟨fun h => ⟨hlt, h.2⟩, fun h => ⟨rfl, h.2⟩⟩
    · rw [heq]
      exact iff_of_false (not_isDelay_infinite negative) fun h => absurd h.1 (not_lt.2 hge)

/-- A text is read as infinity exactly if it writes it, or a number too large. -/
theorem Written.nearest_eq_infinite_iff (w : Written) : w.nearest = .infinite false ↔ w.IsEndless := by
  cases w with
  | infinite negative => simp [nearest, IsEndless]
  | undefined => simp [nearest, IsEndless]
  | decimal negative n e =>
    simp only [nearest, IsEndless]
    rcases ofDecimal_cases negative n e with ⟨hlt, m, e', heq, -⟩ | ⟨hge, heq⟩
    · rw [heq]
      exact iff_of_false nofun fun h => absurd h.2 (not_le.2 hlt)
    · rw [heq, Binary64.infinite.injEq]
      exact (and_iff_left hge).symm

/-- A text is read as a number that is not below zero exactly if it writes a delay or something endless. -/
theorem Written.isNonneg_nearest (w : Written) : w.nearest.isNonneg = true ↔ w.IsDelay ∨ w.IsEndless := by
  rw [isNonneg_iff, w.isDelay_nearest, w.nearest_eq_infinite_iff]

end Binary64

end SignedCall
