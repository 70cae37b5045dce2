import Mathlib.Data.Int.Log
import Mathlib.Data.Rat.Floor
import Mathlib.Tactic.Linarith
import Mathlib.Tactic.Ring
import SignedCall.Number.Binary64

/-!
# Rounding to double precision

A quotient is rounded to the grid of its binary exponent (`exponentFor_eq`). What it comes to, as a fraction, is `rounded`,
however large it is; `ofRatio` gives that number if it is small enough, and infinity if it is not. Rounding never crosses a
number of the grids (`rounded_le`, `le_rounded`), and it keeps the order of quotients (`rounded_mono`).
-/

namespace SignedCall

/-! ## The nearest whole number -/

/-- Halfway between two whole numbers the even one is taken, here the upper one. -/
theorem roundHalfEven_even_of_up {num den : Nat} (hden : 0 < den) (h : 2 * num + den = 2 * (roundHalfEven num den * den)) :
    roundHalfEven num den % 2 = 0 := by
  have hdiv : den * (num / den) + num % den = num := Nat.div_add_mod num den
  rw [Nat.mul_comm] at hdiv
  unfold roundHalfEven at h ⊢
  split at h
  · rw [Nat.add_mul] at h
    rw [if_pos ‹_›]
    omega
  · omega

/-- Halfway between two whole numbers the even one is taken, here the lower one. -/
theorem roundHalfEven_even_of_down {num den : Nat} (hden : 0 < den) (h : 2 * num = 2 * (roundHalfEven num den * den) + den) :
    roundHalfEven num den % 2 = 0 := by
  have hdiv : den * (num / den) + num % den = num := Nat.div_add_mod num den
  have hmod := Nat.mod_lt num hden
  rw [Nat.mul_comm] at hdiv
  unfold roundHalfEven at h ⊢
  split at h
  · rw [Nat.add_mul] at h
    omega
  · rw [if_neg ‹_›]
    omega

/-- A larger quotient is rounded to a larger number, or to the same. -/
theorem roundHalfEven_mono {a b c d : Nat} (hb : 0 < b) (hd : 0 < d) (h : a * d ≤ c * b) :
    roundHalfEven a b ≤ roundHalfEven c d := by
  by_contra hlt
  have hup : 2 * (roundHalfEven a b * b) ≤ 2 * a + b := (two_mul_roundHalfEven_mul_le hb).1
  have hdown : 2 * c ≤ 2 * (roundHalfEven c d * d) + d := (two_mul_roundHalfEven_mul_le hd).2
  have hnext : (roundHalfEven c d + 1) * (b * d) ≤ roundHalfEven a b * (b * d) := Nat.mul_le_mul_right _ (Nat.lt_of_not_le hlt)
  have hleft : 2 * (roundHalfEven a b * (b * d)) ≤ 2 * (a * d) + b * d := by linarith [Nat.mul_le_mul_right d hup]
  have hright : 2 * (c * b) ≤ 2 * (roundHalfEven c d * (b * d)) + b * d := by linarith [Nat.mul_le_mul_right b hdown]
  -- The two are one apart, and both quotients lie halfway between them: the even one was taken twice.
  have hone : roundHalfEven a b = roundHalfEven c d + 1 :=
    Nat.le_antisymm (Nat.le_of_mul_le_mul_right (by linarith) (Nat.mul_pos hb hd)) (Nat.lt_of_not_le hlt)
  have hupper : roundHalfEven a b % 2 = 0 :=
    roundHalfEven_even_of_up hb (Nat.le_antisymm (Nat.le_of_mul_le_mul_right (by linarith) hd) hup)
  have hlower : roundHalfEven c d % 2 = 0 :=
    roundHalfEven_even_of_down hd (Nat.le_antisymm hdown (Nat.le_of_mul_le_mul_right (by linarith) hb))
  omega

/-- Rounding does not go beyond a whole number above. -/
theorem roundHalfEven_le_of_le_mul {num den n : Nat} (hden : 0 < den) (h : num ≤ n * den) : roundHalfEven num den ≤ n := by
  rw [← roundHalfEven_mul (n := n) hden]
  exact roundHalfEven_mono hden hden (Nat.mul_le_mul_right den h)

/-- Rounding does not go beyond a whole number below. -/
theorem le_roundHalfEven_of_mul_le {num den n : Nat} (hden : 0 < den) (h : n * den ≤ num) : n ≤ roundHalfEven num den := by
  rw [← roundHalfEven_mul (n := n) hden]
  exact roundHalfEven_mono hden hden (Nat.mul_le_mul_right den h)

/-- An even number is reached from half a unit below it. -/
theorem le_roundHalfEven_iff_of_even {num den n : Nat} (hden : 0 < den) (hn : n % 2 = 0) :
    n ≤ roundHalfEven num den ↔ 2 * (n * den) ≤ 2 * num + den := by
  constructor
  · intro h
    calc 2 * (n * den) ≤ 2 * (roundHalfEven num den * den) := Nat.mul_le_mul_left 2 (Nat.mul_le_mul_right den h)
      _ ≤ 2 * num + den := (two_mul_roundHalfEven_mul_le hden).1
  · intro h
    by_contra hlt
    have hdown : 2 * num ≤ 2 * (roundHalfEven num den * den) + den := (two_mul_roundHalfEven_mul_le hden).2
    have hnext : (roundHalfEven num den + 1) * den ≤ n * den := Nat.mul_le_mul_right den (Nat.lt_of_not_le hlt)
    have hone : n = roundHalfEven num den + 1 :=
      Nat.le_antisymm (Nat.le_of_mul_le_mul_right (by linarith) hden) (Nat.lt_of_not_le hlt)
    have heven : roundHalfEven num den % 2 = 0 := roundHalfEven_even_of_down hden (Nat.le_antisymm hdown (by linarith))
    omega

namespace Binary64

/-! ## Exponents -/

theorem two_zpow_pos (e : Int) : (0 : ℚ) < 2 ^ e := zpow_pos two_pos e

/-- A mantissa of all its bits may be written without them. -/
theorem two_pow_mul_zpow (k : Nat) (e : Int) : ((2 ^ k : Nat) : ℚ) * 2 ^ e = 2 ^ ((k : Int) + e) := by
  rw [Nat.cast_pow, Nat.cast_ofNat, ← zpow_natCast, ← zpow_add₀ two_ne_zero]

/-- A number is on every finer grid. -/
theorem mul_zpow_of_le (m : Nat) {e e' : Int} (h : e' ≤ e) : (m : ℚ) * 2 ^ e = (m * 2 ^ (e - e').toNat : Nat) * 2 ^ e' := by
  rw [Nat.cast_mul, mul_assoc, two_pow_mul_zpow]
  congr 2
  omega

/-- The mantissas of one grid end where those of the next one begin. -/
theorem mul_zpow_le_of_lt {m : Nat} {e e' : Int} (hm : m ≤ 2 ^ 53) (h : e < e') :
    (m : ℚ) * 2 ^ e ≤ ((2 ^ 52 : Nat) : ℚ) * 2 ^ e' :=
  calc (m : ℚ) * 2 ^ e ≤ ((2 ^ 53 : Nat) : ℚ) * 2 ^ e := mul_le_mul_of_nonneg_right (Nat.cast_le.2 hm) (two_zpow_pos e).le
    _ = 2 ^ (53 + e) := two_pow_mul_zpow 53 e
    _ ≤ 2 ^ (52 + e') := zpow_le_zpow_right₀ one_le_two (by omega)
    _ = ((2 ^ 52 : Nat) : ℚ) * 2 ^ e' := (two_pow_mul_zpow 52 e').symm

/-- The quotient that stands for a power of two has positive parts. -/
theorem powRatio_pos (e : Int) : 0 < (powRatio e).1 ∧ 0 < (powRatio e).2 :=
  ⟨Nat.pow_pos two_pos, Nat.pow_pos two_pos⟩

/-- A power of two as a quotient. -/
theorem powRatio_div (e : Int) : ((powRatio e).1 : ℚ) / (powRatio e).2 = 2 ^ e := by
  simp only [powRatio, Nat.pow_eq, Nat.cast_pow, Nat.cast_ofNat, ← zpow_natCast]
  rw [← zpow_sub₀ two_ne_zero]
  congr 1
  omega

/-- The first part is the power of two times the second. -/
theorem powRatio_fst (e : Int) : ((powRatio e).1 : ℚ) = 2 ^ e * (powRatio e).2 := by
  have hpos : ((powRatio e).2 : ℚ) ≠ 0 := Nat.cast_ne_zero.2 (powRatio_pos e).2.ne'
  rw [← powRatio_div e, div_mul_cancel₀ _ hpos]

/-- A multiple of a power of two is compared with a quotient in whole numbers. -/
theorem mul_zpow_le_div {num den n : Nat} {e : Int} (hden : 0 < den) :
    (n : ℚ) * 2 ^ e ≤ num / den ↔ n * (den * (powRatio e).1) ≤ num * (powRatio e).2 := by
  have hdown : (0 : ℚ) < (powRatio e).2 := Nat.cast_pos.2 (powRatio_pos e).2
  rw [le_div_iff₀ (Nat.cast_pos.2 hden), ← mul_le_mul_iff_of_pos_right hdown, ← @Nat.cast_le ℚ]
  push_cast
  rw [powRatio_fst]
  constructor <;> intro h <;> linarith

/-- A quotient is compared with a multiple of a power of two in whole numbers. -/
theorem div_le_mul_zpow {num den n : Nat} {e : Int} (hden : 0 < den) :
    (num : ℚ) / den ≤ n * 2 ^ e ↔ num * (powRatio e).2 ≤ n * (den * (powRatio e).1) := by
  have hdown : (0 : ℚ) < (powRatio e).2 := Nat.cast_pos.2 (powRatio_pos e).2
  rw [div_le_iff₀ (Nat.cast_pos.2 hden), ← mul_le_mul_iff_of_pos_right hdown, ← @Nat.cast_le ℚ]
  push_cast
  rw [powRatio_fst]
  constructor <;> intro h <;> linarith

/-- The binary logarithm of a number is told by the powers of two around it. -/
theorem log_two_eq {q : ℚ} {k : Int} (h : 2 ^ k ≤ q) (h' : q < 2 ^ (k + 1)) : Int.log 2 q = k := by
  have hq : 0 < q := lt_of_lt_of_le (two_zpow_pos k) h
  refine le_antisymm (Int.lt_add_one_iff.1 ?_) ?_
  · exact (Int.lt_zpow_iff_log_lt one_lt_two hq).1 h'
  · exact (Int.zpow_le_iff_le_log one_lt_two hq).1 h

/-- The grid of a quotient is that of its binary exponent. -/
theorem exponentFor_eq {num den : Nat} (hnum : 0 < num) (hden : 0 < den) :
    exponentFor num den = max (Int.log 2 ((num : ℚ) / den) - 52) minExponent := by
  have hlower : (2 : ℚ) ^ ((num.log2 : Int) - den.log2 - 1) ≤ num / den := by
    have hn : ((2 ^ num.log2 : Nat) : ℚ) ≤ num := Nat.cast_le.2 (Nat.log2_self_le hnum.ne')
    have hd : (den : ℚ) ≤ ((2 ^ (den.log2 + 1) : Nat) : ℚ) := Nat.cast_le.2 Nat.lt_log2_self.le
    rw [show (num.log2 : Int) - den.log2 - 1 = num.log2 - (den.log2 + 1 : Nat) by omega, zpow_sub₀ two_ne_zero, zpow_natCast,
      zpow_natCast]
    push_cast at hn hd
    exact div_le_div₀ (Nat.cast_nonneg _) hn (Nat.cast_pos.2 hden) hd
  have hupper : (num : ℚ) / den < 2 ^ ((num.log2 : Int) - den.log2 + 1) := by
    have hn : (num : ℚ) < ((2 ^ (num.log2 + 1) : Nat) : ℚ) := Nat.cast_lt.2 Nat.lt_log2_self
    have hd : ((2 ^ den.log2 : Nat) : ℚ) ≤ den := Nat.cast_le.2 (Nat.log2_self_le hden.ne')
    rw [show (num.log2 : Int) - den.log2 + 1 = (num.log2 + 1 : Nat) - den.log2 by omega, zpow_sub₀ two_ne_zero, zpow_natCast,
      zpow_natCast]
    push_cast at hn hd
    exact div_lt_div₀ hn hd (by positivity) (by positivity)
  have htop : num * (powRatio ((num.log2 : Int) - den.log2)).2 < den * (powRatio ((num.log2 : Int) - den.log2)).1 ↔
      (num : ℚ) / den < 2 ^ ((num.log2 : Int) - den.log2) := by
    have hiff : ((1 : Nat) : ℚ) * 2 ^ ((num.log2 : Int) - den.log2) ≤ num / den ↔ _ := mul_zpow_le_div hden
    rw [Nat.cast_one, one_mul, one_mul] at hiff
    rw [← not_le, ← not_le, hiff]
  unfold exponentFor
  dsimp only
  split
  · next hlt =>
    rw [log_two_eq hlower (by rw [sub_add_cancel]; exact htop.1 hlt)]
    congr 1
    omega
  · next hlt => rw [log_two_eq (not_lt.1 fun hq => hlt (htop.2 hq)) hupper]

/-! ## Rounded quotients -/

/-- The number that a quotient is rounded to, however large it is. -/
def rounded (num den : Nat) : ℚ :=
  roundHalfEven (num * (powRatio (exponentFor num den)).2) (den * (powRatio (exponentFor num den)).1) * 2 ^ exponentFor num den

/-- What a quotient of natural numbers is rounded to is not below zero. -/
theorem rounded_nonneg (num den : Nat) : 0 ≤ rounded num den := mul_nonneg (Nat.cast_nonneg _) (two_zpow_pos _).le

/-- Zero is rounded to itself. -/
theorem rounded_zero (den : Nat) : rounded 0 den = 0 := by
  have hzero : roundHalfEven (0 * (powRatio (exponentFor 0 den)).2) (den * (powRatio (exponentFor 0 den)).1) = 0 := by
    simp [roundHalfEven]
  rw [rounded, hzero, Nat.cast_zero, zero_mul]

section

variable {num den num' den' : Nat} (hnum : 0 < num) (hden : 0 < den)

include hden

/-- A number on the grid of a quotient that is not above the quotient is not above what it is rounded to. -/
theorem mul_zpow_le_rounded {n : Nat} (h : (n : ℚ) * 2 ^ exponentFor num den ≤ num / den) :
    (n : ℚ) * 2 ^ exponentFor num den ≤ rounded num den := by
  have hn := le_roundHalfEven_of_mul_le (Nat.mul_pos hden (powRatio_pos _).1) ((mul_zpow_le_div hden).1 h)
  exact mul_le_mul_of_nonneg_right (Nat.cast_le.2 hn) (two_zpow_pos _).le

/-- A number on the grid of a quotient that is not below the quotient is not below what it is rounded to. -/
theorem rounded_le_mul_zpow {n : Nat} (h : (num : ℚ) / den ≤ n * 2 ^ exponentFor num den) :
    rounded num den ≤ n * 2 ^ exponentFor num den := by
  have hn := roundHalfEven_le_of_le_mul (Nat.mul_pos hden (powRatio_pos _).1) ((div_le_mul_zpow hden).1 h)
  exact mul_le_mul_of_nonneg_right (Nat.cast_le.2 hn) (two_zpow_pos _).le

include hnum

/-- A quotient is below the end of its grid. -/
theorem div_lt_zpow_exponentFor : (num : ℚ) / den < (2 ^ 53 : Nat) * 2 ^ exponentFor num den := by
  have hlt := Int.lt_zpow_succ_log_self one_lt_two ((num : ℚ) / den)
  rw [Nat.cast_ofNat] at hlt
  rw [two_pow_mul_zpow]
  refine lt_of_lt_of_le hlt (zpow_le_zpow_right₀ one_le_two ?_)
  rw [exponentFor_eq hnum hden]
  omega

/-- Above the least grid, a quotient has all its bits. -/
theorem zpow_exponentFor_le (h : minExponent < exponentFor num den) :
    ((2 ^ 52 : Nat) : ℚ) * 2 ^ exponentFor num den ≤ num / den := by
  have hq : (0 : ℚ) < num / den := div_pos (Nat.cast_pos.2 hnum) (Nat.cast_pos.2 hden)
  have hle := Int.zpow_log_le_self one_lt_two hq
  rw [Nat.cast_ofNat] at hle
  rw [two_pow_mul_zpow]
  refine le_trans (zpow_le_zpow_right₀ one_le_two ?_) hle
  rw [exponentFor_eq hnum hden] at h ⊢
  omega

omit hnum

/-- A number that a mantissa and an exponent make is not crossed from below. -/
theorem rounded_le {m : Nat} {e : Int} (hm : m ≤ 2 ^ 53) (he : minExponent ≤ e) (h : (num : ℚ) / den ≤ m * 2 ^ e) :
    rounded num den ≤ m * 2 ^ e := by
  rcases num.eq_zero_or_pos with rfl | hnum
  · rw [rounded_zero]
    exact mul_nonneg (Nat.cast_nonneg m) (two_zpow_pos e).le
  rcases le_or_gt (exponentFor num den) e with hle | hlt
  · rw [mul_zpow_of_le m hle] at h ⊢
    exact rounded_le_mul_zpow hden h
  · have hfull := zpow_exponentFor_le hnum hden (lt_of_le_of_lt he hlt)
    calc rounded num den ≤ (2 ^ 52 : Nat) * 2 ^ exponentFor num den :=
          rounded_le_mul_zpow hden (h.trans (mul_zpow_le_of_lt hm hlt))
      _ ≤ num / den := hfull
      _ ≤ m * 2 ^ e := h

/-- A number that a mantissa and an exponent make is not crossed from above. -/
theorem le_rounded {m : Nat} {e : Int} (hm : m ≤ 2 ^ 53) (he : minExponent ≤ e) (h : (m : ℚ) * 2 ^ e ≤ num / den) :
    (m : ℚ) * 2 ^ e ≤ rounded num den := by
  rcases num.eq_zero_or_pos with rfl | hnum
  · rwa [Nat.cast_zero, zero_div, ← rounded_zero den] at h
  rcases le_or_gt (exponentFor num den) e with hle | hlt
  · rw [mul_zpow_of_le m hle] at h ⊢
    exact mul_zpow_le_rounded hden h
  · have hfull := zpow_exponentFor_le hnum hden (lt_of_le_of_lt he hlt)
    exact (mul_zpow_le_of_lt hm hlt).trans (mul_zpow_le_rounded hden hfull)

/-- A larger quotient is rounded to a larger number, or to the same. -/
theorem rounded_mono (hden' : 0 < den') (h : (num : ℚ) / den ≤ num' / den') : rounded num den ≤ rounded num' den' := by
  rcases num.eq_zero_or_pos with rfl | hnum
  · rw [rounded_zero]
    exact rounded_nonneg num' den'
  have hnum' : 0 < num' := by
    refine Nat.pos_of_ne_zero ?_
    rintro rfl
    rw [Nat.cast_zero, zero_div] at h
    exact absurd h (not_le.2 (div_pos (Nat.cast_pos.2 hnum) (Nat.cast_pos.2 hden)))
  have hexponent : exponentFor num den ≤ exponentFor num' den' := by
    have hlog := Int.log_mono_right (b := 2) (div_pos (Nat.cast_pos.2 hnum) (Nat.cast_pos.2 hden)) h
    rw [exponentFor_eq hnum hden, exponentFor_eq hnum' hden']
    omega
  rcases hexponent.lt_or_eq with hlt | heq
  · -- There is a power of two in between.
    have hmin : minExponent < exponentFor num' den' := by
      have hleast : minExponent ≤ exponentFor num den := Int.le_max_right _ _
      omega
    calc rounded num den ≤ (2 ^ 53 : Nat) * 2 ^ exponentFor num den :=
          rounded_le_mul_zpow hden (div_lt_zpow_exponentFor hnum hden).le
      _ ≤ (2 ^ 52 : Nat) * 2 ^ exponentFor num' den' := mul_zpow_le_of_lt le_rfl hlt
      _ ≤ rounded num' den' := mul_zpow_le_rounded hden' (zpow_exponentFor_le hnum' hden' hmin)
  · have hcross : num * den' ≤ num' * den := by
      rw [div_le_div_iff₀ (Nat.cast_pos.2 hden) (Nat.cast_pos.2 hden')] at h
      exact_mod_cast h
    unfold rounded
    rw [heq]
    refine mul_le_mul_of_nonneg_right (Nat.cast_le.2 ?_) (two_zpow_pos _).le
    refine roundHalfEven_mono (Nat.mul_pos hden (powRatio_pos _).1) (Nat.mul_pos hden' (powRatio_pos _).1) ?_
    calc num * (powRatio (exponentFor num' den')).2 * (den' * (powRatio (exponentFor num' den')).1) =
          num * den' * ((powRatio (exponentFor num' den')).2 * (powRatio (exponentFor num' den')).1) := by ring
      _ ≤ num' * den * ((powRatio (exponentFor num' den')).2 * (powRatio (exponentFor num' den')).1) := Nat.mul_le_mul_right _ hcross
      _ = num' * (powRatio (exponentFor num' den')).2 * (den * (powRatio (exponentFor num' den')).1) := by ring

end

/-! ## Numbers that are rounded quotients -/

/-- The least power of two beyond all finite numbers. -/
def beyond : ℚ := 2 ^ (1024 : Int)

/-- A finite number as a fraction. -/
def value : Binary64 → ℚ
  | .finite negative m e => if negative then -(m * 2 ^ e) else m * 2 ^ e
  | _ => 0

/-- A quotient is rounded to a finite number with a mantissa of 53 bits, or to infinity if it is beyond them. -/
theorem ofRatio_cases {num den : Nat} (hnum : 0 < num) (hden : 0 < den) (negative : Bool) :
    (rounded num den < beyond ∧ ∃ m e, ofRatio negative num den = .finite negative m e ∧ (m : ℚ) * 2 ^ e = rounded num den ∧
        m < 2 ^ 53 ∧ minExponent ≤ e) ∨
      (beyond ≤ rounded num den ∧ ofRatio negative num den = .infinite negative) := by
  have hleast : minExponent ≤ exponentFor num den := Int.le_max_right _ _
  have hmax : roundHalfEven (num * (powRatio (exponentFor num den)).2) (den * (powRatio (exponentFor num den)).1) ≤ 2 ^ 53 :=
    roundHalfEven_le_of_le_mul (Nat.mul_pos hden (powRatio_pos _).1) ((div_le_mul_zpow hden).1 (div_lt_zpow_exponentFor hnum hden).le)
  have hbits : minExponent < exponentFor num den →
      2 ^ 52 ≤ roundHalfEven (num * (powRatio (exponentFor num den)).2) (den * (powRatio (exponentFor num den)).1) :=
    fun h => le_roundHalfEven_of_mul_le (Nat.mul_pos hden (powRatio_pos _).1)
      ((mul_zpow_le_div hden).1 (zpow_exponentFor_le hnum hden h))
  have hrounded : rounded num den =
      roundHalfEven (num * (powRatio (exponentFor num den)).2) (den * (powRatio (exponentFor num den)).1) *
        2 ^ exponentFor num den := rfl
  generalize hm : roundHalfEven (num * (powRatio (exponentFor num den)).2) (den * (powRatio (exponentFor num den)).1) = m at *
  have hofRatio : ofRatio negative num den =
      if m = 2 ^ 53 then if maxExponent < exponentFor num den + 1 then .infinite negative
        else .finite negative (2 ^ 52) (exponentFor num den + 1)
      else if maxExponent < exponentFor num den then .infinite negative else .finite negative m (exponentFor num den) := by
    unfold ofRatio
    rw [if_neg hnum.ne']
    simp only [hm, Nat.pow_eq]
    split <;> rfl
  -- A number with all its bits is finite exactly up to the largest exponent.
  have hcases : ∀ (m : Nat) (e : Int), rounded num den = m * 2 ^ e → m < 2 ^ 53 → minExponent ≤ e →
      (maxExponent < e → 2 ^ 52 ≤ m) →
      ofRatio negative num den = (if maxExponent < e then .infinite negative else .finite negative m e) →
      (rounded num den < beyond ∧ ∃ m e, ofRatio negative num den = .finite negative m e ∧
        (m : ℚ) * 2 ^ e = rounded num den ∧ m < 2 ^ 53 ∧ minExponent ≤ e) ∨
      (beyond ≤ rounded num den ∧ ofRatio negative num den = .infinite negative) := by
    intro m e hvalue hm he hfull heq
    by_cases hlarge : maxExponent < e
    · refine Or.inr ⟨?_, by rw [heq, if_pos hlarge]⟩
      calc beyond ≤ 2 ^ ((52 : Int) + e) := zpow_le_zpow_right₀ one_le_two (by unfold maxExponent at hlarge; omega)
        _ = ((2 ^ 52 : Nat) : ℚ) * 2 ^ e := (two_pow_mul_zpow 52 e).symm
        _ ≤ m * 2 ^ e := mul_le_mul_of_nonneg_right (Nat.cast_le.2 (hfull hlarge)) (two_zpow_pos e).le
        _ = rounded num den := hvalue.symm
    · refine Or.inl ⟨?_, m, e, by rw [heq, if_neg hlarge], hvalue.symm, hm, he⟩
      calc rounded num den = m * 2 ^ e := hvalue
        _ < ((2 ^ 53 : Nat) : ℚ) * 2 ^ e := mul_lt_mul_of_pos_right (Nat.cast_lt.2 hm) (two_zpow_pos e)
        _ = 2 ^ ((53 : Int) + e) := two_pow_mul_zpow 53 e
        _ ≤ beyond := zpow_le_zpow_right₀ one_le_two (by unfold maxExponent at hlarge; omega)
  by_cases hcarry : m = 2 ^ 53
  · rw [if_pos hcarry] at hofRatio
    refine hcases (2 ^ 52) (exponentFor num den + 1) ?_ (by decide) (by omega) (fun _ => le_rfl) hofRatio
    rw [hrounded, hcarry, two_pow_mul_zpow, two_pow_mul_zpow]
    congr 1
    omega
  · rw [if_neg hcarry] at hofRatio
    refine hcases m (exponentFor num den) hrounded (by omega) hleast (fun hlarge => hbits ?_) hofRatio
    exact lt_trans (by decide) hlarge

/-- Zero over anything is zero. -/
theorem ofRatio_zero (negative : Bool) (den : Nat) : ofRatio negative 0 den = .finite negative 0 minExponent := by
  unfold ofRatio
  rw [if_pos rfl]
  unfold zero
  rfl

/-- The whole part of a finite number. -/
theorem truncate?_finite (negative : Bool) (m : Nat) (e : Int) :
    truncate? (.finite negative m e) = some (if negative then -⌊(m : ℚ) * 2 ^ e⌋ else ⌊(m : ℚ) * 2 ^ e⌋) := by
  have hfloor : ⌊(m : ℚ) * 2 ^ e⌋ = ((m * (powRatio e).1 / (powRatio e).2 : Nat) : Int) := by
    rw [← powRatio_div, ← mul_div_assoc, ← Nat.cast_mul]
    exact Rat.floor_natCast_div_natCast _ _
  rw [hfloor]
  rfl

/-- The whole part of a rounded quotient, unless it is beyond all finite numbers. -/
theorem truncate?_ofRatio {num den : Nat} (hden : 0 < den) (negative : Bool) :
    truncate? (ofRatio negative num den) =
      if rounded num den < beyond then some (if negative then -⌊rounded num den⌋ else ⌊rounded num den⌋) else none := by
  rcases num.eq_zero_or_pos with rfl | hnum
  · have hbeyond : (0 : ℚ) < beyond := two_zpow_pos 1024
    rw [ofRatio_zero, truncate?_finite, rounded_zero, if_pos hbeyond, Nat.cast_zero, zero_mul]
  · rcases ofRatio_cases hnum hden negative with ⟨hlt, m, e, heq, hvalue, -⟩ | ⟨hge, heq⟩
    · rw [heq, truncate?_finite, hvalue, if_pos hlt]
    · rw [heq, if_neg (not_lt.2 hge)]
      rfl

/-- A rounded quotient is finite unless it is beyond all finite numbers. -/
theorem isFinite_ofRatio {num den : Nat} (hden : 0 < den) (negative : Bool) :
    (ofRatio negative num den).isFinite = true ↔ rounded num den < beyond := by
  rcases num.eq_zero_or_pos with rfl | hnum
  · rw [ofRatio_zero, rounded_zero]
    exact iff_of_true rfl (two_zpow_pos 1024)
  · rcases ofRatio_cases hnum hden negative with ⟨hlt, m, e, heq, -⟩ | ⟨hge, heq⟩
    · rw [heq]
      exact iff_of_true rfl hlt
    · rw [heq]
      exact iff_of_false Bool.false_ne_true (not_lt.2 hge)

/-- Rounding keeps the sign. -/
theorem isNegative_ofRatio {num den : Nat} (hden : 0 < den) (negative : Bool) :
    (ofRatio negative num den).isNegative = negative := by
  rcases num.eq_zero_or_pos with rfl | hnum
  · rw [ofRatio_zero]
    rfl
  · rcases ofRatio_cases hnum hden negative with ⟨-, m, e, heq, -⟩ | ⟨-, heq⟩
    · rw [heq]
      rfl
    · rw [heq]
      rfl

/-- A positive whole number is a quotient over one. -/
theorem ofInt_of_pos {n : Int} (h : 0 < n) : ofInt n = ofRatio false n.natAbs 1 := by
  unfold ofInt ofQuotient
  rw [decide_eq_false (not_lt.2 h.le)]

/-! ## Products -/

/-- The product of numbers without minus signs has none. -/
theorem isNegative_mul {x y : Binary64} (hx : x.isNegative = false) (hy : y.isNegative = false) :
    (x.mul y).isNegative = false := by
  cases x with
  | nan => cases y <;> rfl
  | infinite negative =>
    obtain rfl : negative = false := hx
    cases y with
    | nan => rfl
    | _ =>
      obtain rfl := hy
      unfold mul
      dsimp only
      split <;> rfl
  | finite negative m e =>
    obtain rfl : negative = false := hx
    cases y with
    | nan => rfl
    | infinite negative =>
      obtain rfl : negative = false := hy
      unfold mul
      dsimp only
      split <;> rfl
    | finite negative n f =>
      obtain rfl : negative = false := hy
      exact isNegative_ofRatio (powRatio_pos (e + f)).2 false

/-- A number without the negative sign is rounded to none below zero. -/
theorem round?_nonneg {x : Binary64} {n : Int} (hx : x.isNegative = false) (h : x.round? = some n) : 0 ≤ n := by
  cases x with
  | infinite negative => cases h
  | nan => cases h
  | finite negative m e =>
    obtain rfl : negative = false := hx
    simp only [round?, Option.some.injEq, Bool.false_eq_true, if_false] at h
    rw [← h]
    exact Int.natCast_nonneg _

/-- A finite number from zero to one. -/
structure InUnit (x : Binary64) : Prop where
  isFinite : x.isFinite = true
  nonneg : 0 ≤ x.value
  le_one : x.value ≤ 1

/-- A share of a finite number is finite, and its whole part is that of the rounded product. -/
theorem InUnit.truncate?_mul {x : Binary64} (hx : x.InUnit) {n : Nat} {f : Int} (hn : n < 2 ^ 53) (hf : minExponent ≤ f)
    (hlt : (n : ℚ) * 2 ^ f < beyond) :
    ∃ num den : Nat, 0 < den ∧ (num : ℚ) / den = x.value * (n * 2 ^ f) ∧
      (x.mul (.finite false n f)).truncate? = some ⌊rounded num den⌋ := by
  obtain ⟨hfinite, hnonneg, hle⟩ := hx
  cases x with
  | infinite negative => cases hfinite
  | nan => cases hfinite
  | finite negative m e =>
    have habs : (m : ℚ) * 2 ^ e = value (.finite negative m e) := by
      cases negative with
      | false => rfl
      | true =>
        have hm : 0 ≤ (m : ℚ) * 2 ^ e := mul_nonneg (Nat.cast_nonneg m) (two_zpow_pos e).le
        have hneg : value (.finite true m e) = -(m * 2 ^ e) := rfl
        rw [hneg] at hnonneg ⊢
        linarith
    have hratio : ((m * n * (powRatio (e + f)).1 : Nat) : ℚ) / (powRatio (e + f)).2 =
        value (.finite negative m e) * (n * 2 ^ f) := by
      rw [Nat.cast_mul, mul_div_assoc, powRatio_div, zpow_add₀ two_ne_zero, Nat.cast_mul, ← habs]
      ring
    have hshare : value (.finite negative m e) * (n * 2 ^ f) ≤ n * 2 ^ f :=
      mul_le_of_le_one_left (mul_nonneg (Nat.cast_nonneg n) (two_zpow_pos f).le) hle
    have hrounded : rounded (m * n * (powRatio (e + f)).1) (powRatio (e + f)).2 < beyond :=
      lt_of_le_of_lt (rounded_le (powRatio_pos _).2 hn.le hf (hratio.trans_le hshare)) hlt
    refine ⟨_, _, (powRatio_pos (e + f)).2, hratio, ?_⟩
    have hmul : (Binary64.finite negative m e).mul (.finite false n f) =
        ofRatio (negative != false) (m * n * (powRatio (e + f)).1) (powRatio (e + f)).2 := rfl
    rw [hmul, truncate?_ofRatio (powRatio_pos _).2, if_pos hrounded]
    cases negative with
    | false => rfl
    | true =>
      have hm : m = 0 := by
        have hneg : value (.finite true m e) = -(m * 2 ^ e) := rfl
        have hzero : (m : ℚ) * 2 ^ e = 0 := by linarith
        exact_mod_cast (mul_eq_zero.1 hzero).resolve_right (two_zpow_pos e).ne'
      simp only [hm, Nat.zero_mul, rounded_zero, Int.floor_zero, neg_zero, ite_self]

end Binary64

end SignedCall
