/-!
# Rounding quotients

The nearest whole number to a quotient, a half going to the even neighbour.
-/

namespace SignedCall

/-- The whole number nearest to `num / den`, the even one of two equally near. -/
def roundHalfEven (num den : Nat) : Nat :=
  if den < 2 * (num % den) ∨ 2 * (num % den) = den ∧ num / den % 2 = 1 then num / den + 1 else num / den

/-- Rounding stays within half a unit of the quotient. -/
theorem two_mul_roundHalfEven_mul_le {num den : Nat} (h : 0 < den) :
    2 * (roundHalfEven num den * den) ≤ 2 * num + den ∧ 2 * num ≤ 2 * (roundHalfEven num den * den) + den := by
  have hmod := Nat.mod_lt num h
  have hdiv : den * (num / den) + num % den = num := Nat.div_add_mod num den
  rw [Nat.mul_comm] at hdiv
  unfold roundHalfEven
  split
  · rw [Nat.add_mul]
    omega
  · omega

/-- A quotient that is a whole number stays as it is. -/
theorem roundHalfEven_mul {n den : Nat} (h : 0 < den) : roundHalfEven (n * den) den = n := by
  simp only [roundHalfEven, Nat.mul_mod_left, Nat.mul_div_cancel _ h]
  split <;> omega

end SignedCall
