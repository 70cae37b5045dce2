import Mathlib.Data.List.Induction
import Mathlib.Tactic.Ring
import SignedCall.Text.Digit

/-!
# Decimal digits

Whole numbers are written with their decimal digits, and read back from them (`natOfDigits_toDigits`). No digits that write a number
are fewer than these (`length_toDigits_natOfDigits_le`), and texts of equally many digits are ordered like the numbers they write
(`lt_iff_natOfDigits_lt`).
-/

namespace SignedCall.Text

/-- The digits of a number as they are written. -/
theorem isAsciiDigit_of_mem_toDigits {c : Char} {n : Nat} (h : c ∈ Nat.toDigits 10 n) : isAsciiDigit c = true := by
  have hdigit := Nat.isDigit_of_mem_toDigits (by decide) (by decide) h
  exact hdigit

/-- A natural number is written with its decimal digits. -/
theorem toList_toString_ofNat (n : Nat) : (toString (Int.ofNat n)).toList = Nat.toDigits 10 n := by
  show (toString n).toList = _
  simp

/-- A number is read back from its decimal digits. -/
theorem natOfDigits_toDigits (n : Nat) : natOfDigits (Nat.toDigits 10 n) = n := by
  have hsame : natOfDigits (Nat.toDigits 10 n) = Nat.ofDigitChars 10 (Nat.toDigits 10 n) 0 := by
    simp only [natOfDigits, Nat.ofDigitChars, Nat.mul_comm]
    rfl
  rw [hsame, Nat.ofDigitChars_ten_toDigits]

/-- The digits are ten code points in a row. -/
theorem isAsciiDigit_iff {c : Char} : isAsciiDigit c = true ↔ 48 ≤ c.toNat ∧ c.toNat ≤ 57 := by
  unfold isAsciiDigit
  rw [Bool.and_eq_true, decide_eq_true_eq, decide_eq_true_eq]
  exact Iff.rfl

theorem digit_le {c : Char} (h : isAsciiDigit c = true) : c.toNat - 48 ≤ 9 := by
  have hc := isAsciiDigit_iff.1 h
  omega

/-- One more digit at the end counts what it is, and the others ten times as much. -/
theorem natOfDigits_append_singleton (ds : List Char) (c : Char) :
    natOfDigits (ds ++ [c]) = natOfDigits ds * 10 + (c.toNat - 48) := by
  rw [natOfDigits, List.foldl_append]
  rfl

/-- Digits write a number below the power of ten for their length. -/
theorem natOfDigits_lt {ds : List Char} (h : ∀ c ∈ ds, isAsciiDigit c = true) : natOfDigits ds < Nat.pow 10 ds.length := by
  induction ds using List.reverseRecOn with
  | nil => decide
  | append_singleton ds c ih =>
    have hds := ih fun c hc => h c (List.mem_append_left _ hc)
    have hc := digit_le (h c (List.mem_append_right _ List.mem_cons_self))
    calc natOfDigits (ds ++ [c]) = natOfDigits ds * 10 + (c.toNat - 48) := natOfDigits_append_singleton ds c
      _ < (natOfDigits ds + 1) * 10 := by omega
      _ ≤ Nat.pow 10 ds.length * 10 := Nat.mul_le_mul_right 10 hds
      _ = Nat.pow 10 (ds ++ [c]).length := by rw [List.length_append]; rfl

/-- A number below a power of ten has no more digits than that. -/
theorem length_toDigits_le {n d : Nat} (hd : 0 < d) (h : n < Nat.pow 10 d) : (Nat.toDigits 10 n).length ≤ d :=
  (Nat.length_toDigits_le_iff (by decide) hd).2 h

/-- A number is written with as few digits as there can be. -/
theorem length_toDigits_natOfDigits_le {ds : List Char} (hne : ds ≠ []) (h : ∀ c ∈ ds, isAsciiDigit c = true) :
    (Nat.toDigits 10 (natOfDigits ds)).length ≤ ds.length :=
  length_toDigits_le (List.length_pos_iff.2 hne) (natOfDigits_lt h)

/-- No number is written with a leading zero, but zero itself. -/
theorem eq_nil_of_toDigits_eq {n : Nat} {more : List Char} (h : Nat.toDigits 10 n = '0' :: more) : more = [] := by
  by_contra hne
  have hdigits : ∀ c ∈ more, isAsciiDigit c = true := fun c hc =>
    isAsciiDigit_of_mem_toDigits (n := n) (h ▸ List.mem_cons_of_mem _ hc)
  have hsame : natOfDigits more = n := by
    have hn := natOfDigits_toDigits n
    rw [h] at hn
    exact hn
  have hle := length_toDigits_natOfDigits_le hne hdigits
  rw [hsame, h, List.length_cons] at hle
  omega

/-! ## The order of digits -/

/-- The first digit counts as many times as the power of ten for its place. -/
theorem natOfDigits_cons (c : Char) (ds : List Char) :
    natOfDigits (c :: ds) = (c.toNat - 48) * Nat.pow 10 ds.length + natOfDigits ds := by
  induction ds using List.reverseRecOn with
  | nil => simp [natOfDigits]
  | append_singleton ds d ih =>
    rw [← List.cons_append, natOfDigits_append_singleton, ih, natOfDigits_append_singleton, List.length_append,
      List.length_singleton, Nat.pow_eq, Nat.pow_eq, Nat.pow_succ]
    ring

/-- Leading zeros do not change what digits write. -/
theorem natOfDigits_replicate_append (k : Nat) (ds : List Char) : natOfDigits (List.replicate k '0' ++ ds) = natOfDigits ds := by
  induction k with
  | zero => rfl
  | succ k ih =>
    rw [List.replicate_succ, List.cons_append, natOfDigits_cons, ih]
    simp

/-- Numbers of two places are ordered by the first place, then by the second one. -/
theorem mul_add_lt_iff {a b p q r : Nat} (hq : q < p) (hr : r < p) : a * p + q < b * p + r ↔ a < b ∨ a = b ∧ q < r := by
  rcases Nat.lt_trichotomy a b with h | rfl | h
  · have hstep : (a + 1) * p ≤ b * p := Nat.mul_le_mul_right p h
    rw [Nat.succ_mul] at hstep
    exact iff_of_true (by omega) (.inl h)
  · simp
  · have hstep : (b + 1) * p ≤ a * p := Nat.mul_le_mul_right p h
    rw [Nat.succ_mul] at hstep
    exact iff_of_false (by omega) (by omega)

/-- Texts of equally many digits are ordered like the numbers they write. -/
theorem lt_iff_natOfDigits_lt {ds ds' : List Char} (h : ∀ c ∈ ds, isAsciiDigit c = true) (h' : ∀ c ∈ ds', isAsciiDigit c = true)
    (hlength : ds.length = ds'.length) : ds < ds' ↔ natOfDigits ds < natOfDigits ds' := by
  induction ds generalizing ds' with
  | nil =>
    cases List.eq_nil_of_length_eq_zero hlength.symm
    exact iff_of_false (List.not_lt_nil []) (Nat.lt_irrefl _)
  | cons c ds ih =>
    cases ds' with
    | nil => cases hlength
    | cons c' ds' =>
      rw [List.forall_mem_cons] at h h'
      have htail : ds.length = ds'.length := Nat.succ.inj hlength
      have hc := isAsciiDigit_iff.1 h.1
      have hc' := isAsciiDigit_iff.1 h'.1
      have hfirst : c < c' ↔ c.toNat - 48 < c'.toNat - 48 := by
        show c.toNat < c'.toNat ↔ _
        omega
      have hsame : c = c' ↔ c.toNat - 48 = c'.toNat - 48 := by
        rw [← Char.toNat_inj]
        omega
      rw [natOfDigits_cons, natOfDigits_cons, ← htail, mul_add_lt_iff (natOfDigits_lt h.2) (htail ▸ natOfDigits_lt h'.2),
        List.cons_lt_cons_iff, hfirst, hsame, ih h.2 h'.2 htail]

/-! ## Whole numbers -/

/-- The characters of a whole number. -/
def intChars (n : Int) : List Char := (if n < 0 then ['-'] else []) ++ Nat.toDigits 10 n.natAbs

/-- A number starts with a minus sign or a digit. -/
theorem exists_intChars_eq_cons (n : Int) : ∃ c more, intChars n = c :: more ∧ (c = '-' ∨ isAsciiDigit c = true) := by
  by_cases h : n < 0
  · exact ⟨'-', Nat.toDigits 10 n.natAbs, by rw [intChars, if_pos h]; rfl, Or.inl rfl⟩
  · obtain ⟨d, ds, heq⟩ := List.exists_cons_of_ne_nil (Nat.toDigits_ne_nil (b := 10) (n := n.natAbs))
    exact ⟨d, ds, by rw [intChars, if_neg h, heq]; rfl, Or.inr (isAsciiDigit_of_mem_toDigits (heq ▸ List.mem_cons_self))⟩

/-- A whole number is written with its sign and its digits. -/
theorem toList_toString (n : Int) : (toString n).toList = intChars n := by
  cases n with
  | ofNat n =>
    rw [toList_toString_ofNat]
    rfl
  | negSucc n =>
    show ("-" ++ toString (n + 1)).toList = _
    rw [String.toList_append]
    simp [intChars]

end SignedCall.Text
