import Mathlib.Data.Char
import Mathlib.Data.List.Forall2
import Mathlib.Data.List.Lex
import SignedCall.Proofs.Text.Digit
import SignedCall.Time.DateTime

/-!
# Numbers in columns

A number with leading zeros fills the width it is given (`fills_padded`). A row of such numbers, each with a mark after it, is a text
of a fixed form (`Row.hasForm`), and two rows of the same columns are ordered like their numbers (`Row.lt_iff`).
-/

namespace SignedCall

open Text (isAsciiDigit natOfDigits)

/-- Texts of equal lengths decide the order of what they start, and if they are the same the rest does. -/
theorem append_lt_append_iff {α : Type} [LT α] {as as' bs bs' : List α} (h : as.length = as'.length) :
    as ++ bs < as' ++ bs' ↔ as < as' ∨ as = as' ∧ bs < bs' := by
  induction as generalizing as' with
  | nil =>
    cases List.eq_nil_of_length_eq_zero h.symm
    simp
  | cons a as ih =>
    cases as' with
    | nil => cases h
    | cons a' as' =>
      rw [List.cons_append, List.cons_append, List.cons_lt_cons_iff, List.cons_lt_cons_iff, ih (Nat.succ.inj h), List.cons.injEq]
      tauto

/-- What is ordered alike is also the same alike. -/
theorem eq_iff_of_lt_iff {α β : Type} [LinearOrder α] [LinearOrder β] {a b : α} {x y : β} (h : a < b ↔ x < y)
    (h' : b < a ↔ y < x) : a = b ↔ x = y := by
  rw [← not_iff_not, ← ne_eq, ← ne_eq, ← lt_or_lt_iff_ne, ← lt_or_lt_iff_ne, h, h']

/-! ## One column -/

/-- A text of `width` digits that writes the number `n`. -/
structure Fills (width n : Nat) (ds : List Char) : Prop where
  length : ds.length = width
  digit : ∀ c ∈ ds, isAsciiDigit c = true
  value : natOfDigits ds = n

/-- Columns of the same width are ordered like their numbers. -/
theorem Fills.lt_iff {width n n' : Nat} {ds ds' : List Char} (h : Fills width n ds) (h' : Fills width n' ds') :
    ds < ds' ↔ n < n' := by
  rw [Text.lt_iff_natOfDigits_lt h.digit h'.digit (h.length.trans h'.length.symm), h.value, h'.value]

/-- Columns of the same width are the same if their numbers are. -/
theorem Fills.eq_iff {width n n' : Nat} {ds ds' : List Char} (h : Fills width n ds) (h' : Fills width n' ds') :
    ds = ds' ↔ n = n' :=
  eq_iff_of_lt_iff (h.lt_iff h') (h'.lt_iff h)

/-- A number is written with zeros in front of its digits. -/
theorem toList_padded (width n : Nat) :
    (padded width n).toList = List.replicate (width - (Nat.toDigits 10 n).length) '0' ++ Nat.toDigits 10 n := String.toList_ofList

/-- A number that is not too long for a width fills it with leading zeros. -/
theorem fills_padded {width n : Nat} (hwidth : 0 < width) (h : n < Nat.pow 10 width) : Fills width n (padded width n).toList := by
  have hle := Text.length_toDigits_le hwidth h
  rw [toList_padded]
  refine ⟨?_, ?_, ?_⟩
  · rw [List.length_append, List.length_replicate, Nat.sub_add_cancel hle]
  · intro c hc
    rcases List.mem_append.1 hc with hzero | hdigit
    · rw [List.eq_of_mem_replicate hzero]
      decide
    · exact Text.isAsciiDigit_of_mem_toDigits hdigit
  · rw [Text.natOfDigits_replicate_append, Text.natOfDigits_toDigits]

/-- A number of just as many digits as a width fills it without leading zeros. -/
theorem fills_toString {width n : Nat} (h : Nat.pow 10 width ≤ n) (h' : n < Nat.pow 10 (width + 1)) :
    Fills (width + 1) n (toString n).toList := by
  have hle := Text.length_toDigits_le width.succ_pos h'
  have hge : ¬(Nat.toDigits 10 n).length ≤ width := by
    intro hshort
    rcases width.eq_zero_or_pos with rfl | hwidth
    · exact Nat.toDigits_ne_nil (List.eq_nil_of_length_eq_zero (Nat.le_zero.1 hshort))
    · exact Nat.not_le_of_lt ((Nat.length_toDigits_le_iff (by decide) hwidth).1 hshort) h
  have hpadded := fills_padded width.succ_pos h'
  rwa [toList_padded, show width + 1 - (Nat.toDigits 10 n).length = 0 by omega, List.replicate_zero, List.nil_append,
    ← Text.toList_toString_ofNat] at hpadded

/-! ## Rows -/

/-- A column: its width, and the mark after it. -/
abbrev Column := Nat × Char

/-- A text of numbers in columns, each filled and with its mark after it. -/
inductive Row : List Column → List Nat → List Char → Prop where
  | nil : Row [] [] []
  | cons {width n : Nat} {mark : Char} {ds text : List Char} {columns : List Column} {ns : List Nat} :
      Fills width n ds → Row columns ns text → Row ((width, mark) :: columns) (n :: ns) (ds ++ mark :: text)

namespace Row

variable {columns : List Column} {ns ns' : List Nat} {text text' : List Char}

/-- Rows of the same columns are ordered like their numbers. -/
theorem lt_iff (h : Row columns ns text) (h' : Row columns ns' text') : text < text' ↔ ns < ns' := by
  induction h generalizing ns' text' with
  | nil =>
    cases h'
    exact iff_of_false (List.not_lt_nil []) (List.not_lt_nil [])
  | cons hfills _ ih =>
    cases h' with
    | cons hfills' hrow' =>
      rw [append_lt_append_iff (hfills.length.trans hfills'.length.symm), List.cons_lt_cons_iff, List.cons_lt_cons_iff,
        hfills.lt_iff hfills', hfills.eq_iff hfills', ih hrow']
      simp

/-- What the columns look like, with zeros for the digits. -/
def form (columns : List Column) : List Char := columns.flatMap fun column => List.replicate column.1 '0' ++ [column.2]

/-- Whether a text has a form: a digit for every zero, and every other character as it is. -/
def HasForm (form text : List Char) : Prop :=
  List.Forall₂ (fun k c => if k = '0' then isAsciiDigit c = true else c = k) form text

/-- Digits have the form of as many zeros. -/
theorem hasForm_digits {ds : List Char} (h : ∀ c ∈ ds, isAsciiDigit c = true) : HasForm (List.replicate ds.length '0') ds := by
  induction ds with
  | nil => exact .nil
  | cons c ds ih =>
    rw [List.forall_mem_cons] at h
    exact .cons (by rw [if_pos rfl]; exact h.1) (ih h.2)

theorem hasForm_self (mark : Char) : if mark = '0' then isAsciiDigit mark = true else mark = mark := by
  split
  next h => exact h ▸ rfl
  next => rfl

/-- A row has the form of its columns. -/
theorem hasForm (h : Row columns ns text) : HasForm (form columns) text := by
  induction h with
  | nil => exact .nil
  | cons hfills _ ih =>
    have hdigits := hasForm_digits hfills.digit
    rw [hfills.length] at hdigits
    rw [form, List.flatMap_cons, List.append_assoc]
    exact List.rel_append hdigits (.cons (hasForm_self _) ih)

end Row

end SignedCall
