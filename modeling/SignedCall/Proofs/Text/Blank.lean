import Mathlib.Data.List.DropRight
import SignedCall.Proofs.Text.Case
import SignedCall.Text.Blank

/-!
# Blanks and lower case

What is left of a text that is stripped of its blanks is told by where the blanks stand (`strips_trim`, `Strips.eq_trim`). A blank is its
own lower-case form, so it is still there when a text was lower-cased, and a text whose lower-case form has no blanks has none to be
stripped of (`strip_of_lower`).
-/

namespace SignedCall.Text

/-- The code points of the blanks. -/
def blankPoints : List Nat :=
  [0x09, 0x0a, 0x0b, 0x0c, 0x0d, 0x1c, 0x1d, 0x1e, 0x1f, 0x20, 0x85, 0xa0, 0x1680, 0x2000, 0x2001, 0x2002, 0x2003, 0x2004, 0x2005,
    0x2006, 0x2007, 0x2008, 0x2009, 0x200a, 0x2028, 0x2029, 0x202f, 0x205f, 0x3000]

theorem mem_blankPoints {c : Char} (h : isBlank c = true) : c.toNat ∈ blankPoints := by
  simp only [isBlank, Bool.or_eq_true, Bool.and_eq_true, decide_eq_true_eq, beq_iff_eq] at h
  simp only [blankPoints, List.mem_cons, List.not_mem_nil, or_false]
  omega

/-- Blanks are their own lower-case forms. -/
theorem settled_of_isBlank {c : Char} (h : isBlank c = true) : Settled c := by
  have hall : (blankPoints.all fun n => Char.ofNat n != 'Σ' && Char.ofNat n != 'İ' && lowerChar (Char.ofNat n) == Char.ofNat n) = true := by
    decide +kernel
  have hc := List.all_eq_true.1 hall c.toNat (mem_blankPoints h)
  rw [Char.ofNat_toNat] at hc
  simpa [Settled, and_assoc] using hc

/-! ## What stripping leaves -/

theorem eq_false_of_head?_dropWhile {α : Type} {p : α → Bool} {xs : List α} {x : α} (h : (xs.dropWhile p).head? = some x) :
    p x = false := by
  have hnot := List.head?_dropWhile_not p xs
  rwa [h] at hnot

theorem dropWhile_of_head? {α : Type} {p : α → Bool} {xs : List α} (h : ∀ x ∈ xs.head?, p x = false) : xs.dropWhile p = xs := by
  cases xs with
  | nil => rfl
  | cons x xs => exact List.dropWhile_cons_of_neg (by simp [h x rfl])

/-- What is left of a text when the blanks at either end are taken off. -/
structure Strips (cs kept : List Char) : Prop where
  around : ∃ front back : List Char, cs = front ++ (kept ++ back) ∧ (∀ c ∈ front, isBlank c = true) ∧ ∀ c ∈ back, isBlank c = true
  first : ∀ c ∈ kept.head?, isBlank c = false
  last : ∀ c ∈ kept.getLast?, isBlank c = false

/-- Trimming leaves what is left when the blanks at either end are taken off. -/
theorem strips_trim (cs : List Char) : Strips cs (trim cs) := by
  have hinner : trim cs ++ (cs.dropWhile isBlank).rtakeWhile isBlank = cs.dropWhile isBlank := List.rdropWhile_append_rtakeWhile
  refine ⟨⟨cs.takeWhile isBlank, (cs.dropWhile isBlank).rtakeWhile isBlank, ?_, fun c => List.mem_takeWhile_imp,
    fun c => List.mem_rtakeWhile_imp⟩, fun c hc => ?_, fun c hc => ?_⟩
  · rw [hinner, List.takeWhile_append_dropWhile]
  · have hhead : (cs.dropWhile isBlank).head? = some c := by rw [← hinner, List.head?_append, Option.mem_def.1 hc, Option.some_or]
    exact eq_false_of_head?_dropWhile hhead
  · have hhead : ((cs.dropWhile isBlank).reverse.dropWhile isBlank).head? = some c := by rw [← List.getLast?_reverse]; exact hc
    exact eq_false_of_head?_dropWhile hhead

/-- Nothing else is left when the blanks at either end are taken off. -/
theorem Strips.eq_trim {cs kept : List Char} (h : Strips cs kept) : kept = trim cs := by
  obtain ⟨⟨front, back, rfl, hfront, hback⟩, hfirst, hlast⟩ := h
  rw [trim, List.dropWhile_append_of_pos hfront]
  cases kept with
  | nil =>
    rw [List.nil_append, List.dropWhile_eq_nil_iff.2 hback]
    rfl
  | cons c cs =>
    have hleft : (c :: cs ++ back).dropWhile isBlank = c :: cs ++ back := dropWhile_of_head? fun d hd => hfirst d hd
    have hreverse : ∀ d ∈ back.reverse, isBlank d = true := fun d hd => hback d (List.mem_reverse.1 hd)
    have hright : (c :: cs).reverse.dropWhile isBlank = (c :: cs).reverse :=
      dropWhile_of_head? fun d hd => hlast d (by rwa [List.head?_reverse] at hd)
    rw [hleft, dropEnd, List.reverse_append, List.dropWhile_append_of_pos hreverse, hright, List.reverse_reverse]

/-- A text without blanks has none to be stripped of. -/
theorem strip_of_not_blank {s : String} (h : ∀ c ∈ s.toList, isBlank c = false) : strip s = s := by
  have hstrips : Strips s.toList s.toList := by
    refine ⟨⟨[], [], by simp, nofun, nofun⟩, fun c hc => h c (List.mem_of_mem_head? hc), fun c hc => h c ?_⟩
    exact List.mem_of_getLast? (Option.mem_def.1 hc)
  rw [strip, ← hstrips.eq_trim, String.ofList_toList]

/-- Neither has a text whose lower-case form is without blanks. -/
theorem strip_of_lower {s : String} (h : ∀ c ∈ (lower s).toList, isBlank c = false) : strip s = s := by
  refine strip_of_not_blank fun c hc => ?_
  cases hblank : isBlank c with
  | false => rfl
  | true =>
    have hmem : c ∈ (lower s).toList := by
      rw [lower, String.toList_ofList]
      exact mem_lowerFrom_of_settled (settled_of_isBlank hblank) hc
    exact hblank.symm.trans (h c hmem)

end SignedCall.Text
