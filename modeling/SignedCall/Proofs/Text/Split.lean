import Mathlib.Tactic.Common
import SignedCall.Text.Split

/-!
# Cutting what was put together

Cutting at a separator takes a text apart where it was put together, as long as the part in front does not hold the separator:
for one cut (`cutAt_append`), and for a list of parts (`splitOnChar_intercalate`).
-/

namespace SignedCall.Text

variable {sep : Char} {cs before after : List Char}

/-- What does not hold the separator is passed over. -/
theorem cutAt_append_left (h : sep ∉ before) (cs : List Char) :
    cutAt sep (before ++ cs) = (before ++ (cutAt sep cs).1, (cutAt sep cs).2) := by
  induction before with
  | nil => rfl
  | cons c before ih =>
    rw [List.mem_cons, not_or] at h
    rw [List.cons_append, cutAt, if_neg (Ne.symm h.1), ih h.2, List.cons_append]

/-- A text is cut where its separator was put. -/
theorem cutAt_append (h : sep ∉ before) (after : List Char) : cutAt sep (before ++ sep :: after) = (before, some after) := by
  rw [cutAt_append_left h]
  simp [cutAt]

theorem cutAt_of_not_mem (h : sep ∉ cs) : cutAt sep cs = (cs, none) := by
  have hcut := cutAt_append_left h []
  simpa [cutAt] using hcut

/-- A text is what stands before the first separator, and with it what stands after it; only the latter may hold the separator. -/
theorem cutAt_spec (sep : Char) (cs : List Char) :
    sep ∉ (cutAt sep cs).1 ∧ cs = (cutAt sep cs).1 ++ ((cutAt sep cs).2.map (sep :: ·)).getD [] := by
  induction cs with
  | nil => simp [cutAt]
  | cons c cs ih =>
    unfold cutAt
    split_ifs with h
    · simp [h]
    · exact ⟨by simp [Ne.symm h, ih.1], by rw [List.cons_append, ← ih.2]⟩

theorem not_mem_cutAt_fst (sep : Char) (cs : List Char) : sep ∉ (cutAt sep cs).1 := (cutAt_spec sep cs).1

theorem mem_of_mem_cutAt_fst {c : Char} (h : c ∈ (cutAt sep cs).1) : c ∈ cs := by
  rw [(cutAt_spec sep cs).2]
  exact List.mem_append_left _ h

/-- What stands before the first separator begins like the text, and not with the separator. -/
theorem head?_of_head?_cutAt {c : Char} (h : (cutAt sep cs).1.head? = some c) : cs.head? = some c ∧ c ≠ sep := by
  constructor
  · rw [(cutAt_spec sep cs).2, List.head?_append, h, Option.some_or]
  · rintro rfl
    exact not_mem_cutAt_fst c cs (List.mem_of_mem_head? h)

/-- There is nothing after the separator only if there is no separator. -/
theorem not_mem_of_cutAt_snd (h : (cutAt sep cs).2 = none) : sep ∉ cs := by
  have hspec := cutAt_spec sep cs
  rw [h, Option.map_none, Option.getD_none, List.append_nil] at hspec
  rw [hspec.2]
  exact hspec.1

/-- A text that was cut is put together again with the separator. -/
theorem eq_append_of_cutAt_snd (h : (cutAt sep cs).2 = some after) : cs = (cutAt sep cs).1 ++ sep :: after := by
  have hspec := (cutAt_spec sep cs).2
  rw [h] at hspec
  exact hspec

/-- Text behind the first separator comes after what is there. -/
theorem cutAt_append_of_snd (h : (cutAt sep cs).2 = some after) (more : List Char) :
    cutAt sep (cs ++ more) = ((cutAt sep cs).1, some (after ++ more)) := by
  conv_lhs => rw [eq_append_of_cutAt_snd h, List.append_assoc, List.cons_append]
  exact cutAt_append (not_mem_cutAt_fst sep cs) _

theorem mem_of_mem_cutAt_snd {c : Char} (h : (cutAt sep cs).2 = some after) (hc : c ∈ after) : c ∈ cs := by
  rw [eq_append_of_cutAt_snd h]
  exact List.mem_append_right _ (List.mem_cons_of_mem _ hc)

theorem length_cutAt_fst_le (sep : Char) (cs : List Char) : (cutAt sep cs).1.length ≤ cs.length := by
  have hlength := congrArg List.length (cutAt_spec sep cs).2
  rw [List.length_append] at hlength
  omega

/-- Nothing is cut off only if there is no separator. -/
theorem not_mem_of_length_le (h : cs.length ≤ (cutAt sep cs).1.length) : sep ∉ cs := by
  refine not_mem_of_cutAt_snd ?_
  cases hafter : (cutAt sep cs).2 with
  | none => rfl
  | some after =>
    have hlength := congrArg List.length (eq_append_of_cutAt_snd hafter)
    rw [List.length_append, List.length_cons] at hlength
    omega

theorem cutAtLast_of_not_mem (h : sep ∉ cs) : cutAtLast sep cs = (none, cs) := by
  rw [cutAtLast, cutAt_of_not_mem (by simpa using h)]
  simp

/-- Nothing after a separator that does not hold it is part of what stands before the last one. -/
theorem cutAtLast_append (h : sep ∉ after) (before : List Char) : cutAtLast sep (before ++ sep :: after) = (some before, after) := by
  have hreverse : (before ++ sep :: after).reverse = after.reverse ++ sep :: before.reverse := by simp
  rw [cutAtLast, hreverse, cutAt_append (by simpa using h)]
  simp

/-- What stands after the last separator stands before the first one in reverse. -/
theorem cutAtLast_snd (sep : Char) (cs : List Char) : (cutAtLast sep cs).2 = (cutAt sep cs.reverse).1.reverse := by
  unfold cutAtLast
  cases h : cutAt sep cs.reverse with
  | mk after before => cases before <;> rfl

/-- A text is what stands before the last separator, and with it what stands after it. -/
theorem cutAtLast_spec (sep : Char) (cs : List Char) :
    cs = ((cutAtLast sep cs).1.map (· ++ [sep])).getD [] ++ (cutAtLast sep cs).2 := by
  have hspec := (cutAt_spec sep cs.reverse).2
  unfold cutAtLast
  rcases hcut : cutAt sep cs.reverse with ⟨after, - | before⟩ <;> rw [hcut] at hspec
  · simpa using congrArg List.reverse hspec
  · simpa using congrArg List.reverse hspec

/-- What stands after the last separator does not hold it. -/
theorem not_mem_cutAtLast_snd (sep : Char) (cs : List Char) : sep ∉ (cutAtLast sep cs).2 := by
  rw [cutAtLast_snd, List.mem_reverse]
  exact not_mem_cutAt_fst sep _

theorem mem_of_mem_cutAtLast_snd {c : Char} (h : c ∈ (cutAtLast sep cs).2) : c ∈ cs := by
  rw [cutAtLast_snd, List.mem_reverse] at h
  exact List.mem_reverse.1 (mem_of_mem_cutAt_fst h)

/-- A text is split where its first separator was put. -/
theorem splitOnChar_append (h : sep ∉ before) (after : List Char) :
    splitOnChar sep (before ++ sep :: after) = before :: splitOnChar sep after := by
  induction before with
  | nil => simp [splitOnChar]
  | cons c before ih =>
    rw [List.mem_cons, not_or] at h
    rw [List.cons_append, splitOnChar, if_neg (Ne.symm h.1), ih h.2]

/-- A text without the separator is one part. -/
theorem splitOnChar_of_not_mem (h : sep ∉ cs) : splitOnChar sep cs = [cs] := by
  induction cs with
  | nil => rfl
  | cons c cs ih =>
    rw [List.mem_cons, not_or] at h
    rw [splitOnChar, if_neg (Ne.symm h.1), ih h.2]

/-- The parts of a text that was put together at a separator are those of its sides. -/
theorem splitOnChar_append_cons (sep : Char) (before after : List Char) :
    splitOnChar sep (before ++ sep :: after) = splitOnChar sep before ++ splitOnChar sep after := by
  induction before with
  | nil => simp [splitOnChar]
  | cons c before ih =>
    rw [List.cons_append, splitOnChar, splitOnChar, ih]
    split_ifs with hc
    · rfl
    · cases hs : splitOnChar sep before with
      | nil => exact absurd hs (splitOnChar_ne_nil sep before)
      | cons part parts => rfl

/-- Parts without the separator are found again where it was put between them. -/
theorem splitOnChar_intercalate {parts : List (List Char)} (hne : parts ≠ []) (h : ∀ part ∈ parts, sep ∉ part) :
    splitOnChar sep ([sep].intercalate parts) = parts := by
  induction parts with
  | nil => exact absurd rfl hne
  | cons part parts ih =>
    cases parts with
    | nil => rw [List.intercalate_singleton, splitOnChar_of_not_mem (h part List.mem_cons_self)]
    | cons next parts =>
      rw [List.intercalate_cons_cons, List.append_assoc, List.singleton_append,
        splitOnChar_append (h part List.mem_cons_self),
        ih (List.cons_ne_nil _ _) fun p hp => h p (List.mem_cons_of_mem _ hp)]

/-- Every character is the separator, or in one of the parts. -/
theorem mem_part_of_mem (sep : Char) {c : Char} (h : c ∈ cs) : c = sep ∨ ∃ part ∈ splitOnChar sep cs, c ∈ part := by
  induction cs with
  | nil => cases h
  | cons d cs ih =>
    rw [splitOnChar]
    split_ifs with hd
    · rcases List.mem_cons.1 h with rfl | h
      · exact .inl hd
      · rcases ih h with hc | ⟨part, hpart, hc⟩
        · exact .inl hc
        · exact .inr ⟨part, List.mem_cons_of_mem _ hpart, hc⟩
    · cases hs : splitOnChar sep cs with
      | nil => exact absurd hs (splitOnChar_ne_nil sep cs)
      | cons part parts =>
        rw [hs] at ih
        rcases List.mem_cons.1 h with rfl | h
        · exact .inr ⟨c :: part, List.mem_cons_self, List.mem_cons_self⟩
        · rcases ih h with hc | ⟨part', hpart, hc⟩
          · exact .inl hc
          · rcases List.mem_cons.1 hpart with rfl | hpart
            · exact .inr ⟨d :: part', List.mem_cons_self, List.mem_cons_of_mem _ hc⟩
            · exact .inr ⟨part', List.mem_cons_of_mem _ hpart, hc⟩

/-- A change of characters that neither makes nor takes away separators changes the parts. -/
theorem splitOnChar_map {f : Char → Char} (h : ∀ c ∈ cs, f c = sep ↔ c = sep) :
    splitOnChar sep (cs.map f) = (splitOnChar sep cs).map (List.map f) := by
  induction cs with
  | nil => rfl
  | cons c cs ih =>
    have ih := ih fun d hd => h d (List.mem_cons_of_mem _ hd)
    have hc := h c List.mem_cons_self
    rw [List.map_cons, splitOnChar, splitOnChar, ih]
    by_cases hsep : c = sep
    · rw [if_pos (hc.2 hsep), if_pos hsep]
      rfl
    · rw [if_neg fun e => hsep (hc.1 e), if_neg hsep]
      cases hs : splitOnChar sep cs with
      | nil => exact absurd hs (splitOnChar_ne_nil sep cs)
      | cons part parts => rfl

end SignedCall.Text
