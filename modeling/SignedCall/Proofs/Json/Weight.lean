import Mathlib.Data.List.TakeWhile
import SignedCall.Proofs.Json.Bare

/-!
# How much text a value takes

A value cannot be read from fewer characters than it takes to write it: blanks apart, the text of a value has at least as many
characters as the value weighs (`weight_le_of_read?`), a character that JSON escapes counting twice. So a text that has such a
character as it is, and not escaped, is not read as the value it was put together for (`isPlain_of_read?_bare`).
-/

namespace SignedCall.Json

/-! ## Blanks apart -/

/-- The number of characters besides blanks. -/
def bulk (cs : List Char) : Nat := cs.countP fun c => !isSpace c

@[simp] theorem bulk_nil : bulk [] = 0 := rfl

@[simp] theorem bulk_append (cs ds : List Char) : bulk (cs ++ ds) = bulk cs + bulk ds := List.countP_append

theorem bulk_cons (c : Char) (cs : List Char) : bulk (c :: cs) = bulk [c] + bulk cs := bulk_append [c] cs

/-- A character that is no blank adds one. -/
theorem bulk_cons_of_not_isSpace {c : Char} (h : isSpace c = false) (cs : List Char) : bulk (c :: cs) = bulk cs + 1 :=
  List.countP_cons_of_pos (by simp [h])

/-- Blanks have no bulk. -/
theorem bulk_eq_zero {cs : List Char} (h : ∀ c ∈ cs, isSpace c = true) : bulk cs = 0 :=
  List.countP_eq_zero.2 fun c hc => by simp [h c hc]

/-- Where there are no blanks every character counts. -/
theorem bulk_eq_length {cs : List Char} (h : ∀ c ∈ cs, isSpace c = false) : bulk cs = cs.length :=
  List.countP_eq_length.2 fun c hc => by simp [h c hc]

/-- Skipping blanks leaves the bulk as it is. -/
@[simp] theorem bulk_skipSpace (cs : List Char) : bulk (skipSpace cs) = bulk cs := by
  induction cs with
  | nil => rfl
  | cons c cs ih =>
    rw [skipSpace, List.dropWhile_cons]
    split
    · next hc =>
      have hblank : bulk [c] = 0 := bulk_eq_zero (by simpa using hc)
      rw [← skipSpace, ih, bulk_cons, hblank, Nat.zero_add]
    · rfl

/-- What is left of a text has no more bulk than the text. -/
theorem bulk_le_of_isSuffix {cs ds : List Char} (h : cs <:+ ds) : bulk cs ≤ bulk ds := h.sublist.countP_le

/-! ## Weights -/

/-- The characters it takes to write a character in a string, blanks apart. -/
def charWeight (c : Char) : Nat := if isPlain c then bulk [c] else 2

/-- The characters it takes to write some characters in a string. -/
def charsWeight : List Char → Nat
  | [] => 0
  | c :: cs => charWeight c + charsWeight cs

/-- The characters it takes to write a string with its marks. -/
def textWeight (s : String) : Nat := charsWeight s.toList + 2

mutual

/-- The characters it takes at least to write a value; those of a number with a fraction are not counted out. -/
def weight : Json → Nat
  | .null => 1
  | .bool _ => 1
  | .number (.whole n) => (Text.intChars n).length
  | .number (.real _) => 1
  | .text s => textWeight s
  | .array items => max 1 (itemsWeight items) + 1
  | .object fields => max 1 (fieldsWeight fields) + 1

/-- The same for the items of an array, with what stands behind each. -/
def itemsWeight : List Json → Nat
  | [] => 0
  | item :: rest => weight item + 1 + itemsWeight rest

/-- The same for the fields of an object, with what stands behind each. -/
def fieldsWeight : List (String × Json) → Nat
  | [] => 0
  | (name, value) :: rest => textWeight name + 1 + weight value + 1 + fieldsWeight rest

end

/-! ## Strings -/

theorem bulk_singleton_le (c : Char) : bulk [c] ≤ 1 := List.countP_le_length

/-- No character takes more than two to write. -/
theorem charWeight_le (c : Char) : charWeight c ≤ 2 := by
  have := bulk_singleton_le c
  unfold charWeight
  split <;> omega

theorem charsWeight_cons (c : Char) (cs : List Char) : charsWeight (c :: cs) = charWeight c + charsWeight cs := rfl

/-- A letter that stands for an escaped character is no blank. -/
theorem not_isSpace_of_simpleEscape? {c e : Char} (h : simpleEscape? c = some e) : isSpace c = false := by
  by_contra hspace
  have hblank : c = ' ' ∨ c = '\t' ∨ c = '\n' ∨ c = '\r' := by
    simpa only [isSpace, Bool.not_eq_false, Bool.or_eq_true, beq_iff_eq, or_assoc] using hspace
  rcases hblank with rfl | rfl | rfl | rfl <;> cases h

/-- The weight of code units, each as a character of its own. -/
def unitsWeight (us : List Nat) : Nat := charsWeight (us.map Char.ofNat)

theorem unitsWeight_cons (u : Nat) (us : List Nat) : unitsWeight (u :: us) = charWeight (Char.ofNat u) + unitsWeight us := rfl

/-- A surrogate is no character. -/
theorem charWeight_ofNat_surrogate {u : Nat} (h : 0xd800 ≤ u ∧ u ≤ 0xdfff) : charWeight (Char.ofNat u) = 2 := by
  have hnone : ¬u.isValidChar := by
    simp only [Nat.isValidChar]
    omega
  rw [Char.ofNat, dif_neg hnone]
  rfl

/-- A character made of two code units weighs no more than these two. -/
theorem charsWeight_joinSurrogates_le (us : List Nat) : charsWeight (joinSurrogates us) ≤ unitsWeight us := by
  fun_induction joinSurrogates us with
  | case1 => exact Nat.le_refl _
  | case2 u hu v more hv ih =>
    have := charWeight_le (Char.ofNat (0x10000 + (u - 0xd800) * 0x400 + (v - 0xdc00)))
    rw [charsWeight_cons, unitsWeight_cons, unitsWeight_cons, charWeight_ofNat_surrogate (u := u) (by omega)]
    omega
  | case3 u hu v more hv ih =>
    have := charWeight_le '\ufffd'
    rw [charsWeight_cons, unitsWeight_cons, charWeight_ofNat_surrogate (u := u) (by omega)]
    omega
  | case4 u hu =>
    rw [unitsWeight_cons, charWeight_ofNat_surrogate (by omega)]
    exact charWeight_le '\ufffd'
  | case5 u rest hhigh hlow ih =>
    have := charWeight_le '\ufffd'
    rw [charsWeight_cons, unitsWeight_cons, charWeight_ofNat_surrogate (u := u) (by omega)]
    omega
  | case6 u rest hhigh hlow ih =>
    rw [charsWeight_cons, unitsWeight_cons]
    omega

/-- The code units of a string weigh no more than what they are read from. -/
theorem weight_readUnits? {cs : List Char} {us : List Nat} {rest : List Char} (h : readUnits? cs = some (us, rest)) :
    unitsWeight us + 1 + bulk rest ≤ bulk cs := by
  fun_induction readUnits? cs generalizing us rest with
  | case1 => cases h
  | case2 rest =>
    cases h
    rw [bulk_cons_of_not_isSpace rfl, Nat.add_comm]
    exact Nat.le_refl _
  | case3 a b c d cs ih =>
    simp only [Option.bind_eq_bind, Option.bind_eq_some_iff, Option.some.injEq, Prod.mk.injEq, Prod.exists] at h
    obtain ⟨u, -, us, rest, hread, rfl, rfl⟩ := h
    have hunits := ih hread
    have hunit := charWeight_le (Char.ofNat u)
    have hsuffix : bulk cs ≤ bulk (a :: b :: c :: d :: cs) := bulk_le_of_isSuffix ⟨[a, b, c, d], rfl⟩
    rw [unitsWeight_cons, bulk_cons_of_not_isSpace rfl, bulk_cons_of_not_isSpace rfl]
    omega
  | case4 c cs _ ih =>
    simp only [Option.bind_eq_bind, Option.bind_eq_some_iff, Option.some.injEq, Prod.mk.injEq, Prod.exists] at h
    obtain ⟨e, he, us, rest, hread, rfl, rfl⟩ := h
    have hunits := ih hread
    have hunit := charWeight_le (Char.ofNat e.toNat)
    rw [unitsWeight_cons, bulk_cons_of_not_isSpace rfl, bulk_cons_of_not_isSpace (not_isSpace_of_simpleEscape? he)]
    omega
  | case5 => cases h
  | case6 c cs hmark _ _ hplain ih =>
    simp only [Option.bind_eq_bind, Option.bind_eq_some_iff, Option.some.injEq, Prod.mk.injEq, Prod.exists] at h
    obtain ⟨us, rest, hread, rfl, rfl⟩ := h
    have hunits := ih hread
    have hc : isPlain c = true := by
      simp only [Bool.or_eq_true, beq_iff_eq, decide_eq_true_eq, not_or] at hplain
      simp only [isPlain, Bool.and_eq_true, bne_iff_ne, decide_eq_true_eq]
      exact ⟨⟨hmark, hplain.1⟩, by omega⟩
    rw [unitsWeight_cons, Char.ofNat_toNat, charWeight, if_pos hc, bulk_cons c cs]
    omega

/-- A string weighs no more than what it is read from and the quotation mark before it. -/
theorem weight_readString? {cs : List Char} {s : String} {rest : List Char} (h : readString? cs = some (s, rest)) :
    textWeight s + bulk rest ≤ bulk cs + 1 := by
  rw [readString?, Option.map_eq_some_iff] at h
  obtain ⟨⟨us, rest⟩, hread, heq⟩ := h
  cases heq
  have hunits := weight_readUnits? hread
  have hjoin := charsWeight_joinSurrogates_le us
  rw [textWeight, String.toList_ofList]
  omega

/-! ## Numbers and words -/

theorem splitFraction_isSuffix (cs : List Char) : (splitFraction cs).2 <:+ cs := by
  unfold splitFraction
  split
  · next rest =>
    rw [List.span_eq_takeWhile_dropWhile]
    dsimp only
    split
    · exact List.suffix_refl _
    · exact (List.dropWhile_suffix _).trans (List.suffix_cons _ _)
  · exact List.suffix_refl _

theorem splitSign_isSuffix (cs : List Char) : (Text.splitSign cs).2 <:+ cs := by
  unfold Text.splitSign
  split
  · exact List.suffix_cons _ _
  · exact List.suffix_cons _ _
  · exact List.suffix_refl _

theorem splitExponent_isSuffix (cs : List Char) : (splitExponent cs).2 <:+ cs := by
  unfold splitExponent
  split
  · next c rest =>
    split
    · dsimp only
      rw [List.span_eq_takeWhile_dropWhile]
      dsimp only
      split
      · exact List.suffix_refl _
      · exact ((List.dropWhile_suffix _).trans (splitSign_isSuffix rest)).trans (List.suffix_cons _ _)
    · exact List.suffix_refl _
  · exact List.suffix_refl _

/-- A text is the whole part of a number and what follows it. -/
theorem splitWhole_append (cs : List Char) : (splitWhole cs).1 ++ (splitWhole cs).2 = cs := by
  rw [splitWhole, List.span_eq_takeWhile_dropWhile]
  dsimp only
  split
  · next more heq => rw [List.singleton_append, ← List.cons_append, ← heq, List.takeWhile_append_dropWhile]
  · exact List.takeWhile_append_dropWhile

/-- The whole part of a number is digits only. -/
theorem isAsciiDigit_of_mem_splitWhole {c : Char} {cs : List Char} (h : c ∈ (splitWhole cs).1) : Text.isAsciiDigit c = true := by
  rw [splitWhole, List.span_eq_takeWhile_dropWhile] at h
  dsimp only at h
  split at h
  · rw [List.mem_singleton.1 h]
    rfl
  · exact List.mem_takeWhile_imp h

/-- A whole number is written in no more characters than it was read from, leading zeros left out. -/
theorem length_intChars_le (negative : Bool) {ds : List Char} (hne : ds ≠ []) (h : ∀ c ∈ ds, Text.isAsciiDigit c = true) :
    (Text.intChars (if negative then -(Text.natOfDigits ds : Int) else Text.natOfDigits ds)).length ≤
      ds.length + if negative then 1 else 0 := by
  have hle := Text.length_toDigits_natOfDigits_le hne h
  rw [Text.intChars, List.length_append]
  cases negative with
  | false =>
    simp only [Bool.false_eq_true, if_false, Int.natAbs_natCast]
    rw [if_neg (by omega), List.length_nil]
    omega
  | true =>
    simp only [if_true, Int.natAbs_neg, Int.natAbs_natCast]
    split
    · rw [List.length_singleton]
      omega
    · rw [List.length_nil]
      omega

/-- A number takes the digits of its whole part, and more if it has a fraction or an exponent. -/
theorem weight_readNumber? {negative : Bool} {cs : List Char} {v : Json} {rest : List Char}
    (h : readNumber? negative cs = some (v, rest)) : weight v + bulk rest ≤ bulk cs + if negative then 1 else 0 := by
  have hdigits : ∀ c ∈ (splitWhole cs).1, Text.isAsciiDigit c = true := fun c hc => isAsciiDigit_of_mem_splitWhole hc
  have hbulk : bulk cs = (splitWhole cs).1.length + bulk (splitWhole cs).2 := by
    rw [← bulk_eq_length fun c hc => not_isSpace_of_isAsciiDigit (hdigits c hc), ← bulk_append, splitWhole_append]
  have hfraction := bulk_le_of_isSuffix (splitFraction_isSuffix (splitWhole cs).2)
  have hexponent := bulk_le_of_isSuffix (splitExponent_isSuffix (splitFraction (splitWhole cs).2).2)
  rw [readNumber?_eq, readNumberAfter?] at h
  dsimp only at h
  split at h
  · cases h
  · next hne =>
    have hne : (splitWhole cs).1 ≠ [] := by simpa using hne
    have hpos := List.length_pos_iff.2 hne
    have hlength := length_intChars_le negative hne hdigits
    split at h
    · split at h
      · cases h
      · cases h
        rw [weight]
        omega
    · cases h
      rw [weight]
      omega

/-- A text that starts with a word is that word and the rest. -/
theorem append_of_dropWord? {word cs rest : List Char} (h : Text.dropWord? word cs = some rest) : cs = word ++ rest := by
  fun_induction Text.dropWord? word cs with
  | case1 => simpa using h
  | case2 word c cs ih => rw [ih h, List.cons_append]
  | case3 => cases h
  | case4 => cases h

/-- A word weighs no more than what it is read from. -/
theorem weight_readWord? {cs : List Char} {v : Json} {rest : List Char} (h : readWord? cs = some (v, rest)) :
    weight v + bulk rest ≤ bulk cs := by
  obtain ⟨⟨word, value⟩, hmem, hword⟩ := List.exists_of_findSome?_eq_some h
  obtain ⟨rest, hdrop, heq⟩ := Option.map_eq_some_iff.1 hword
  cases heq
  rw [append_of_dropWord? hdrop, bulk_append]
  have hweight : ∀ entry ∈ words, weight entry.2 ≤ bulk entry.1 := by decide
  exact Nat.add_le_add_right (hweight _ hmem) _

/-- A value without parts weighs no more than what it is read from. -/
theorem weight_readScalar? {cs : List Char} {v : Json} {rest : List Char} (h : readScalar? cs = some (v, rest)) :
    weight v + bulk rest ≤ bulk cs := by
  unfold readScalar? at h
  split at h
  · next found heq =>
    cases h
    exact weight_readWord? heq
  · split at h
    · next more _ =>
      have hnumber := weight_readNumber? h
      rw [bulk_cons_of_not_isSpace rfl]
      simpa using hnumber
    · simpa using weight_readNumber? h

/-! ## Values -/

/-- A field that takes the place of another of its name adds no more than its own weight. -/
theorem fieldsWeight_putField_le (name : String) (value : Json) (fields : List (String × Json)) :
    fieldsWeight (putField name value fields) ≤ fieldsWeight fields + fieldsWeight [(name, value)] := by
  induction fields with
  | nil => simp [putField, fieldsWeight]
  | cons field fields ih =>
    obtain ⟨n, v⟩ := field
    rw [putField]
    split
    · next hsame =>
      rw [beq_iff_eq] at hsame
      subst hsame
      simp only [fieldsWeight]
      omega
    · simp only [fieldsWeight] at ih ⊢
      omega

/-- Fields put one after the other weigh no more than all of them together. -/
theorem fieldsWeight_foldl_le (acc fields : List (String × Json)) :
    fieldsWeight (fields.foldl (fun acc field => putField field.1 field.2 acc) acc) ≤ fieldsWeight acc + fieldsWeight fields := by
  induction fields generalizing acc with
  | nil => exact Nat.le_refl _
  | cons field fields ih =>
    have hstep := fieldsWeight_putField_le field.1 field.2 acc
    have hrest := ih (putField field.1 field.2 acc)
    simp only [List.foldl_cons, fieldsWeight] at hstep hrest ⊢
    omega

/-- An object weighs no more than the fields that it was made of. -/
theorem weight_ofFields_le (fields : List (String × Json)) : weight (ofFields fields) ≤ weight (.object fields) := by
  have hfields := fieldsWeight_foldl_le [] fields
  rw [fieldsWeight, Nat.zero_add] at hfields
  rw [ofFields_eq_foldl, weight, weight]
  omega

/-- A character that is found behind blanks adds one. -/
theorem bulk_eq_of_skipSpace_eq {cs more : List Char} {c : Char} (h : skipSpace cs = c :: more) (hc : isSpace c = false) :
    bulk cs = bulk more + 1 := by
  rw [← bulk_skipSpace, h, bulk_cons_of_not_isSpace hc]

/-- What is read with some fuel is no heavier than the text it is read from, nor are the items and fields. -/
structure Weighed (fuel : Nat) : Prop where
  value : ∀ {cs v rest}, readValue? fuel cs = some (v, rest) → weight v + bulk rest ≤ bulk cs
  items : ∀ {cs items rest}, readItems? fuel cs = some (items, rest) → max 1 (itemsWeight items) + bulk rest ≤ bulk cs
  fields : ∀ {cs fields rest}, readFields? fuel cs = some (fields, rest) → max 1 (fieldsWeight fields) + bulk rest ≤ bulk cs

namespace Weighed

variable {fuel : Nat}

/-- With one more fuel a value weighs no more than what it is read from. -/
theorem value_succ (h : Weighed fuel) {cs : List Char} {v : Json} {rest : List Char}
    (hread : readValue? (fuel + 1) cs = some (v, rest)) : weight v + bulk rest ≤ bulk cs := by
  unfold readValue? at hread
  split at hread
  · next more =>
    obtain ⟨⟨s, rest⟩, hstring, heq⟩ := Option.map_eq_some_iff.1 hread
    cases heq
    have := weight_readString? hstring
    rw [weight, bulk_cons_of_not_isSpace rfl]
    omega
  · next more =>
    rw [bulk_cons_of_not_isSpace rfl]
    split at hread
    · next hend =>
      cases hread
      rw [bulk_eq_of_skipSpace_eq hend rfl, weight, itemsWeight]
      omega
    · obtain ⟨⟨items, rest⟩, hitems, heq⟩ := Option.map_eq_some_iff.1 hread
      cases heq
      have hweight := h.items hitems
      rw [bulk_skipSpace] at hweight
      rw [weight]
      omega
  · next more =>
    rw [bulk_cons_of_not_isSpace rfl]
    split at hread
    · next hend =>
      cases hread
      rw [bulk_eq_of_skipSpace_eq hend rfl, weight, fieldsWeight]
      omega
    · obtain ⟨⟨fields, rest⟩, hfields, heq⟩ := Option.map_eq_some_iff.1 hread
      cases heq
      have hweight := h.fields hfields
      have hobject := weight_ofFields_le fields
      rw [bulk_skipSpace] at hweight
      rw [weight] at hobject
      omega
  · exact weight_readScalar? hread

/-- With one more fuel the items of an array weigh no more than what they are read from. -/
theorem items_succ (h : Weighed fuel) {cs : List Char} {items : List Json} {rest : List Char}
    (hread : readItems? (fuel + 1) cs = some (items, rest)) : max 1 (itemsWeight items) + bulk rest ≤ bulk cs := by
  rw [readItems?, Option.bind_eq_bind, Option.bind_eq_some_iff] at hread
  obtain ⟨⟨item, after⟩, hitem, hread⟩ := hread
  have hvalue := h.value hitem
  dsimp only at hread
  split at hread
  · next hend =>
    cases hread
    rw [bulk_eq_of_skipSpace_eq hend rfl] at hvalue
    rw [itemsWeight, itemsWeight]
    omega
  · next more hcomma =>
    obtain ⟨⟨tail, rest⟩, htail, heq⟩ := Option.bind_eq_some_iff.1 hread
    cases heq
    have hitems := h.items htail
    rw [bulk_skipSpace] at hitems
    rw [bulk_eq_of_skipSpace_eq hcomma rfl] at hvalue
    rw [itemsWeight]
    dsimp only
    omega
  · cases hread

/-- With one more fuel the fields of an object weigh no more than what they are read from. -/
theorem fields_succ (h : Weighed fuel) {cs : List Char} {fields : List (String × Json)} {rest : List Char}
    (hread : readFields? (fuel + 1) cs = some (fields, rest)) : max 1 (fieldsWeight fields) + bulk rest ≤ bulk cs := by
  unfold readFields? at hread
  split at hread
  · next more =>
    obtain ⟨⟨name, after⟩, hname, hread⟩ := Option.bind_eq_some_iff.1 hread
    have htext := weight_readString? hname
    dsimp only at hread
    split at hread
    · next value hcolon =>
      obtain ⟨⟨v, after⟩, hread', hread⟩ := Option.bind_eq_some_iff.1 hread
      have hvalue := h.value hread'
      rw [bulk_skipSpace] at hvalue
      rw [bulk_eq_of_skipSpace_eq hcolon rfl] at htext
      rw [bulk_cons_of_not_isSpace rfl]
      dsimp only at hread
      split at hread
      · next hend =>
        cases hread
        rw [bulk_eq_of_skipSpace_eq hend rfl] at hvalue
        rw [fieldsWeight, fieldsWeight]
        omega
      · next hcomma =>
        obtain ⟨⟨tail, rest⟩, htail, heq⟩ := Option.bind_eq_some_iff.1 hread
        cases heq
        have hfields := h.fields htail
        rw [bulk_skipSpace] at hfields
        rw [bulk_eq_of_skipSpace_eq hcomma rfl] at hvalue
        rw [fieldsWeight]
        dsimp only
        omega
      · cases hread
    · cases hread
  · cases hread

/-- With any fuel nothing that is read is heavier than its text. -/
theorem all (fuel : Nat) : Weighed fuel := by
  induction fuel with
  | zero =>
    constructor
    · intro cs v rest h
      rw [readValue?] at h
      cases h
    · intro cs items rest h
      rw [readItems?] at h
      cases h
    · intro cs fields rest h
      rw [readFields?] at h
      cases h
  | succ fuel ih => exact ⟨ih.value_succ, ih.items_succ, ih.fields_succ⟩

end Weighed

/-- A text is at least as long as the value that is read from it weighs, blanks apart. -/
theorem weight_le_of_read? {s : String} {v : Json} (h : read? s = some v) : weight v ≤ bulk s.toList := by
  unfold read? at h
  split at h
  · next value rest hread =>
    split at h
    · cases h
      have := (Weighed.all _).value hread
      rw [bulk_skipSpace] at this
      omega
    · cases h
  · cases h

/-! ## Characters that are not escaped -/

/-- The number of characters that JSON escapes. -/
def marked (cs : List Char) : Nat := cs.countP fun c => !isPlain c

/-- The number of characters in texts that JSON escapes. -/
def textsMarked (ss : List String) : Nat := marked (ss.flatMap String.toList)

theorem textsMarked_append (ss ts : List String) : textsMarked (ss ++ ts) = textsMarked ss + textsMarked ts := by
  rw [textsMarked, List.flatMap_append]
  exact List.countP_append

theorem textsMarked_cons (s : String) (ss : List String) : textsMarked (s :: ss) = marked s.toList + textsMarked ss :=
  List.countP_append

/-- Texts without a character that JSON escapes need no escapes. -/
theorem plain_of_textsMarked_eq_zero {ss : List String} (h : textsMarked ss = 0) : ∀ s ∈ ss, Plain s := by
  intro s hs c hc
  simpa using List.countP_eq_zero.1 h c (List.mem_flatMap.2 ⟨s, hs, hc⟩)

/-- A character that JSON escapes counts twice in the weight. -/
theorem bulk_add_marked_le (cs : List Char) : bulk cs + marked cs ≤ charsWeight cs := by
  induction cs with
  | nil => exact Nat.le_refl _
  | cons c cs ih =>
    have hbulk := bulk_singleton_le c
    rw [bulk_cons c cs, charsWeight_cons, charWeight, marked, List.countP_cons]
    rw [marked] at ih
    cases isPlain c
    · simp only [Bool.false_eq_true, Bool.not_false, if_false, if_true]
      omega
    · simp only [Bool.not_true, Bool.false_eq_true, if_false, if_true]
      omega

section

variable {gap : String → List Char}

/-- Where each item weighs its text and the characters in it that JSON escapes, the items of an array do so together. -/
theorem bulk_bareItems_le {items : List Json} (h : ∀ v ∈ items, bulk (bare gap v) + textsMarked (texts v) ≤ weight v) :
    bulk (bareItems gap items) + textsMarked (itemTexts items) + 1 ≤ max 1 (itemsWeight items) := by
  induction items with
  | nil => exact Nat.le_refl _
  | cons item items ih =>
    have hitem := h item List.mem_cons_self
    have hitems := ih fun v hv => h v (List.mem_cons_of_mem _ hv)
    rw [itemTexts, textsMarked_append, itemsWeight]
    cases items with
    | nil =>
      rw [bareItems, itemTexts, itemsWeight]
      have : textsMarked [] = 0 := rfl
      omega
    | cons next items =>
      rw [bareItems, bulk_append, bulk_cons_of_not_isSpace rfl]
      rw [itemsWeight] at hitems ⊢
      omega

/-- Where each value does so, the fields of an object do so together, their names included. -/
theorem bulk_bareFields_le (hgap : Blanks gap) {fields : List (String × Json)}
    (h : ∀ f ∈ fields, bulk (bare gap f.2) + textsMarked (texts f.2) ≤ weight f.2) :
    bulk (bareFields gap fields) + textsMarked (fieldTexts fields) + 1 ≤ max 1 (fieldsWeight fields) := by
  induction fields with
  | nil => exact Nat.le_refl _
  | cons field fields ih =>
    obtain ⟨name, value⟩ := field
    have hvalue := h (name, value) List.mem_cons_self
    have hname := bulk_add_marked_le name.toList
    have hblank := bulk_eq_zero (hgap name)
    have hfields := ih fun f hf => h f (List.mem_cons_of_mem _ hf)
    have hhead (rest : List Char) : bulk ('"' :: name.toList ++ '"' :: ':' :: gap name ++ bare gap value ++ rest) =
        bulk name.toList + 3 + bulk (bare gap value) + bulk rest := by
      simp only [List.cons_append, bulk_append, bulk_cons_of_not_isSpace (c := '"') rfl, bulk_cons_of_not_isSpace (c := ':') rfl, hblank]
      omega
    rw [fieldTexts, textsMarked_append, textsMarked_cons, fieldsWeight, textWeight]
    dsimp only at hvalue
    cases fields with
    | nil =>
      have hlast := hhead []
      rw [List.append_nil, bulk_nil] at hlast
      have : textsMarked (fieldTexts []) = 0 := rfl
      rw [bareFields, hlast]
      omega
    | cons next fields =>
      rw [bareFields, hhead, bulk_cons_of_not_isSpace rfl]
      rw [fieldsWeight] at hfields ⊢
      omega

/-- A value outweighs its text with its texts as they are by the characters that would have to be escaped. -/
theorem bulk_bare_le {v : Json} (hv : Tidy v) (hgap : Blanks gap) :
    bulk (bare gap v) + textsMarked (texts v) ≤ weight v := by
  induction hv with
  | text s =>
    have := bulk_add_marked_le s.toList
    rw [bare, texts, weight, textWeight, textsMarked_cons, bulk_append, bulk_cons_of_not_isSpace rfl]
    have hend : bulk ['"'] = 1 := rfl
    have hnone : textsMarked [] = 0 := rfl
    omega
  | whole n h =>
    rw [bare, Number.text, Text.toList_toString, weight, texts]
    · exact Nat.add_le_of_le_sub (Nat.zero_le _) List.countP_le_length
    all_goals
      intros
      contradiction
  | array items h ih =>
    have := bulk_bareItems_le ih
    rw [bare, texts, weight, bulk_append, bulk_cons_of_not_isSpace rfl]
    have hend : bulk [']'] = 1 := rfl
    omega
  | object fields hnames h ih =>
    have := bulk_bareFields_le hgap ih
    rw [bare, texts, weight, bulk_append, bulk_cons_of_not_isSpace rfl]
    have hend : bulk ['\x7d'] = 1 := rfl
    omega

/-- A value is read from its text with its texts as they are only if none of them needs escapes. -/
theorem read?_bare_iff {v : Json} (hv : Tidy v) (hgap : Blanks gap) :
    read? (String.ofList (bare gap v)) = some v ↔ ∀ s ∈ texts v, Plain s := by
  refine ⟨fun h => plain_of_textsMarked_eq_zero ?_, read?_bare hv hgap⟩
  have hread := weight_le_of_read? h
  have hbare := bulk_bare_le hv hgap
  rw [String.toList_ofList] at hread
  omega

end

end SignedCall.Json
