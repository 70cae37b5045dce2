import Mathlib.Data.List.TakeDrop
import SignedCall.Json.Reader
import SignedCall.Proofs.Text.Digit

/-!
# Documents without escapes

The text of a JSON value whose texts are put in as they are (`bare`), with blanks after some of the colons. If none of these texts has
a character that JSON escapes (`isPlain`), the whole is read as the value (`read?_bare`).
-/

namespace SignedCall.Json

/-! ## Strings -/

/-- Whether a character stands for itself in a string. -/
def isPlain (c : Char) : Bool := c != '"' && c != '\\' && 0x20 ≤ c.toNat

/-- A character that stands for itself is read as itself. -/
theorem readUnits?_cons {c : Char} (h : isPlain c = true) (cs : List Char) :
    readUnits? (c :: cs) = (readUnits? cs).map fun (us, rest) => (c.toNat :: us, rest) := by
  simp only [isPlain, Bool.and_eq_true, bne_iff_ne, ne_eq, decide_eq_true_eq] at h
  obtain ⟨⟨hmark, hslash⟩, hlow⟩ := h
  rw [readUnits?.eq_def]
  split
  · next heq => cases heq
  · next heq => exact absurd (List.cons.inj heq).1 hmark
  · next heq => exact absurd (List.cons.inj heq).1 hslash
  · next heq => exact absurd (List.cons.inj heq).1 hslash
  · next heq =>
    obtain ⟨rfl, rfl⟩ := List.cons.inj heq
    have hreject : (c == '\\' || decide (c.toNat < 0x20)) = false := by simp [hslash]; omega
    rw [hreject]
    cases readUnits? cs <;> rfl

/-- Characters that stand for themselves are read up to the quotation mark. -/
theorem readUnits?_plain {cs : List Char} (h : ∀ c ∈ cs, isPlain c = true) (rest : List Char) :
    readUnits? (cs ++ '"' :: rest) = some (cs.map Char.toNat, rest) := by
  induction cs with
  | nil => rfl
  | cons c cs ih =>
    rw [List.cons_append, readUnits?_cons (h c List.mem_cons_self), ih fun d hd => h d (List.mem_cons_of_mem _ hd)]
    rfl

/-- A character is no surrogate. -/
theorem joinSurrogates_map_toNat (cs : List Char) : joinSurrogates (cs.map Char.toNat) = cs := by
  induction cs with
  | nil => rfl
  | cons c cs ih =>
    have hvalid : c.toNat < 0xd800 ∨ 0xdfff < c.toNat := by
      rcases c.valid with h | h
      · exact Or.inl h
      · exact Or.inr h.1
    rw [List.map_cons, joinSurrogates.eq_def]
    dsimp only
    rw [if_neg (by omega), if_neg (by omega), ih, Char.ofNat_toNat]

/-- Whether a text needs no escapes: it has no quotation mark, no backslash and no control character. -/
def Plain (s : String) : Prop := ∀ c ∈ s.toList, isPlain c = true

instance (s : String) : Decidable (Plain s) := decidable_of_iff (s.toList.all isPlain = true) List.all_eq_true

/-- A text that needs no escapes is read as it is. -/
theorem readString?_plain {s : String} (h : Plain s) (rest : List Char) :
    readString? (s.toList ++ '"' :: rest) = some (s, rest) := by
  rw [readString?, readUnits?_plain h, Option.map_some]
  dsimp only
  rw [joinSurrogates_map_toNat, String.ofList_toList]

/-! ## Whole numbers -/

/-- What may follow a value. -/
def Closes (rest : List Char) : Prop := ∀ c ∈ rest.head?, c = ',' ∨ c = ']' ∨ c = '\x7d'

/-- What may follow a value begins no fraction. -/
theorem splitFraction_closes {rest : List Char} (h : Closes rest) : splitFraction rest = ([], rest) := by
  unfold splitFraction
  split
  · rcases h _ rfl with h | h | h <;> cases h
  · rfl

/-- What may follow a value begins no exponent. -/
theorem splitExponent_closes {rest : List Char} (h : Closes rest) : splitExponent rest = (none, rest) := by
  unfold splitExponent
  split
  · rcases h _ rfl with rfl | rfl | rfl <;> rfl
  · rfl

/-- The digits of the whole part of a number, and what follows them. A leading zero is all of the whole part. -/
def splitWhole (cs : List Char) : List Char × List Char :=
  let (ds, rest) := cs.span Text.isAsciiDigit
  match ds with
  | '0' :: more => (['0'], more ++ rest)
  | _ => (ds, rest)

/-- A number whose sign and whole part are already read. -/
def readNumberAfter? (negative : Bool) (whole cs : List Char) : Option (Json × List Char) :=
  if whole.isEmpty then none
  else
    let (fraction, rest) := splitFraction cs
    let (exponent, rest) := splitExponent rest
    if fraction.isEmpty && exponent.isNone then
      if whole.length > Text.maxDigits then none
      else some (.number (.whole (if negative then -(Text.natOfDigits whole : Int) else Text.natOfDigits whole)), rest)
    else
      some (.number (.real (Binary64.ofDecimal negative (Text.natOfDigits (whole ++ fraction)) (exponent.getD 0 - fraction.length))),
        rest)

/-- A number is read sign and whole part first. -/
theorem readNumber?_eq (negative : Bool) (cs : List Char) :
    readNumber? negative cs = readNumberAfter? negative (splitWhole cs).1 (splitWhole cs).2 := by
  rfl

/-- Digits without a leading zero are a whole part. -/
theorem splitWhole_digits {ds : List Char} (hds : ∀ c ∈ ds, Text.isAsciiDigit c = true) (hzero : ∀ more, ds = '0' :: more → more = [])
    {rest : List Char} (h : Closes rest) : splitWhole (ds ++ rest) = (ds, rest) := by
  have hrest : rest.takeWhile Text.isAsciiDigit = [] ∧ rest.dropWhile Text.isAsciiDigit = rest := by
    cases rest with
    | nil => exact ⟨rfl, rfl⟩
    | cons c rest => rcases h c rfl with rfl | rfl | rfl <;> exact ⟨rfl, rfl⟩
  rw [splitWhole, List.span_eq_takeWhile_dropWhile, List.takeWhile_append_of_pos hds, List.dropWhile_append_of_pos hds, hrest.1,
    hrest.2, List.append_nil]
  dsimp only
  split
  · next more => rw [hzero more rfl, List.nil_append]
  · rfl

/-- A number without fraction and exponent is read as its whole part. -/
theorem readNumberAfter?_closes {whole : List Char} (hne : whole ≠ []) (hlength : whole.length ≤ Text.maxDigits) {rest : List Char}
    (h : Closes rest) (negative : Bool) : readNumberAfter? negative whole rest =
      some (.number (.whole (if negative then -(Text.natOfDigits whole : Int) else Text.natOfDigits whole)), rest) := by
  rw [readNumberAfter?, if_neg (by simpa using hne), splitFraction_closes h]
  dsimp only
  rw [splitExponent_closes h]
  exact if_neg (Nat.not_lt.2 hlength)

/-- A digit is none of some characters that are no digits. -/
theorem ne_of_isAsciiDigit {c d : Char} {marks : List Char} (h : Text.isAsciiDigit c = true)
    (hmarks : (marks.any Text.isAsciiDigit) = false) (hd : d ∈ marks) : c ≠ d := by
  rintro rfl
  rw [List.any_eq_false] at hmarks
  exact hmarks c hd h

/-- A digit is no blank. -/
theorem not_isSpace_of_isAsciiDigit {c : Char} (h : Text.isAsciiDigit c = true) : isSpace c = false := by
  have hblank : ∀ d ∈ [' ', '\t', '\n', '\r'], c ≠ d := fun d => ne_of_isAsciiDigit h rfl
  simpa [isSpace, and_assoc] using hblank

/-- A value that begins with a digit is a number. -/
theorem readScalar?_digit {d : Char} (h : Text.isAsciiDigit d = true) (cs : List Char) :
    readScalar? (d :: cs) = readNumber? false (d :: cs) := by
  have hstart : ∀ c ∈ ['n', 't', 'f', 'N', 'I', '-'], c ≠ d := fun c hc => (ne_of_isAsciiDigit h rfl hc).symm
  have hword : readWord? (d :: cs) = none := by simp [readWord?, words, Text.dropWord?, hstart]
  rw [readScalar?.eq_def, hword]
  dsimp only
  split
  · next heq => cases heq; exact absurd rfl (hstart '-' (by decide))
  · rfl

/-- A value that begins with a minus sign and a digit is a negative number. -/
theorem readScalar?_minus {d : Char} (h : Text.isAsciiDigit d = true) (cs : List Char) :
    readScalar? ('-' :: d :: cs) = readNumber? true (d :: cs) := by
  have hd : 'I' ≠ d := (ne_of_isAsciiDigit h rfl (List.mem_singleton_self 'I')).symm
  have hword : readWord? ('-' :: d :: cs) = none := by simp [readWord?, words, Text.dropWord?, hd]
  rw [readScalar?, hword]

/-- A whole number is read from its characters, if there are not too many. -/
theorem readScalar?_intChars {n : Int} (hn : (Nat.toDigits 10 n.natAbs).length ≤ Text.maxDigits) {rest : List Char} (h : Closes rest) :
    readScalar? (Text.intChars n ++ rest) = some (.number (.whole n), rest) := by
  have hread (negative : Bool) : readNumber? negative (Nat.toDigits 10 n.natAbs ++ rest) =
      some (.number (.whole (if negative then -(n.natAbs : Int) else n.natAbs)), rest) := by
    rw [readNumber?_eq, splitWhole_digits (fun c hc => Text.isAsciiDigit_of_mem_toDigits hc) (fun _ => Text.eq_nil_of_toDigits_eq) h,
      readNumberAfter?_closes Nat.toDigits_ne_nil hn h, Text.natOfDigits_toDigits]
  obtain ⟨d, ds, hdigits⟩ := List.exists_cons_of_ne_nil (Nat.toDigits_ne_nil (b := 10) (n := n.natAbs))
  have hd : Text.isAsciiDigit d = true := Text.isAsciiDigit_of_mem_toDigits (hdigits ▸ List.mem_cons_self)
  rw [hdigits, List.cons_append] at hread
  rw [Text.intChars, hdigits]
  by_cases hneg : n < 0
  · rw [if_pos hneg, List.singleton_append, List.cons_append, List.cons_append, readScalar?_minus hd, hread, if_pos rfl,
      Int.ofNat_natAbs_of_nonpos (by omega), Int.neg_neg]
  · rw [if_neg hneg, List.nil_append, List.cons_append, readScalar?_digit hd, hread, if_neg Bool.false_ne_true,
      Int.natAbs_of_nonneg (by omega)]

/-! ## Documents -/

mutual

/-- The text of a value, its texts as they are and `gap name` after the colon that follows a name. -/
def bare (gap : String → List Char) : Json → List Char
  | .null => "null".toList
  | .bool b => (if b then "true" else "false").toList
  | .number n => n.text.toList
  | .text s => '"' :: s.toList ++ ['"']
  | .array items => '[' :: bareItems gap items ++ [']']
  | .object fields => '\x7b' :: bareFields gap fields ++ ['\x7d']

/-- The items of an array, with commas between them. -/
def bareItems (gap : String → List Char) : List Json → List Char
  | [] => []
  | [item] => bare gap item
  | item :: next :: rest => bare gap item ++ ',' :: bareItems gap (next :: rest)

/-- The fields of an object, with commas between them. -/
def bareFields (gap : String → List Char) : List (String × Json) → List Char
  | [] => []
  | [(name, value)] => '"' :: name.toList ++ '"' :: ':' :: gap name ++ bare gap value
  | (name, value) :: next :: rest =>
    '"' :: name.toList ++ '"' :: ':' :: gap name ++ bare gap value ++ ',' :: bareFields gap (next :: rest)

end

mutual

/-- The texts in a value, the names of fields included. -/
def texts : Json → List String
  | .text s => [s]
  | .array items => itemTexts items
  | .object fields => fieldTexts fields
  | _ => []

/-- The texts in the items of an array. -/
def itemTexts : List Json → List String
  | [] => []
  | item :: rest => texts item ++ itemTexts rest

/-- The texts in the fields of an object. -/
def fieldTexts : List (String × Json) → List String
  | [] => []
  | (name, value) :: rest => name :: texts value ++ fieldTexts rest

end

theorem itemTexts_eq (items : List Json) : itemTexts items = items.flatMap texts := by
  induction items with
  | nil => rfl
  | cons item items ih => rw [itemTexts, ih, List.flatMap_cons]

theorem fieldTexts_eq (fields : List (String × Json)) : fieldTexts fields = fields.flatMap fun (name, value) => name :: texts value := by
  induction fields with
  | nil => rfl
  | cons field fields ih => rw [fieldTexts, ih, List.flatMap_cons]

/-- Whether only blanks stand behind the colons. -/
def Blanks (gap : String → List Char) : Prop := ∀ name, ∀ c ∈ gap name, isSpace c = true

/-- The values of texts and whole numbers whose fields have different names. -/
inductive Tidy : Json → Prop
  | text (s : String) : Tidy (.text s)
  | whole (n : Int) (h : (Nat.toDigits 10 n.natAbs).length ≤ Text.maxDigits) : Tidy (.number (.whole n))
  | array (items : List Json) (h : ∀ item ∈ items, Tidy item) : Tidy (.array items)
  | object (fields : List (String × Json)) (hnames : (fields.map Prod.fst).Nodup) (h : ∀ field ∈ fields, Tidy field.2) :
    Tidy (.object fields)

/-- Whether a text starts like a value: with no blank, and not like the end of an array. -/
def Starts (cs : List Char) : Prop := ∃ c ∈ cs.head?, isSpace c = false ∧ c ≠ ']'

/-- Whether a text starts like a value is told by its first character. -/
theorem Starts.append {cs : List Char} (h : Starts cs) (rest : List Char) : Starts (cs ++ rest) := by
  obtain ⟨c, hc, hstart⟩ := h
  exact ⟨c, by rw [List.head?_append, hc]; rfl, hstart⟩

/-- Before a value there are no blanks to skip. -/
theorem Starts.skipSpace_eq {cs : List Char} (h : Starts cs) : skipSpace cs = cs := by
  obtain ⟨c, hc, hspace, -⟩ := h
  cases cs with
  | nil => cases hc
  | cons d cs =>
    cases hc
    rw [skipSpace, List.dropWhile_cons_of_neg (by simp [hspace])]

/-- How the text of a value is read: wherever it stands, it is read as the value with as much fuel as it has characters. -/
structure Reads (cs : List Char) (v : Json) : Prop where
  starts : Starts cs
  reads : ∀ fuel rest, cs.length ≤ fuel → Closes rest → readValue? fuel (cs ++ rest) = some (v, rest)

namespace Reads

variable {cs : List Char} {v : Json}

/-- The text of a value is not empty. -/
theorem length_pos (h : Reads cs v) : 0 < cs.length := by
  obtain ⟨c, hc, -⟩ := h.starts
  exact List.length_pos_of_mem (List.mem_of_mem_head? hc)

/-- A text that needs no escapes is read back from between its quotation marks. -/
theorem text {s : String} (h : Plain s) : Reads ('"' :: s.toList ++ ['"']) (.text s) where
  starts := ⟨'"', rfl, rfl, by decide⟩
  reads fuel rest hfuel _ := by
    obtain ⟨fuel, rfl⟩ : ∃ f, fuel = f + 1 := Nat.exists_eq_succ_of_ne_zero (by rintro rfl; simp at hfuel)
    rw [List.cons_append, List.cons_append, List.append_assoc, List.singleton_append, readValue?]
    rw [readString?_plain h, Option.map_some]

/-- A whole number that is not too long is read back. -/
theorem whole {n : Int} (hn : (Nat.toDigits 10 n.natAbs).length ≤ Text.maxDigits) : Reads (Text.intChars n) (.number (.whole n)) := by
  obtain ⟨c, more, heq, hc⟩ := Text.exists_intChars_eq_cons n
  have hmark : ∀ d ∈ [']', '"', '[', '\x7b'], c ≠ d := by
    rcases hc with rfl | hc
    · simp
    · exact fun d => ne_of_isAsciiDigit hc rfl
  have hspace : isSpace c = false := by
    rcases hc with rfl | hc
    · rfl
    · exact not_isSpace_of_isAsciiDigit hc
  refine ⟨⟨c, by rw [heq]; rfl, hspace, hmark _ (by decide)⟩, fun fuel rest hfuel hrest => ?_⟩
  obtain ⟨fuel, rfl⟩ : ∃ f, fuel = f + 1 := Nat.exists_eq_succ_of_ne_zero (by rintro rfl; simp [heq] at hfuel)
  rw [← readScalar?_intChars hn hrest, heq, List.cons_append, readValue?]
  -- It starts with no mark of a string, an array or an object.
  all_goals
    intro _ h
    exact absurd (List.cons.inj h).1 (hmark _ (by decide))

end Reads

/-! ## Arrays and objects -/

section

variable {gap : String → List Char}

/-- A comma and the closing brackets may follow a value. -/
theorem closes_cons {c : Char} (h : c ∈ [',', ']', '\x7d']) (rest : List Char) : Closes (c :: rest) := by
  intro d hd
  cases hd
  simpa using h

/-- The blanks behind a colon are skipped. -/
theorem skipSpace_gap {cs : List Char} (h : ∀ c ∈ cs, isSpace c = true) (rest : List Char) : skipSpace (cs ++ rest) = skipSpace rest :=
  List.dropWhile_append_of_pos h

theorem starts_bareItems {item : Json} (h : Reads (bare gap item) item) (items : List Json) : Starts (bareItems gap (item :: items)) := by
  cases items with
  | nil => rw [bareItems]; exact h.starts
  | cons next items => rw [bareItems]; exact h.starts.append _

theorem starts_bareFields (field : String × Json) (fields : List (String × Json)) : Starts (bareFields gap (field :: fields)) := by
  cases fields <;> exact ⟨'"', rfl, rfl, by decide⟩

/-- Items that are each read back are read back one after the other. -/
theorem readItems?_bareItems {item : Json} {items : List Json} (h : ∀ v ∈ item :: items, Reads (bare gap v) v) {fuel : Nat}
    (hfuel : (bareItems gap (item :: items)).length < fuel) (rest : List Char) :
    readItems? fuel (bareItems gap (item :: items) ++ ']' :: rest) = some (item :: items, rest) := by
  induction items generalizing item fuel with
  | nil =>
    obtain ⟨fuel, rfl⟩ : ∃ f, fuel = f + 1 := Nat.exists_eq_succ_of_ne_zero (by omega)
    rw [bareItems] at hfuel ⊢
    rw [readItems?, (h item List.mem_cons_self).reads fuel (']' :: rest) (by omega) (closes_cons (by decide) _)]
    rfl
  | cons next items ih =>
    obtain ⟨fuel, rfl⟩ : ∃ f, fuel = f + 1 := Nat.exists_eq_succ_of_ne_zero (by omega)
    rw [bareItems, List.length_append, List.length_cons] at hfuel
    have hitem := h item List.mem_cons_self
    have hpos := hitem.length_pos
    have htail : readItems? fuel (bareItems gap (next :: items) ++ ']' :: rest) = some (next :: items, rest) :=
      ih (fun v hv => h v (List.mem_cons_of_mem _ hv)) (by omega)
    have hnext := ((starts_bareItems (h next (by simp)) items).append (']' :: rest)).skipSpace_eq
    rw [bareItems, List.append_assoc, List.cons_append, readItems?,
      hitem.reads fuel (',' :: _) (by omega) (closes_cons (by decide) _)]
    show ((readItems? fuel (skipSpace (bareItems gap (next :: items) ++ ']' :: rest))).bind _) = _
    rw [hnext, htail]
    rfl

/-- Reading the fields of an object, after the first of them. -/
theorem readFields?_field {name : String} {value : Json} (hgap : ∀ c ∈ gap name, isSpace c = true)
    (hname : Plain name) (hvalue : Reads (bare gap value) value) {fuel : Nat}
    (hfuel : (bare gap value).length ≤ fuel) {rest : List Char} (hrest : Closes rest) :
    readFields? (fuel + 1) ('"' :: name.toList ++ '"' :: ':' :: gap name ++ bare gap value ++ rest) =
      match skipSpace rest with
      | '\x7d' :: rest => some ([(name, value)], rest)
      | ',' :: rest => do
        let (fields, rest) ← readFields? fuel (skipSpace rest)
        some ((name, value) :: fields, rest)
      | _ => none := by
  have hread := readString?_plain hname (':' :: (gap name ++ (bare gap value ++ rest)))
  have hskip : skipSpace (gap name ++ (bare gap value ++ rest)) = bare gap value ++ rest :=
    (skipSpace_gap hgap _).trans (hvalue.starts.append rest).skipSpace_eq
  simp only [List.cons_append, List.append_assoc]
  rw [readFields?, hread]
  show ((readValue? fuel (skipSpace (gap name ++ (bare gap value ++ rest)))).bind _) = _
  rw [hskip, hvalue.reads fuel rest hfuel hrest]
  rfl

/-- Fields whose values are each read back are read back one after the other. -/
theorem readFields?_bareFields (hgap : Blanks gap) {field : String × Json} {fields : List (String × Json)}
    (hnames : ∀ f ∈ field :: fields, Plain f.1) (h : ∀ f ∈ field :: fields, Reads (bare gap f.2) f.2)
    {fuel : Nat} (hfuel : (bareFields gap (field :: fields)).length < fuel) (rest : List Char) :
    readFields? fuel (bareFields gap (field :: fields) ++ '\x7d' :: rest) = some (field :: fields, rest) := by
  induction fields generalizing field fuel with
  | nil =>
    obtain ⟨fuel, rfl⟩ : ∃ f, fuel = f + 1 := Nat.exists_eq_succ_of_ne_zero (by omega)
    obtain ⟨name, value⟩ := field
    have hvalue := h (name, value) List.mem_cons_self
    simp only [bareFields, List.length_append, List.length_cons] at hfuel
    rw [bareFields, readFields?_field (hgap name) (hnames _ List.mem_cons_self) hvalue (by dsimp only; omega) (closes_cons (by decide) rest)]
    rfl
  | cons next fields ih =>
    obtain ⟨fuel, rfl⟩ : ∃ f, fuel = f + 1 := Nat.exists_eq_succ_of_ne_zero (by omega)
    obtain ⟨name, value⟩ := field
    have hvalue := h (name, value) List.mem_cons_self
    simp only [bareFields, List.length_append, List.length_cons] at hfuel
    have htail : readFields? fuel (bareFields gap (next :: fields) ++ '\x7d' :: rest) = some (next :: fields, rest) :=
      ih (fun f hf => hnames f (List.mem_cons_of_mem _ hf)) (fun f hf => h f (List.mem_cons_of_mem _ hf)) (by omega)
    have hnext : skipSpace (bareFields gap (next :: fields) ++ '\x7d' :: rest) = bareFields gap (next :: fields) ++ '\x7d' :: rest :=
      ((starts_bareFields next fields).append _).skipSpace_eq
    have hcomma : ',' :: bareFields gap (next :: fields) ++ '\x7d' :: rest = ',' :: (bareFields gap (next :: fields) ++ '\x7d' :: rest) :=
      rfl
    rw [bareFields, List.append_assoc _ (',' :: _), hcomma,
      readFields?_field (hgap name) (hnames _ List.mem_cons_self) hvalue (by dsimp only; omega) (closes_cons (by decide) _)]
    show (readFields? fuel (skipSpace (bareFields gap (next :: fields) ++ '\x7d' :: rest))).bind _ = _
    rw [hnext, htail]
    rfl

/-- A field with a new name goes to the end. -/
theorem putField_of_notMem {name : String} (value : Json) {fields : List (String × Json)} (h : name ∉ fields.map Prod.fst) :
    putField name value fields = fields ++ [(name, value)] := by
  induction fields with
  | nil => rfl
  | cons field fields ih =>
    rw [List.map_cons, List.mem_cons, not_or] at h
    rw [putField, if_neg (by simpa using Ne.symm h.1), ih h.2, List.cons_append]

theorem ofFields_eq_foldl (fields : List (String × Json)) :
    ofFields fields = .object (fields.foldl (fun acc field => putField field.1 field.2 acc) []) := rfl

/-- Fields with different names are put one behind the other. -/
theorem foldl_putField {acc fields : List (String × Json)} (h : ((acc ++ fields).map Prod.fst).Nodup) :
    fields.foldl (fun acc field => putField field.1 field.2 acc) acc = acc ++ fields := by
  induction fields generalizing acc with
  | nil => rw [List.foldl_nil, List.append_nil]
  | cons field fields ih =>
    have hsplit : acc ++ field :: fields = acc ++ [field] ++ fields := by simp
    have hnew : field.1 ∉ acc.map Prod.fst := by
      rw [List.map_append, List.map_cons, List.nodup_append] at h
      exact fun hmem => h.2.2 _ hmem _ List.mem_cons_self rfl
    rw [List.foldl_cons, putField_of_notMem _ hnew, ih (hsplit ▸ h), hsplit]

/-- An object with different names has its fields as they were read. -/
theorem ofFields_eq {fields : List (String × Json)} (h : (fields.map Prod.fst).Nodup) : ofFields fields = .object fields := by
  rw [ofFields_eq_foldl, @foldl_putField [] fields h, List.nil_append]

/-- What follows an opening bracket is read as the items of an array. -/
theorem readValue?_array {cs : List Char} (h : Starts cs) (fuel : Nat) :
    readValue? (fuel + 1) ('[' :: cs) = (readItems? fuel cs).map fun (items, rest) => (.array items, rest) := by
  rw [readValue?, h.skipSpace_eq]
  obtain ⟨c, hc, -, hend⟩ := h
  split
  · cases hc
    exact absurd rfl hend
  · rfl

/-- An array whose items are read back is read back. -/
theorem Reads.array {items : List Json} (h : ∀ v ∈ items, Reads (bare gap v) v) : Reads (bare gap (.array items)) (.array items) := by
  rw [bare]
  refine ⟨⟨'[', rfl, rfl, by decide⟩, fun fuel rest hfuel _ => ?_⟩
  simp only [List.length_append, List.length_cons, List.length_nil] at hfuel
  obtain ⟨fuel, rfl⟩ : ∃ f, fuel = f + 1 := Nat.exists_eq_succ_of_ne_zero (by omega)
  cases items with
  | nil => rfl
  | cons item items =>
    have hstarts := (starts_bareItems (h item List.mem_cons_self) items).append (']' :: rest)
    rw [List.cons_append, List.cons_append, List.append_assoc, List.singleton_append, readValue?_array hstarts,
      readItems?_bareItems h (by omega)]
    rfl

/-- An object with different names that need no escapes, and with values that are read back, is read back. -/
theorem Reads.object (hgap : Blanks gap) {fields : List (String × Json)}
    (hdistinct : (fields.map Prod.fst).Nodup) (hnames : ∀ f ∈ fields, Plain f.1)
    (h : ∀ f ∈ fields, Reads (bare gap f.2) f.2) : Reads (bare gap (.object fields)) (.object fields) := by
  rw [bare]
  refine ⟨⟨'\x7b', rfl, rfl, by decide⟩, fun fuel rest hfuel _ => ?_⟩
  simp only [List.length_append, List.length_cons, List.length_nil] at hfuel
  obtain ⟨fuel, rfl⟩ : ∃ f, fuel = f + 1 := Nat.exists_eq_succ_of_ne_zero (by omega)
  cases fields with
  | nil => rfl
  | cons field fields =>
    have hread : readFields? fuel (bareFields gap (field :: fields) ++ '\x7d' :: rest) = some (field :: fields, rest) :=
      readFields?_bareFields hgap hnames h (by omega) rest
    have hstep : readValue? (fuel + 1) ('\x7b' :: (bareFields gap (field :: fields) ++ '\x7d' :: rest)) =
        (readFields? fuel (bareFields gap (field :: fields) ++ '\x7d' :: rest)).map fun (fields, rest) => (ofFields fields, rest) := by
      cases fields <;> rfl
    rw [List.cons_append, List.cons_append, List.append_assoc, List.singleton_append, hstep, hread, Option.map_some]
    dsimp only
    rw [ofFields_eq hdistinct]

/-- A value is read from its text if its texts need no escapes. -/
theorem reads_bare {v : Json} (hv : Tidy v) (hgap : Blanks gap)
    (htexts : ∀ s ∈ texts v, Plain s) : Reads (bare gap v) v := by
  induction hv with
  | text s =>
    rw [bare]
    exact Reads.text (htexts s (by simp [texts]))
  | whole n h =>
    rw [bare, Number.text, Text.toList_toString]
    exact Reads.whole h
  | array items h ih =>
    rw [texts, itemTexts_eq] at htexts
    exact Reads.array fun v hv => ih v hv fun s hs => htexts s (List.mem_flatMap.2 ⟨v, hv, hs⟩)
  | object fields hnames h ih =>
    rw [texts, fieldTexts_eq] at htexts
    have hmem : ∀ f ∈ fields, ∀ s ∈ f.1 :: texts f.2, Plain s := fun f hf s hs =>
      htexts s (List.mem_flatMap.2 ⟨f, hf, hs⟩)
    exact Reads.object hgap hnames (fun f hf => hmem f hf f.1 List.mem_cons_self)
      fun f hf => ih f hf fun s hs => hmem f hf s (List.mem_cons_of_mem _ hs)

/-- A value whose texts need no escapes is read back from its text. -/
theorem read?_bare {v : Json} (hv : Tidy v) (hgap : Blanks gap)
    (htexts : ∀ s ∈ texts v, Plain s) : read? (String.ofList (bare gap v)) = some v := by
  have h := reads_bare hv hgap htexts
  have hread := h.reads ((bare gap v).length + 1) [] (by omega) (fun c hc => by cases hc)
  rw [List.append_nil] at hread
  rw [read?, String.toList_ofList, h.starts.skipSpace_eq, hread]
  rfl

end

end SignedCall.Json
