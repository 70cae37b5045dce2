import SignedCall.Http.Percent
import SignedCall.Proofs.Text.Utf8

/-!
# Reading percent-encoded texts back

Every byte is read back from its encoded form (`units_encodeByte`), so that every text is (`decodeQuery_encodeChars`), also where a
plus sign would stand for a space, for an encoded text holds no plus sign. It holds unreserved characters and percent signs with their
two digits only (`WellEncoded`), none of which means anything between the parts of a URL, and texts are encoded part by part
(`encode_faithful`). A text that is not encoded is read as it is if it has neither a plus sign nor an escape, and only then
(`decodeQuery_eq_iff`).
-/

namespace SignedCall.Percent

/-! ## Bytes -/

/-- A statement about all bytes, by the numbers below 256. -/
theorem forall_byte {p : UInt8 → Prop} (h : ∀ n < 256, p (UInt8.ofNat n)) (b : UInt8) : p b := by
  have hb := h b.toNat b.toNat_lt
  rwa [UInt8.ofNat_toNat] at hb

/-- A byte that is kept is an ASCII character, and not a percent sign. -/
theorem ofChar_of_isUnreserved (b : UInt8) : isUnreserved (Char.ofNat b.toNat) = true →
    Unit.ofChar (Char.ofNat b.toNat) = .byte b ∧ Char.ofNat b.toNat ≠ '%' :=
  forall_byte (p := fun b => isUnreserved (Char.ofNat b.toNat) = true →
    Unit.ofChar (Char.ofNat b.toNat) = .byte b ∧ Char.ofNat b.toNat ≠ '%') (by decide +kernel) b

/-- The two digits of a byte have its value. -/
theorem escaped?_upperHex (b : UInt8) : escaped? (upperHex (b.toNat / 16)) (upperHex (b.toNat % 16)) = some b :=
  forall_byte (p := fun b => escaped? (upperHex (b.toNat / 16)) (upperHex (b.toNat % 16)) = some b) (by decide +kernel) b

/-- A character other than the percent sign stands for itself. -/
theorem units_cons {c : Char} (h : c ≠ '%') (rest : List Char) : units (c :: rest) = Unit.ofChar c :: units rest := by
  rw [units]
  exact fun _ _ _ hc _ => h hc

/-- An escape stands for its byte. -/
theorem units_escape {a b : Char} {byte : UInt8} (h : escaped? a b = some byte) (rest : List Char) :
    units ('%' :: a :: b :: rest) = .byte byte :: units rest := by
  rw [units, h]

/-- A byte is read back from its encoded form, whatever follows it. -/
theorem units_encodeByte (b : UInt8) (rest : List Char) : units (encodeByte b ++ rest) = .byte b :: units rest := by
  unfold encodeByte
  simp only
  split
  next h =>
    obtain ⟨hbyte, hne⟩ := ofChar_of_isUnreserved b h
    rw [List.cons_append, List.nil_append, units_cons hne, hbyte]
  next h => exact units_escape (escaped?_upperHex b) rest

/-- Encoded bytes are read as these bytes. -/
theorem units_encodeBytes (bytes : Bytes) : units (bytes.flatMap encodeByte) = bytes.map .byte := by
  induction bytes with
  | nil => rfl
  | cons b bytes ih => rw [List.flatMap_cons, units_encodeByte, ih, List.map_cons]

/-- Bytes one after the other are joined to one text. -/
theorem joinUnits_bytes (bytes : Bytes) : joinUnits (bytes.map .byte) = (bytes, []) := by
  induction bytes with
  | nil => rfl
  | cons b bytes ih =>
    unfold joinUnits at ih ⊢
    rw [List.map_cons, List.foldr_cons, ih]

/-! ## The form of an encoded text -/

/-- The upper-case hexadecimal digits. -/
def isUpperHex (c : Char) : Bool := ('0' ≤ c && c ≤ '9') || ('A' ≤ c && c ≤ 'F')

/-- Texts made of unreserved characters and of percent signs with two upper-case hexadecimal digits after them. -/
inductive WellEncoded : List Char → Prop where
  | nil : WellEncoded []
  | unreserved {c : Char} {rest : List Char} : isUnreserved c = true → WellEncoded rest → WellEncoded (c :: rest)
  | escape {a b : Char} {rest : List Char} : isUpperHex a = true → isUpperHex b = true → WellEncoded rest →
      WellEncoded ('%' :: a :: b :: rest)

/-- The digits of an escape are in upper case. -/
theorem isUpperHex_upperHex : ∀ n < 16, isUpperHex (upperHex n) = true := by decide +kernel

/-- The digits of an escape are unreserved. -/
theorem isUnreserved_of_isUpperHex {c : Char} (h : isUpperHex c = true) : isUnreserved c = true := by
  simp only [isUpperHex, isUnreserved, Bool.or_eq_true, Bool.and_eq_true, decide_eq_true_eq] at h ⊢
  rcases h with hdigit | ⟨hfirst, hlast⟩
  · simp [hdigit]
  · simp [hfirst, Char.le_trans hlast (show 'F' ≤ 'Z' by decide)]

/-- The form of a byte goes before any text that is well encoded. -/
theorem WellEncoded.byte {rest : List Char} (h : WellEncoded rest) (b : UInt8) : WellEncoded (encodeByte b ++ rest) := by
  have hb := b.toNat_lt
  unfold encodeByte
  simp only
  split
  next hkept => exact .unreserved hkept h
  next => exact .escape (isUpperHex_upperHex _ (by omega)) (isUpperHex_upperHex _ (by omega)) h

/-- An encoded text is made of unreserved characters and escapes. -/
theorem wellEncoded_encodeChars (s : String) : WellEncoded (encodeChars s) := by
  unfold encodeChars
  induction Text.Utf8.encode s with
  | nil => exact .nil
  | cons b bytes ih => exact List.flatMap_cons ▸ ih.byte b

/-- A text that is well encoded is made of unreserved characters and percent signs. -/
theorem WellEncoded.mem {cs : List Char} (h : WellEncoded cs) : ∀ c ∈ cs, isUnreserved c = true ∨ c = '%' := by
  induction h with
  | nil => exact fun _ => nofun
  | unreserved hc _ ih => exact List.forall_mem_cons.2 ⟨.inl hc, ih⟩
  | escape ha hb _ ih =>
    exact List.forall_mem_cons.2 ⟨.inr rfl, List.forall_mem_cons.2
      ⟨.inl (isUnreserved_of_isUpperHex ha), List.forall_mem_cons.2 ⟨.inl (isUnreserved_of_isUpperHex hb), ih⟩⟩⟩

/-! ## Texts -/

/-- Every character of an encoded text is unreserved or a percent sign. -/
theorem mem_encodeChars {s : String} {c : Char} (h : c ∈ encodeChars s) : isUnreserved c = true ∨ c = '%' :=
  (wellEncoded_encodeChars s).mem c h

/-- What is neither unreserved nor a percent sign does not occur in an encoded text. -/
theorem not_mem_encodeChars {c : Char} (hc : isUnreserved c = false) (hp : c ≠ '%') (s : String) : c ∉ encodeChars s := by
  intro h
  rcases mem_encodeChars h with hu | hu
  · rw [hc] at hu
    cases hu
  · exact hp hu

@[simp] theorem toList_encode (s : String) : (encode s).toList = encodeChars s := by simp [encode]

/-- A text is read back from its encoded form. -/
theorem decode_encodeChars (s : String) : decode (encodeChars s) = s := by
  unfold decode encodeChars
  rw [units_encodeBytes, joinUnits_bytes]
  simp

theorem map_plus_of_not_mem {cs : List Char} (h : '+' ∉ cs) : (cs.map fun c => if c = '+' then ' ' else c) = cs := by
  refine (List.map_congr_left fun c hc => if_neg ?_).trans (List.map_id _)
  rintro rfl
  exact h hc

/-- A text is read back from its encoded form in a query. -/
@[simp] theorem decodeQuery_encodeChars (s : String) : decodeQuery (encodeChars s) = s := by
  rw [decodeQuery, map_plus_of_not_mem (not_mem_encodeChars (by decide) (by decide) s), decode_encodeChars]

/-- Different texts are encoded differently. -/
theorem encode_injective : Function.Injective encode := by
  intro s t h
  have hchars : encodeChars s = encodeChars t := by rw [← toList_encode, h, toList_encode]
  rw [← decode_encodeChars s, hchars, decode_encodeChars]

/-! ## The whole of an encoded text -/

/-- Texts are encoded one after the other. -/
theorem encode_append (s t : String) : encode (s ++ t) = encode s ++ encode t := by
  rw [← String.toList_inj, String.toList_append]
  simp only [toList_encode, encodeChars, Text.Utf8.encode_append, List.flatMap_append]

/-- The separators of a query, the end of a query, and the sign that stands for a space in it. -/
def queryMarks : List Char := ['&', '=', '#', '+']

/-- The characters that some reader of lines takes for the end of a line. -/
def lineBreaks : List Char := ['\n', '\r', '\x0b', '\x0c', '\x1c', '\x1d', '\x1e', '\u0085', '\u2028', '\u2029']

/-- The marks of a query and the ends of lines are neither unreserved nor a percent sign. -/
theorem queryMarks_lineBreaks_escaped : ∀ c ∈ queryMarks ++ lineBreaks, isUnreserved c = false ∧ c ≠ '%' := by
  simp [queryMarks, lineBreaks, isUnreserved]

/-- Every text is well encoded, read back from its encoded form in a query, and encoded part by part. So the encoded forms of two
texts differ, and none of them holds a mark of a query or a line break. -/
theorem encode_faithful :
    (∀ s t, WellEncoded (encode s).toList ∧ decodeQuery (encode s).toList = s ∧ encode (s ++ t) = encode s ++ encode t) ∧
    Function.Injective encode ∧ ∀ s, ∀ c ∈ queryMarks ++ lineBreaks, c ∉ (encode s).toList := by
  refine ⟨?_, encode_injective, ?_⟩
  · intro s t
    rw [toList_encode]
    exact ⟨wellEncoded_encodeChars s, decodeQuery_encodeChars s, encode_append s t⟩
  · intro s c hc
    obtain ⟨hescaped, hpercent⟩ := queryMarks_lineBreaks_escaped c hc
    rw [toList_encode]
    exact not_mem_encodeChars hescaped hpercent s

/-! ## Texts that are read as they are -/

/-- Whether a text has an escape: a percent sign and two hexadecimal digits after it. -/
def Escaped (cs : List Char) : Prop := ∃ before a b after, cs = before ++ '%' :: a :: b :: after ∧ escaped? a b ≠ none

/-- A text without a percent sign has no escape. -/
theorem not_escaped_of_not_mem {cs : List Char} (h : '%' ∉ cs) : ¬Escaped cs := by
  rintro ⟨before, a, b, after, rfl, -⟩
  exact h (List.mem_append_right _ List.mem_cons_self)

theorem Escaped.cons {cs : List Char} (h : Escaped cs) (c : Char) : Escaped (c :: cs) := by
  obtain ⟨before, a, b, after, rfl, hescape⟩ := h
  exact ⟨c :: before, a, b, after, rfl, hescape⟩

/-- A character stands for itself unless it begins an escape. -/
theorem units_cons_cases (c : Char) (cs : List Char) : units (c :: cs) = Unit.ofChar c :: units cs ∨
    ∃ a b after byte, c = '%' ∧ cs = a :: b :: after ∧ escaped? a b = some byte ∧ units (c :: cs) = .byte byte :: units after := by
  by_cases hc : c = '%'
  · subst hc
    match cs with
    | [] => exact .inl rfl
    | [a] => exact .inl rfl
    | a :: b :: after =>
      cases hescape : escaped? a b with
      | some byte => exact .inr ⟨a, b, after, byte, rfl, rfl, hescape, units_escape hescape after⟩
      | none =>
        left
        rw [units, hescape]
        rfl
  · exact .inl (units_cons hc cs)

/-- A text has no more units than characters. -/
theorem length_units_le (cs : List Char) : (units cs).length ≤ cs.length := by
  fun_induction units cs <;> simp only [List.length_cons, List.length_nil] at * <;> omega

/-- An escape makes the units fewer than the characters. -/
theorem length_units_lt {cs : List Char} (h : Escaped cs) : (units cs).length < cs.length := by
  obtain ⟨before, a, b, after, rfl, hescape⟩ := h
  induction before with
  | nil =>
    obtain ⟨byte, hbyte⟩ := Option.ne_none_iff_exists'.1 hescape
    have hle := length_units_le after
    rw [List.nil_append, units_escape hbyte]
    simp only [List.length_cons]
    omega
  | cons c before ih =>
    rw [List.cons_append]
    rcases units_cons_cases c (before ++ '%' :: a :: b :: after) with h | ⟨a', b', after', byte, -, hcs, -, h⟩
    · rw [h]
      exact Nat.succ_lt_succ ih
    · have hle := length_units_le after'
      rw [h, hcs]
      simp only [List.length_cons]
      omega

/-- In a text without an escape every character stands for itself. -/
theorem units_of_not_escaped {cs : List Char} (h : ¬Escaped cs) : units cs = cs.map Unit.ofChar := by
  induction cs with
  | nil => rfl
  | cons c cs ih =>
    rcases units_cons_cases c cs with hunits | ⟨a, b, after, byte, rfl, rfl, hescape, -⟩
    · rw [hunits, ih fun hcs => h (hcs.cons c), List.map_cons]
    · exact absurd ⟨[], a, b, after, rfl, by simp [hescape]⟩ h

/-- The text that units stand for. -/
def unitsText (us : List Unit) : List Char := (Text.Utf8.decodeLossy (joinUnits us).1).toList ++ (joinUnits us).2

theorem toList_decode (cs : List Char) : (decode cs).toList = unitsText (units cs) := String.toList_ofList

/-- Joining bytes makes no more of them. -/
theorem length_joinUnits_le (us : List Unit) : (joinUnits us).1.length + (joinUnits us).2.length ≤ us.length := by
  induction us with
  | nil => exact Nat.le_refl 0
  | cons u us ih =>
    have hle := Text.Utf8.length_decodeLossy_le (joinUnits us).1
    cases u with
    | byte b =>
      show ((joinUnits us).1.length + 1) + (joinUnits us).2.length ≤ us.length + 1
      omega
    | char c =>
      show 0 + (c :: (Text.Utf8.decodeLossy (joinUnits us).1).toList ++ (joinUnits us).2).length ≤ us.length + 1
      simp only [List.length_append, List.length_cons]
      omega

/-- The text that units stand for has no more characters than there are units. -/
theorem length_unitsText_le (us : List Unit) : (unitsText us).length ≤ us.length := by
  have hbytes := Text.Utf8.length_decodeLossy_le (joinUnits us).1
  have hunits := length_joinUnits_le us
  rw [unitsText, List.length_append]
  omega

/-- Characters that stand for themselves are put together as they are. -/
theorem unitsText_ofChar (cs : List Char) : unitsText (cs.map Unit.ofChar) = cs := by
  induction cs with
  | nil => rfl
  | cons c cs ih =>
    rw [List.map_cons]
    unfold unitsText at ih ⊢
    by_cases hc : c.toNat < 0x80
    · have hchar : Unit.ofChar c = .byte (UInt8.ofNat c.toNat) := if_pos hc
      have hnat : (UInt8.ofNat c.toNat).toNat = c.toNat := by
        rw [UInt8.toNat_ofNat']
        omega
      rw [hchar]
      show (Text.Utf8.decodeLossy (UInt8.ofNat c.toNat :: (joinUnits (cs.map Unit.ofChar)).1)).toList ++
        (joinUnits (cs.map Unit.ofChar)).2 = c :: cs
      rw [Text.Utf8.decodeLossy, Text.Utf8.pieces_one (by omega), hnat, Char.ofNat_toNat]
      conv_rhs => rw [← ih]
      simp [Text.Utf8.decodeLossy]
    · have hchar : Unit.ofChar c = .char c := if_neg hc
      rw [hchar]
      conv_rhs => rw [← ih]
      rfl

/-- Decoding the parts of a query never makes a text longer. -/
theorem length_decodeQuery_le (cs : List Char) : (decodeQuery cs).toList.length ≤ cs.length := by
  rw [decodeQuery, toList_decode]
  calc (unitsText (units (cs.map fun c => if c = '+' then ' ' else c))).length
      ≤ (units (cs.map fun c => if c = '+' then ' ' else c)).length := length_unitsText_le _
    _ ≤ (cs.map fun c => if c = '+' then ' ' else c).length := length_units_le _
    _ = cs.length := List.length_map _

/-- A text is read as it is in a query exactly if it has no plus sign and no escape. -/
theorem decodeQuery_eq_iff (s : String) : decodeQuery s.toList = s ↔ '+' ∉ s.toList ∧ ¬Escaped s.toList := by
  rw [← String.toList_inj, decodeQuery, toList_decode]
  constructor
  · intro h
    have hescape : ¬Escaped (s.toList.map fun c => if c = '+' then ' ' else c) := by
      intro hescape
      have hlt := length_units_lt hescape
      have hle := length_unitsText_le (units (s.toList.map fun c => if c = '+' then ' ' else c))
      rw [List.length_map] at hlt
      rw [h] at hle
      omega
    rw [units_of_not_escaped hescape, unitsText_ofChar] at h
    rw [h] at hescape
    refine ⟨fun hplus => ?_, hescape⟩
    have hkept := List.map_inj_left.1 (h.trans (List.map_id _).symm) '+' hplus
    exact absurd hkept (by decide)
  · rintro ⟨hplus, hescape⟩
    rw [map_plus_of_not_mem hplus, units_of_not_escaped hescape, unitsText_ofChar]

end SignedCall.Percent
