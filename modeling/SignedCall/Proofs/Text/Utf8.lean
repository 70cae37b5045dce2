import Mathlib.Tactic.Common
import SignedCall.Text.Utf8

/-!
# Reading UTF-8 back

The bytes of a character are read as one piece, whatever follows them (`pieces_encodeChar`), so that the bytes of a text are read
back as the text (`decodeLossy_encode`), and texts with the same bytes are the same.
-/

namespace SignedCall.Text.Utf8

/-! ## Pieces by the length of their character -/

/-- A byte of ASCII is a character of its own. -/
theorem pieces_one {a : UInt8} (ha : a.toNat < 0x80) (rest : Bytes) :
    pieces (a :: rest) = .char (Char.ofNat a.toNat) :: pieces rest := by
  conv_lhs => unfold pieces
  rw [if_pos (UInt8.lt_iff_toNat_lt.2 ha)]

/-- What a start byte of a longer character is not: a character of its own, or no start at all. -/
theorem not_short_of_start {a : UInt8} (ha : 0xc2 ≤ a.toNat) (ha' : a.toNat ≤ 0xf4) :
    ¬a < 0x80 ∧ ¬((a < 0xc2 || 0xf4 < a) = true) := by
  simp only [UInt8.lt_iff_toNat_lt, Bool.or_eq_true, decide_eq_true_eq, UInt8.reduceToNat]
  omega

/-- A lead byte for two and a second byte are one character. -/
theorem pieces_two {a b : UInt8} (ha : 0xc2 ≤ a.toNat) (ha' : a.toNat < 0xe0) (hb : isSecond a b = true) (rest : Bytes) :
    pieces (a :: b :: rest) = .char (assemble (a.toNat % 32) [b]) :: pieces rest := by
  obtain ⟨hone, hstart⟩ := not_short_of_start ha (by omega)
  conv_lhs => unfold pieces
  rw [if_neg hone, if_neg hstart]
  simp only [hb, Bool.not_true, Bool.false_eq_true, if_false]
  rw [if_pos (UInt8.lt_iff_toNat_lt.2 ha')]

/-- A lead byte for three, a second byte and a tail byte are one character. -/
theorem pieces_three {a b c : UInt8} (ha : 0xe0 ≤ a.toNat) (ha' : a.toNat < 0xf0) (hb : isSecond a b = true)
    (hc : isTail c = true) (rest : Bytes) :
    pieces (a :: b :: c :: rest) = .char (assemble (a.toNat % 16) [b, c]) :: pieces rest := by
  obtain ⟨hone, hstart⟩ := not_short_of_start (a := a) (by omega) (by omega)
  have htwo : ¬a < 0xe0 := by rw [UInt8.lt_iff_toNat_lt]; exact Nat.not_lt.2 ha
  conv_lhs => unfold pieces
  rw [if_neg hone, if_neg hstart]
  simp only [hb, hc, Bool.not_true, Bool.false_eq_true, if_false]
  rw [if_neg htwo, if_pos (UInt8.lt_iff_toNat_lt.2 ha')]

/-- A lead byte for four, a second byte and two tail bytes are one character. -/
theorem pieces_four {a b c d : UInt8} (ha : 0xf0 ≤ a.toNat) (ha' : a.toNat ≤ 0xf4) (hb : isSecond a b = true)
    (hc : isTail c = true) (hd : isTail d = true) (rest : Bytes) :
    pieces (a :: b :: c :: d :: rest) = .char (assemble (a.toNat % 8) [b, c, d]) :: pieces rest := by
  obtain ⟨hone, hstart⟩ := not_short_of_start (a := a) (by omega) ha'
  have htwo : ¬a < 0xe0 := by rw [UInt8.lt_iff_toNat_lt]; exact Nat.not_lt.2 (by simp; omega)
  have hthree : ¬a < 0xf0 := by rw [UInt8.lt_iff_toNat_lt]; exact Nat.not_lt.2 ha
  conv_lhs => unfold pieces
  rw [if_neg hone, if_neg hstart]
  simp only [hb, hc, hd, Bool.not_true, Bool.false_eq_true, if_false]
  rw [if_neg htwo, if_neg hthree]

/-! ## Characters and texts -/

/-- Six bits under the mark of a tail byte are a tail byte. -/
theorem isTail_ofNat {n : Nat} (h : n < 64) : isTail (UInt8.ofNat (n + 128)) = true := by
  simp only [isTail, Bool.and_eq_true, decide_eq_true_eq, UInt8.le_iff_toNat_le, UInt8.toNat_ofNat', UInt8.reduceToNat]
  omega

/-- A tail byte may come second, but after four of the start bytes only in a part of its range. -/
theorem isSecond_ofNat {m n : Nat} (hn : n < 64) (h : m < 256 ∧ (m = 0xe0 → 32 ≤ n) ∧ (m = 0xed → n < 32) ∧
    (m = 0xf0 → 16 ≤ n) ∧ (m = 0xf4 → n < 16)) : isSecond (UInt8.ofNat m) (UInt8.ofNat (n + 128)) = true := by
  have heq (k : Nat) (hk : k < 256) : UInt8.ofNat m = UInt8.ofNat k ↔ m = k := by
    rw [← UInt8.toNat_inj, UInt8.toNat_ofNat', UInt8.toNat_ofNat']
    omega
  obtain ⟨-, he0, hed, hf0, hf4⟩ := h
  simp only [isSecond, beq_iff_eq]
  split_ifs with h1 h2 h3 h4
  · have hlow := he0 ((heq 0xe0 (by omega)).1 h1)
    simp [UInt8.le_iff_toNat_le]
    omega
  · have hhigh := hed ((heq 0xed (by omega)).1 h2)
    simp [UInt8.le_iff_toNat_le]
    omega
  · have hlow := hf0 ((heq 0xf0 (by omega)).1 h3)
    simp [UInt8.le_iff_toNat_le]
    omega
  · have hhigh := hf4 ((heq 0xf4 (by omega)).1 h4)
    simp [UInt8.le_iff_toNat_le]
    omega
  · exact isTail_ofNat hn

theorem ofNat_eq {n : Nat} {c : Char} (h : n = c.toNat) : Char.ofNat n = c := h ▸ Char.ofNat_toNat c

/-- The bytes of a character are one piece, whatever follows them. -/
theorem pieces_encodeChar (c : Char) (rest : Bytes) :
    pieces (String.utf8EncodeChar c ++ rest) = .char c :: pieces rest := by
  have hvalid : c.toNat < 0xd800 ∨ 0xdfff < c.toNat ∧ c.toNat < 0x110000 := c.valid
  have hv : c.val.toNat = c.toNat := rfl
  unfold String.utf8EncodeChar
  simp only [hv]
  -- One case for each number of bytes.
  split_ifs with h1 h2 h3 <;> simp only [List.cons_append, List.nil_append]
  · rw [pieces_one (by simp; omega), ofNat_eq (c := c) (by simp; omega)]
  · have hsecond := isSecond_ofNat (m := c.toNat / 64 % 32 + 192) (n := c.toNat % 64) (by omega) (by omega)
    rw [pieces_two (by simp; omega) (by simp; omega) hsecond, assemble, ofNat_eq (c := c) (by simp; omega)]
  · have hsecond := isSecond_ofNat (m := c.toNat / 4096 % 16 + 224) (n := c.toNat / 64 % 64) (by omega) (by omega)
    rw [pieces_three (by simp; omega) (by simp; omega) hsecond (isTail_ofNat (by omega)), assemble,
      ofNat_eq (c := c) (by simp; omega)]
  · have hsecond := isSecond_ofNat (m := c.toNat / 262144 % 8 + 240) (n := c.toNat / 4096 % 64) (by omega) (by omega)
    rw [pieces_four (by simp; omega) (by simp; omega) hsecond (isTail_ofNat (by omega)) (isTail_ofNat (by omega)), assemble,
      ofNat_eq (c := c) (by simp; omega)]

/-- Texts one after the other are encoded one after the other. -/
theorem encode_append (s t : String) : encode (s ++ t) = encode s ++ encode t := by
  simp only [encode, String.toList_append, List.flatMap_append]

/-- The bytes of a text fall into its characters. -/
theorem pieces_encode (cs : List Char) : pieces (cs.flatMap String.utf8EncodeChar) = cs.map .char := by
  induction cs with
  | nil => rw [List.flatMap_nil, pieces, List.map_nil]
  | cons c cs ih => rw [List.flatMap_cons, pieces_encodeChar, ih, List.map_cons]

/-- A text is read back from its bytes. -/
@[simp] theorem decodeLossy_encode (s : String) : decodeLossy (encode s) = s := by
  rw [decodeLossy, encode, pieces_encode, List.map_map]
  simp [Function.comp_def]

/-- Different texts have different bytes. -/
theorem encode_injective : Function.Injective encode := Function.LeftInverse.injective decodeLossy_encode

/-- Pieces that are all characters are collected to the text. -/
theorem collect_chars (position : Nat) (cs : List Char) : collect position (cs.map .char) = .ok cs := by
  induction cs generalizing position with
  | nil => rfl
  | cons c cs ih =>
    rw [List.map_cons, collect, ih]
    rfl

/-- Strict reading has nothing to refuse in the bytes of a text. -/
theorem decode_encode (s : String) : decode (encode s) = .ok s := by
  rw [decode, encode, pieces_encode, collect_chars]
  exact congrArg Except.ok String.ofList_toList

/-! ## Texts from their bytes -/

/-- The code point of a character that is made of one. -/
theorem toNat_ofNat {n : Nat} (h : n < 0xd800 ∨ 0xdfff < n ∧ n < 0x110000) : (Char.ofNat n).val.toNat = n := by
  have hvalid : n.isValidChar := h
  rw [Char.ofNat, dif_pos hvalid]
  exact UInt32.toNat_ofNatLT

/-- What a tail byte is limited to. -/
theorem isTail_bounds {b : UInt8} (h : isTail b = true) : 0x80 ≤ b.toNat ∧ b.toNat ≤ 0xbf := by
  simpa [isTail, UInt8.le_iff_toNat_le] using h

/-- What a second byte is limited to, after four of the start bytes more than after the others. -/
theorem isSecond_bounds {a b : UInt8} (h : isSecond a b = true) : (0x80 ≤ b.toNat ∧ b.toNat ≤ 0xbf) ∧
    (a.toNat = 0xe0 → 0xa0 ≤ b.toNat) ∧ (a.toNat = 0xed → b.toNat ≤ 0x9f) ∧ (a.toNat = 0xf0 → 0x90 ≤ b.toNat) ∧
      (a.toNat = 0xf4 → b.toNat ≤ 0x8f) := by
  simp only [isSecond, beq_iff_eq, ← UInt8.toNat_inj, UInt8.reduceToNat] at h
  split_ifs at h <;> first
    | have hb := isTail_bounds h; omega
    | (simp [UInt8.le_iff_toNat_le] at h; omega)

/-- A byte is made of its value. -/
theorem ofNat_eq_of_toNat {n : Nat} {b : UInt8} (h : n = b.toNat) : UInt8.ofNat n = b := h ▸ UInt8.ofNat_toNat

/-- The character that a byte stands for alone is encoded as that byte. -/
theorem encodeChar_one {a : UInt8} (ha : a.toNat < 0x80) : String.utf8EncodeChar (Char.ofNat a.toNat) = [a] := by
  unfold String.utf8EncodeChar
  simp only [toNat_ofNat (Or.inl (by omega : a.toNat < 0xd800))]
  rw [if_pos (by omega), ofNat_eq_of_toNat rfl]

/-- The character that two bytes make up is encoded as these bytes. -/
theorem encodeChar_two {a b : UInt8} (ha : 0xc2 ≤ a.toNat) (ha' : a.toNat < 0xe0) (hb : isSecond a b = true) :
    String.utf8EncodeChar (assemble (a.toNat % 32) [b]) = [a, b] := by
  obtain ⟨⟨hlow, hhigh⟩, -⟩ := isSecond_bounds hb
  unfold assemble String.utf8EncodeChar
  simp only [List.foldl_cons, List.foldl_nil]
  simp only [toNat_ofNat (n := a.toNat % 32 * 64 + b.toNat % 64) (by omega)]
  rw [if_neg (by omega), if_pos (by omega), ofNat_eq_of_toNat (b := a) (by omega), ofNat_eq_of_toNat (b := b) (by omega)]

/-- The character that three bytes make up is encoded as these bytes: it is not one of two, since `0xe0` limits the second byte, and no
surrogate, since `0xed` does. -/
theorem encodeChar_three {a b c : UInt8} (ha : 0xe0 ≤ a.toNat) (ha' : a.toNat < 0xf0) (hb : isSecond a b = true) (hc : isTail c = true) :
    String.utf8EncodeChar (assemble (a.toNat % 16) [b, c]) = [a, b, c] := by
  obtain ⟨⟨hlow, hhigh⟩, he0, hed, -⟩ := isSecond_bounds hb
  obtain ⟨hlow', hhigh'⟩ := isTail_bounds hc
  unfold assemble String.utf8EncodeChar
  simp only [List.foldl_cons, List.foldl_nil]
  simp only [toNat_ofNat (n := (a.toNat % 16 * 64 + b.toNat % 64) * 64 + c.toNat % 64) (by omega)]
  rw [if_neg (by omega), if_neg (by omega), if_pos (by omega), ofNat_eq_of_toNat (b := a) (by omega),
    ofNat_eq_of_toNat (b := b) (by omega), ofNat_eq_of_toNat (b := c) (by omega)]

/-- The character that four bytes make up is encoded as these bytes. -/
theorem encodeChar_four {a b c d : UInt8} (ha : 0xf0 ≤ a.toNat) (ha' : a.toNat ≤ 0xf4) (hb : isSecond a b = true) (hc : isTail c = true)
    (hd : isTail d = true) : String.utf8EncodeChar (assemble (a.toNat % 8) [b, c, d]) = [a, b, c, d] := by
  obtain ⟨⟨hlow, hhigh⟩, -, -, hf0, hf4⟩ := isSecond_bounds hb
  obtain ⟨hlow', hhigh'⟩ := isTail_bounds hc
  obtain ⟨hlow'', hhigh''⟩ := isTail_bounds hd
  unfold assemble String.utf8EncodeChar
  simp only [List.foldl_cons, List.foldl_nil]
  simp only [toNat_ofNat (n := ((a.toNat % 8 * 64 + b.toNat % 64) * 64 + c.toNat % 64) * 64 + d.toNat % 64) (by omega)]
  rw [if_neg (by omega), if_neg (by omega), if_neg (by omega), ofNat_eq_of_toNat (b := a) (by omega),
    ofNat_eq_of_toNat (b := b) (by omega), ofNat_eq_of_toNat (b := c) (by omega), ofNat_eq_of_toNat (b := d) (by omega)]

/-- Bytes that fall into characters are the bytes of these characters. -/
theorem eq_flatMap_of_pieces {bytes : Bytes} {cs : List Char} (h : pieces bytes = cs.map .char) :
    bytes = cs.flatMap String.utf8EncodeChar := by
  have hstart : ∀ {a : UInt8}, ¬(a < 0xc2 || 0xf4 < a) = true → 0xc2 ≤ a.toNat ∧ a.toNat ≤ 0xf4 := by
    intro a ha
    simp only [UInt8.lt_iff_toNat_lt, Bool.or_eq_true, decide_eq_true_eq, UInt8.reduceToNat] at ha
    omega
  -- The cases are those of a step; in one without a character the pieces are not those of a text.
  fun_induction pieces bytes generalizing cs with
  | case1 =>
    obtain rfl := List.map_eq_nil_iff.1 h.symm
    rfl
  | case2 a rest ha ih =>
    obtain ⟨c, cs, rfl, hc, hrest⟩ := List.map_eq_cons_iff.1 h.symm
    obtain rfl := Piece.char.inj hc
    rw [List.flatMap_cons, encodeChar_one (by simpa [UInt8.lt_iff_toNat_lt] using ha), ← ih hrest.symm]
    rfl
  | case6 a _ hstart' b rest hb ha ih =>
    obtain ⟨c, cs, rfl, hc, hrest⟩ := List.map_eq_cons_iff.1 h.symm
    obtain rfl := Piece.char.inj hc
    rw [List.flatMap_cons, encodeChar_two (hstart hstart').1 (by simpa [UInt8.lt_iff_toNat_lt] using ha) (by simpa using hb),
      ← ih hrest.symm]
    rfl
  | case9 a _ hstart' b hb ha c rest hthird ha' ih =>
    obtain ⟨c, cs, rfl, hc, hrest⟩ := List.map_eq_cons_iff.1 h.symm
    obtain rfl := Piece.char.inj hc
    rw [List.flatMap_cons, encodeChar_three (by simpa [UInt8.lt_iff_toNat_lt] using ha) (by simpa [UInt8.lt_iff_toNat_lt] using ha')
      (by simpa using hb) (by simpa using hthird), ← ih hrest.symm]
    rfl
  | case12 a _ hstart' b hb _ c hthird ha d rest hfourth ih =>
    obtain ⟨c, cs, rfl, hc, hrest⟩ := List.map_eq_cons_iff.1 h.symm
    obtain rfl := Piece.char.inj hc
    rw [List.flatMap_cons, encodeChar_four (by simpa [UInt8.lt_iff_toNat_lt] using ha) (hstart hstart').2
      (by simpa using hb) (by simpa using hthird) (by simpa using hfourth), ← ih hrest.symm]
    rfl
  | _ => cases cs <;> cases h

/-- Pieces that strict reading collects are the characters that it collects. -/
theorem eq_map_of_collect {position : Nat} {ps : List Piece} {cs : List Char} (h : collect position ps = .ok cs) :
    ps = cs.map .char := by
  fun_induction collect position ps generalizing cs with
  | case1 =>
    obtain rfl := Except.ok.inj h
    rfl
  | case2 => cases h
  | case3 position c ps ih =>
    cases hrest : collect (position + c.utf8Size) ps with
    | error fault =>
      rw [hrest] at h
      cases h
    | ok rest =>
      rw [hrest] at h
      obtain rfl := Except.ok.inj h
      rw [ih hrest, List.map_cons]

/-- Strict reading gives a text exactly for the bytes of that text. -/
theorem decode_eq_ok_iff {bytes : Bytes} {s : String} : decode bytes = .ok s ↔ bytes = encode s := by
  constructor
  · intro h
    unfold decode at h
    cases hcollect : collect 0 (pieces bytes) with
    | error fault =>
      rw [hcollect] at h
      cases h
    | ok cs =>
      rw [hcollect] at h
      obtain rfl := Except.ok.inj h
      rw [encode, String.toList_ofList]
      exact eq_flatMap_of_pieces (eq_map_of_collect hcollect)
  · rintro rfl
    exact decode_encode s

/-! ## Lengths -/

/-- Every piece takes at least one byte. -/
theorem length_pieces_le (bytes : Bytes) : (pieces bytes).length ≤ bytes.length := by
  fun_induction pieces bytes <;> simp only [List.length_cons, List.length_nil] at * <;> omega

/-- A text has no more characters than the bytes that it is read from. -/
theorem length_decodeLossy_le (bytes : Bytes) : (decodeLossy bytes).toList.length ≤ bytes.length := by
  rw [decodeLossy, String.toList_ofList, List.length_map]
  exact length_pieces_le bytes

end SignedCall.Text.Utf8
