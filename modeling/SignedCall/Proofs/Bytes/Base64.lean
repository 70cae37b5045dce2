import Mathlib.Logic.Function.Basic
import Mathlib.Tactic.Common
import SignedCall.Bytes.Base64
import SignedCall.Proofs.Text.Utf8

/-!
# Reading base 64 back

Six bits are read back from their character (`decodeSextet?_encodeSextet`), so that groups of three bytes are, and with the padding of
the last group all bytes (`decode?_encode`). The characters that stand for others in URLs occur in no base 64 text, so that they can be
put back (`undo_urlSafe`), and what is left means nothing in URLs (`isSafe_of_mem_urlSafe`). Main statement: `urlSafe_faithful`, about
the length and the characters of a text for URLs and about what is read back from it.
-/

namespace SignedCall.Base64

/-! ## Characters -/

/-- Six bits are read back from their character. -/
theorem decodeSextet?_encodeSextet {n : Nat} (h : n < 64) : decodeSextet? (encodeSextet n) = some n := by
  have hall : ∀ n < 64, decodeSextet? (encodeSextet n) = some n := by decide +kernel
  exact hall n h

/-- The characters that are left in texts for URLs: ASCII letters and digits, and three marks. -/
def isSafe (c : Char) : Bool :=
  ('a' ≤ c && c ≤ 'z') || ('A' ≤ c && c ≤ 'Z') || ('0' ≤ c && c ≤ '9') || c == '-' || c == '_' || c == '~'

/-- The character that a character of a text for URLs stands for. -/
def undoSafe (c : Char) : Char :=
  if c = '-' then '+' else if c = '_' then '=' else if c = '~' then '/' else c

/-- The base 64 characters that a text for URLs stands for. -/
def undo (s : String) : List Char := s.toList.map undoSafe

/-- What a character of a base 64 text is like: it can be put in a URL, and found again. -/
structure Usable (c : Char) : Prop where
  safe : isSafe (makeSafe c) = true
  undone : undoSafe (makeSafe c) = c

/-- The padding can be put in a URL, and found again. -/
theorem usable_padding : Usable '=' := ⟨by decide, by decide⟩

/-- The character of six bits is usable, and is not taken for padding. -/
theorem usable_encodeSextet {n : Nat} (h : n < 64) : Usable (encodeSextet n) ∧ encodeSextet n ≠ '=' := by
  have hall : ∀ n < 64, (isSafe (makeSafe (encodeSextet n)) = true ∧ undoSafe (makeSafe (encodeSextet n)) = encodeSextet n) ∧
      encodeSextet n ≠ '=' := by decide +kernel
  obtain ⟨⟨hsafe, hundone⟩, hpadding⟩ := hall n h
  exact ⟨⟨hsafe, hundone⟩, hpadding⟩

/-! ## Bytes -/

section

variable (a b c : UInt8)

/-- The sextets of three bytes are six bits each. -/
theorem sextets_lt : a.toNat / 4 < 64 ∧ a.toNat % 4 * 16 + b.toNat / 16 < 64 ∧ b.toNat % 16 * 4 + c.toNat / 64 < 64 ∧
    c.toNat % 64 < 64 := by
  have ha := a.toNat_lt
  have hb := b.toNat_lt
  have hc := c.toNat_lt
  omega

/-- The first byte of a group is put together from the first sextet and the upper bits of the second, whatever its lower bits are. -/
theorem first_eq {k : Nat} (hk : k < 16) : UInt8.ofNat (a.toNat / 4 * 4 + (a.toNat % 4 * 16 + k) / 16) = a := by
  have hvalue : a.toNat / 4 * 4 + (a.toNat % 4 * 16 + k) / 16 = a.toNat := by omega
  rw [hvalue, UInt8.ofNat_toNat]

/-- The second byte of a group is put together from the lower bits of the second sextet and the upper bits of the third. -/
theorem second_eq {k : Nat} (hk : k < 4) : UInt8.ofNat ((a.toNat % 4 * 16 + b.toNat / 16) * 16 + (b.toNat % 16 * 4 + k) / 4) = b := by
  have hb := b.toNat_lt
  rw [← UInt8.toNat_inj, UInt8.toNat_ofNat']
  omega

/-- The third byte of a group is put together from the lower bits of the third sextet and the fourth. -/
theorem third_eq : UInt8.ofNat ((b.toNat % 16 * 4 + c.toNat / 64) * 64 + c.toNat % 64) = c := by
  have hc := c.toNat_lt
  rw [← UInt8.toNat_inj, UInt8.toNat_ofNat']
  omega

end

/-- All bytes are read back from their base 64 characters. -/
theorem decode?_encode (bytes : Bytes) : decode? (encode bytes) = some bytes := by
  induction bytes using encode.induct with
  | case1 => rfl
  | case2 a =>
    obtain ⟨h1, h2, -, -⟩ := sextets_lt a 0 0
    have hfirst := first_eq a (k := 0) (by decide)
    have h2 : a.toNat % 4 * 16 < 64 := h2
    simp only [encode, decode?, decodeLast?, decodeSextet?_encodeSextet h1, decodeSextet?_encodeSextet h2, Option.bind_some,
      Option.bind_eq_bind, List.isEmpty_nil, beq_self_eq_true, bne_self_eq_false, Bool.and_self, if_true, Bool.false_eq_true, if_false]
    exact congrArg (fun byte => some [byte]) hfirst
  | case3 a b =>
    obtain ⟨h1, h2, h3, -⟩ := sextets_lt a b 0
    have h3 : b.toNat % 16 * 4 < 64 := h3
    have hfirst := first_eq a (k := b.toNat / 16) (by have := b.toNat_lt; omega)
    have hsecond := second_eq a b (k := 0) (by decide)
    have hpadding : (encodeSextet (b.toNat % 16 * 4) == '=') = false := beq_false_of_ne (usable_encodeSextet h3).2
    simp only [encode, decode?, decodeLast?, decodeSextet?_encodeSextet h1, decodeSextet?_encodeSextet h2,
      decodeSextet?_encodeSextet h3, Option.bind_some, Option.bind_eq_bind, List.isEmpty_nil, beq_self_eq_true, bne_self_eq_false,
      Bool.and_self, if_true, Bool.false_eq_true, if_false, hpadding]
    rw [hfirst]
    exact congrArg (fun byte => some [a, byte]) hsecond
  | case4 a b c rest ih =>
    obtain ⟨h1, h2, h3, h4⟩ := sextets_lt a b c
    have hfirst := first_eq a (k := b.toNat / 16) (by have := b.toNat_lt; omega)
    have hsecond := second_eq a b (k := c.toNat / 64) (by have := c.toNat_lt; omega)
    have hpadding : (encodeSextet (c.toNat % 64) == '=') = false := beq_false_of_ne (usable_encodeSextet h4).2
    simp only [encode, decode?, hpadding, Bool.and_false, Bool.false_eq_true, if_false, decodeSextet?_encodeSextet h1,
      decodeSextet?_encodeSextet h2, decodeSextet?_encodeSextet h3, decodeSextet?_encodeSextet h4, ih, Option.bind_some,
      Option.bind_eq_bind]
    rw [hfirst, hsecond, third_eq]

/-- Every group of three bytes takes four characters, and so does a shorter one at the end. -/
theorem length_encode (bytes : Bytes) : (encode bytes).length = 4 * ((bytes.length + 2) / 3) := by
  induction bytes using encode.induct with
  | case1 => rfl
  | case2 a => simp [encode]
  | case3 a b => simp [encode]
  | case4 a b c rest ih =>
    simp only [encode, List.length_cons, ih]
    omega

/-- Every character of a base 64 text is usable. -/
theorem usable_of_mem_encode (bytes : Bytes) : ∀ d ∈ encode bytes, Usable d := by
  induction bytes using encode.induct with
  | case1 =>
    intro d hd
    cases hd
  | case2 a =>
    obtain ⟨h1, h2, -, -⟩ := sextets_lt a 0 0
    intro d hd
    simp only [encode, List.mem_cons, List.not_mem_nil, or_false] at hd
    rcases hd with rfl | rfl | rfl | rfl
    · exact (usable_encodeSextet h1).1
    · exact (usable_encodeSextet h2).1
    · exact usable_padding
    · exact usable_padding
  | case3 a b =>
    obtain ⟨h1, h2, h3, -⟩ := sextets_lt a b 0
    intro d hd
    simp only [encode, List.mem_cons, List.not_mem_nil, or_false] at hd
    rcases hd with rfl | rfl | rfl | rfl
    · exact (usable_encodeSextet h1).1
    · exact (usable_encodeSextet h2).1
    · exact (usable_encodeSextet h3).1
    · exact usable_padding
  | case4 a b c rest ih =>
    obtain ⟨h1, h2, h3, h4⟩ := sextets_lt a b c
    intro d hd
    simp only [encode, List.mem_cons] at hd
    rcases hd with rfl | rfl | rfl | rfl | hd
    · exact (usable_encodeSextet h1).1
    · exact (usable_encodeSextet h2).1
    · exact (usable_encodeSextet h3).1
    · exact (usable_encodeSextet h4).1
    · exact ih d hd

/-! ## Texts for URLs -/

/-- The characters of a text for URLs are those of the base 64 text, some of them replaced. -/
theorem toList_urlSafe (bytes : Bytes) : (urlSafe bytes).toList = (encode bytes).map makeSafe := String.toList_ofList

/-- A text for URLs stands for the base 64 characters of its bytes. -/
theorem undo_urlSafe (bytes : Bytes) : undo (urlSafe bytes) = encode bytes := by
  rw [undo, toList_urlSafe, List.map_map]
  exact (List.map_congr_left fun d hd => (usable_of_mem_encode bytes d hd).undone).trans (List.map_id _)

/-- All bytes are read back from their text for URLs. -/
theorem decode?_undo_urlSafe (bytes : Bytes) : decode? (undo (urlSafe bytes)) = some bytes := by
  rw [undo_urlSafe, decode?_encode]

/-- Every character of a text for URLs is one that means nothing there. -/
theorem isSafe_of_mem_urlSafe {bytes : Bytes} {d : Char} (h : d ∈ (urlSafe bytes).toList) : isSafe d = true := by
  rw [toList_urlSafe] at h
  obtain ⟨e, he, rfl⟩ := List.mem_map.1 h
  exact (usable_of_mem_encode bytes e he).safe

/-- Every group of up to three bytes takes four characters of a text for URLs. -/
theorem length_urlSafe (bytes : Bytes) : (urlSafe bytes).length = 4 * ((bytes.length + 2) / 3) := by
  rw [← String.length_toList, toList_urlSafe, List.length_map, length_encode]

/-- Different bytes have different texts for URLs. -/
theorem urlSafe_injective : Function.Injective urlSafe := by
  intro bytes bytes' h
  have hread : some bytes = some bytes' := by rw [← decode?_undo_urlSafe bytes, h, decode?_undo_urlSafe]
  exact Option.some.inj hread

/-- The text for URLs of any bytes has four characters for every three bytes or part of three. All of them are letters, digits and the
three marks, and if these are put back the text is read as the bytes. So the texts for URLs of any two sequences of bytes differ, and
those of the UTF-8 bytes of any two texts. -/
theorem urlSafe_faithful :
    (∀ bytes, (urlSafe bytes).length = 4 * ((bytes.length + 2) / 3) ∧ (∀ c ∈ (urlSafe bytes).toList, isSafe c = true) ∧
      decode? (undo (urlSafe bytes)) = some bytes) ∧
    Function.Injective urlSafe ∧ Function.Injective fun s => urlSafe (Text.Utf8.encode s) := by
  refine ⟨?_, urlSafe_injective, urlSafe_injective.comp Text.Utf8.encode_injective⟩
  intro bytes
  exact ⟨length_urlSafe bytes, fun c => isSafe_of_mem_urlSafe, decode?_undo_urlSafe bytes⟩

end SignedCall.Base64
