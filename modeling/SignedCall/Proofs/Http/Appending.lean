import SignedCall.Proofs.Http.Query
import SignedCall.Proofs.Http.Url

/-!
# Putting text behind a URL

What happens to the parts of a URL when a mark and more text are put behind it, the mark being a question mark if the URL has none and
an ampersand otherwise. It is taken apart or refused as before (`map_query_split_append`), and the text goes into the query, behind what
is there, or into the fragment if there is one (`readPairs_queryText_append`, `queryText_append_of_mem`).
-/

namespace SignedCall.Url

/-! ## The text of the query -/

/-- The characters of a text that are not passed over within a URL. -/
def kept (cs : List Char) : List Char := cs.filter fun c => c != '\t' && c != '\r' && c != '\n'

/-- The query of a URL: what stands between the first question mark and the fragment. -/
def queryText (s : String) : String := String.ofList ((Text.cutAt '?' (Text.cutAt '#' (clean s)).1).2.getD [])

/-- A text is kept whole if it has none of the characters that are passed over. -/
theorem kept_eq_self_iff {cs : List Char} : kept cs = cs ↔ Clean cs := List.filter_eq_self

theorem kept_append (cs cs' : List Char) : kept (cs ++ cs') = kept cs ++ kept cs' := List.filter_append cs cs'

theorem length_kept_le (cs : List Char) : (kept cs).length ≤ cs.length := List.length_filter_le _ _

/-- Visible characters are not passed over. -/
theorem mem_clean {s : String} {c : Char} (hc : 0x20 < c.toNat) : c ∈ clean s ↔ c ∈ s.toList := by
  have hkept : (c != '\t' && c != '\r' && c != '\n') = true := by
    simp only [Bool.and_eq_true, bne_iff_ne, ne_eq]
    refine ⟨⟨?_, ?_⟩, ?_⟩ <;> rintro rfl <;> exact absurd hc (by decide)
  constructor
  · intro h
    exact (List.dropWhile_sublist _).subset (List.mem_filter.1 h).1
  · intro h
    refine List.mem_filter.2 ⟨?_, hkept⟩
    rw [← List.takeWhile_append_dropWhile (p := fun c => decide (c.toNat ≤ 0x20)) (l := s.toList), List.mem_append] at h
    rcases h with h | h
    · have hblank : c.toNat ≤ 0x20 := by simpa using List.mem_takeWhile_imp h
      exact absurd hblank (Nat.not_le.2 hc)
    · exact h

/-- A text that begins with a visible character is put behind the characters that are not passed over. -/
theorem clean_append_of_visible {s t : String} {c : Char} {tail : List Char} (ht : t.toList = s.toList ++ c :: tail) (hc : 0x20 < c.toNat) :
    clean t = clean s ++ kept (c :: tail) := by
  have hdrop : (c :: tail).dropWhile (fun c => decide (c.toNat ≤ 0x20)) = c :: tail := by
    rw [List.dropWhile_cons_of_neg]
    simpa using hc
  unfold clean kept
  rw [ht, List.dropWhile_append, hdrop, ← List.filter_append]
  split_ifs with hempty
  · rw [List.isEmpty_iff.1 hempty, List.nil_append]
  · rfl

/-! ## Scheme and authority -/

variable {cs tail : List Char} {mark : Char}

/-- What stands before a scheme's colon is no scheme if it has a character that schemes do not have. -/
theorem splitScheme_of_mem {c : Char} (h : c ∈ (Text.cutAt ':' cs).1) (hc : isSchemeChar c = false) : splitScheme cs = ([], cs) := by
  unfold splitScheme
  split
  next first scheme rest hcut =>
    rw [hcut] at h
    refine if_neg fun hscheme => ?_
    rw [Bool.and_eq_true, List.all_eq_true] at hscheme
    have hchar : isSchemeChar c = true := by
      rcases List.mem_cons.1 h with rfl | h
      · exact isSchemeChar_of_isLetter hscheme.1
      · exact hscheme.2 c h
    rw [hc] at hchar
    cases hchar
  next => rfl

/-- The mark is no part of a scheme. -/
theorem splitScheme_append_mark (hmark : isSchemeChar mark = false) (hcolon : mark ≠ ':') (cs tail : List Char) :
    splitScheme (cs ++ mark :: tail) = ((splitScheme cs).1, (splitScheme cs).2 ++ mark :: tail) := by
  cases hafter : (Text.cutAt ':' cs).2 with
  | none =>
    have hnone := Text.cutAt_of_not_mem (Text.not_mem_of_cutAt_snd hafter)
    have hcs : splitScheme cs = ([], cs) := by
      unfold splitScheme
      rw [hnone]
      cases cs <;> rfl
    have hmem : mark ∈ (Text.cutAt ':' (cs ++ mark :: tail)).1 := by
      rw [Text.cutAt_append_left (Text.not_mem_of_cutAt_snd hafter), Text.cutAt, if_neg hcolon]
      exact List.mem_append_right _ List.mem_cons_self
    rw [splitScheme_of_mem hmem hmark, hcs]
  | some after =>
    have hcut : Text.cutAt ':' cs = ((Text.cutAt ':' cs).1, some after) := by rw [← hafter]
    unfold splitScheme
    rw [Text.cutAt_append_of_snd hafter, hcut]
    cases (Text.cutAt ':' cs).1 with
    | nil => rfl
    | cons first scheme =>
      dsimp only
      split_ifs <;> rfl

/-- What is split off as the scheme has its characters only. -/
theorem exists_append_splitScheme (cs : List Char) :
    ∃ front, cs = front ++ (splitScheme cs).2 ∧ ∀ c ∈ front, isSchemeChar c = true ∨ c = ':' := by
  unfold splitScheme
  split
  next first scheme rest hcut =>
    split_ifs with h
    · rw [Bool.and_eq_true, List.all_eq_true] at h
      have heq := Text.eq_append_of_cutAt_snd (congrArg Prod.snd hcut)
      rw [hcut] at heq
      refine ⟨first :: scheme ++ [':'], by simpa using heq, fun c hc => ?_⟩
      rcases List.mem_append.1 hc with hc | hc
      · rcases List.mem_cons.1 hc with rfl | hc
        · exact .inl (isSchemeChar_of_isLetter h.1)
        · exact .inl (h.2 c hc)
      · exact .inr (List.mem_singleton.1 hc)
    · exact ⟨[], rfl, by simp⟩
  next => exact ⟨[], rfl, by simp⟩

/-- Text is not taken into a span that ends before it. -/
theorem span_append_mark {p : Char → Bool} (h : p mark = false ∨ ∃ c ∈ cs, p c = false) (tail : List Char) :
    (cs ++ mark :: tail).span p = ((cs.span p).1, (cs.span p).2 ++ mark :: tail) := by
  simp only [List.span_eq_takeWhile_dropWhile]
  induction cs with
  | nil =>
    have hmark : p mark = false := by simpa using h
    simp [hmark]
  | cons c cs ih =>
    by_cases hc : p c = true
    · have hrest : p mark = false ∨ ∃ c ∈ cs, p c = false := by simpa [hc] using h
      simpa [hc] using ih hrest
    · simp [hc]

/-- The mark is no part of an authority if it ends one, or if there is a question mark, which ends it before. -/
theorem splitAuthority_append_mark (hmark : mark = '?' ∨ '?' ∈ cs) (hslash : mark ≠ '/') (tail : List Char) :
    splitAuthority (cs ++ mark :: tail) = ((splitAuthority cs).1, (splitAuthority cs).2 ++ mark :: tail) := by
  match cs with
  | [] => rw [List.nil_append, splitAuthority, splitAuthority] <;> simp [hslash]
  | [c] => rw [List.cons_append, List.nil_append, splitAuthority, splitAuthority] <;> simp [hslash]
  | c :: d :: more =>
    by_cases hslashes : c = '/' ∧ d = '/'
    · obtain ⟨rfl, rfl⟩ := hslashes
      have hends : (!endsAuthority mark) = false ∨ ∃ c ∈ more, (!endsAuthority c) = false := by
        rcases hmark with rfl | hmem
        · exact .inl rfl
        · exact .inr ⟨'?', by simpa using hmem, rfl⟩
      exact span_append_mark hends tail
    · have hother : ∀ more, splitAuthority (c :: d :: more) = ([], c :: d :: more) := by
        intro more
        rw [splitAuthority]
        rintro rest heq
        cases heq
        exact hslashes ⟨rfl, rfl⟩
      rw [List.cons_append, List.cons_append, hother, hother]
      rfl

/-- What is split off as the authority has nothing that begins a query or a fragment. -/
theorem exists_append_splitAuthority (cs : List Char) :
    ∃ front, cs = front ++ (splitAuthority cs).2 ∧ '?' ∉ front ∧ '#' ∉ front := by
  unfold splitAuthority
  split
  next rest =>
    rw [List.span_eq_takeWhile_dropWhile]
    have hnot {c : Char} (hends : endsAuthority c = true) (hc : c ≠ '/') :
        c ∉ '/' :: '/' :: rest.takeWhile (fun c => !endsAuthority c) := by
      intro hmem
      have hmem : c ∈ rest.takeWhile (fun c => !endsAuthority c) := by simpa [hc] using hmem
      have hkept := List.mem_takeWhile_imp hmem
      rw [hends] at hkept
      cases hkept
    refine ⟨'/' :: '/' :: rest.takeWhile (fun c => !endsAuthority c), ?_, hnot rfl (by decide), hnot rfl (by decide)⟩
    simp only [List.cons_append, List.takeWhile_append_dropWhile]
  next => exact ⟨[], rfl, by simp, by simp⟩

/-! ## The whole URL -/

/-- What a URL is split into beside its query, and whether it is refused, depend on what stands before the path only. -/
theorem map_query_split (s : String) : (split s).map query =
    (checkAuthority (splitAuthority (splitScheme (clean s)).2).1).map fun _ => queryText s := by
  obtain ⟨scheme, hscheme, hchars⟩ := exists_append_splitScheme (clean s)
  obtain ⟨authority, hauthority, hquestion, hhash⟩ := exists_append_splitAuthority (splitScheme (clean s)).2
  have hnot {c : Char} (hc : isSchemeChar c = false) (hcolon : c ≠ ':') : c ∉ scheme := by
    intro hmem
    rcases hchars c hmem with h | h
    · rw [hc] at h
      cases h
    · exact hcolon h
  have hquery : (ofPieces (splitScheme (clean s)).1 (splitAuthority (splitScheme (clean s)).2).1
      (splitAuthority (splitScheme (clean s)).2).2).query = queryText s := by
    unfold ofPieces queryText
    conv_rhs => rw [hscheme, hauthority]
    rw [Text.cutAt_append_left (hnot (by decide) (by decide)), Text.cutAt_append_left hhash,
      Text.cutAt_append_left (hnot (by decide) (by decide)), Text.cutAt_append_left hquestion]
  rw [split_eq]
  cases checkAuthority (splitAuthority (splitScheme (clean s)).2).1 with
  | error fault => rfl
  | ok _ => exact congrArg Except.ok hquery

/-- The mark that is put between a URL and more text. -/
def markFor (s : String) : Char := if '?' ∈ s.toList then '&' else '?'

/-- The mark is an ampersand behind a URL with a question mark, and a question mark behind any other. -/
theorem markFor_cases (s : String) : ('?' ∈ s.toList ∧ markFor s = '&') ∨ ('?' ∉ s.toList ∧ markFor s = '?') := by
  by_cases h : '?' ∈ s.toList
  · exact .inl ⟨h, if_pos h⟩
  · exact .inr ⟨h, if_neg h⟩

theorem markFor_of {p : Char → Prop} (hmore : p '&') (hfirst : p '?') (s : String) : p (markFor s) := by
  rcases markFor_cases s with ⟨-, h⟩ | ⟨-, h⟩
  · rwa [h]
  · rwa [h]

section Append

variable {s t : String} {tail : List Char} (ht : t.toList = s.toList ++ markFor s :: tail)
include ht

/-- The characters of a URL with text behind it. -/
theorem clean_append_mark : clean t = clean s ++ markFor s :: kept tail := by
  have hmark : 0x20 < (markFor s).toNat ∧ (markFor s != '\t' && markFor s != '\r' && markFor s != '\n') = true :=
    markFor_of (p := fun c => 0x20 < c.toNat ∧ (c != '\t' && c != '\r' && c != '\n') = true) (by decide) (by decide) s
  rw [clean_append_of_visible ht hmark.1]
  exact congrArg (clean s ++ ·) (List.filter_cons_of_pos hmark.2)

/-- A URL with text behind it is taken apart exactly if the URL is, and refused for the same reason otherwise. -/
theorem map_query_split_append : (split t).map query = (split s).map fun _ => queryText t := by
  have hclean := clean_append_mark ht
  obtain ⟨hchar, hcolon, hslash⟩ : isSchemeChar (markFor s) = false ∧ markFor s ≠ ':' ∧ markFor s ≠ '/' :=
    markFor_of (p := fun c => isSchemeChar c = false ∧ c ≠ ':' ∧ c ≠ '/') (by decide) (by decide) s
  have hscheme : splitScheme (clean t) = ((splitScheme (clean s)).1, (splitScheme (clean s)).2 ++ markFor s :: kept tail) := by
    rw [hclean, splitScheme_append_mark hchar hcolon]
  have hquestion : markFor s = '?' ∨ '?' ∈ (splitScheme (clean s)).2 := by
    rcases markFor_cases s with ⟨hmem, -⟩ | ⟨-, h⟩
    · obtain ⟨front, hfront, hchars⟩ := exists_append_splitScheme (clean s)
      rw [← mem_clean (by decide), hfront, List.mem_append] at hmem
      rcases hmem with hmem | hmem
      · exact absurd (hchars _ hmem) (by decide)
      · exact .inr hmem
    · exact .inl h
  have hauthority : (splitAuthority (splitScheme (clean t)).2).1 = (splitAuthority (splitScheme (clean s)).2).1 := by
    rw [hscheme, splitAuthority_append_mark hquestion hslash]
  rw [map_query_split, hauthority, split_eq s]
  cases checkAuthority (splitAuthority (splitScheme (clean s)).2).1 <;> rfl

/-- Behind a fragment, text is part of the fragment. -/
theorem queryText_append_of_mem (h : '#' ∈ s.toList) : queryText t = queryText s := by
  have hmem : '#' ∈ clean s := (mem_clean (by decide)).2 h
  unfold queryText
  rw [clean_append_mark ht]
  cases hafter : (Text.cutAt '#' (clean s)).2 with
  | none => exact absurd hmem (Text.not_mem_of_cutAt_snd hafter)
  | some after =>
    rw [Text.cutAt_append_of_snd hafter]

/-- Where there is no fragment, the pairs of the text, up to a number sign in it, come after those of the URL. -/
theorem readPairs_queryText_append (h : '#' ∉ s.toList) : Query.readPairs (queryText t) =
    Query.readPairs (queryText s) ++ Query.readPairs (String.ofList (Text.cutAt '#' (kept tail)).1) := by
  have hhash : '#' ∉ clean s := fun hmem => h ((mem_clean (by decide)).1 hmem)
  have hmark : markFor s ≠ '#' := markFor_of (p := (· ≠ '#')) (by decide) (by decide) s
  have hcut : (Text.cutAt '#' (clean t)).1 = clean s ++ markFor s :: (Text.cutAt '#' (kept tail)).1 := by
    rw [clean_append_mark ht, Text.cutAt_append_left hhash, Text.cutAt, if_neg hmark]
  have hs : queryText s = String.ofList ((Text.cutAt '?' (clean s)).2.getD []) := by
    rw [queryText, Text.cutAt_of_not_mem hhash]
  have hquery : queryText t = String.ofList ((Text.cutAt '?' (clean s ++ markFor s :: (Text.cutAt '#' (kept tail)).1)).2.getD []) := by
    rw [queryText, hcut]
  rcases markFor_cases s with ⟨hmem, hmark⟩ | ⟨hmem, hmark⟩
  · -- The text comes behind the query that is there.
    cases hafter : (Text.cutAt '?' (clean s)).2 with
    | none => exact absurd ((mem_clean (by decide)).2 hmem) (Text.not_mem_of_cutAt_snd hafter)
    | some after =>
      rw [hquery, hs, hmark, Text.cutAt_append_of_snd hafter, hafter]
      exact Query.readPairs_append (by simp)
  · -- The text is the query.
    have hnone : '?' ∉ clean s := fun h => hmem ((mem_clean (by decide)).1 h)
    rw [hquery, hs, hmark, Text.cutAt_append hnone, Text.cutAt_of_not_mem hnone]
    rfl

end Append

end SignedCall.Url
