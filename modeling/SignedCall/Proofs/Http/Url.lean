import Mathlib.Data.List.TakeDrop
import Mathlib.Data.List.TakeWhile
import SignedCall.Http.Url
import SignedCall.Proofs.Text.Case
import SignedCall.Proofs.Text.Split

/-!
# Taking a joined URL apart

The parts that a URL was joined from are those that it is split into (`split_join`), as long as none of them holds what begins the
next one. The parts that splitting gives are of this kind (`tidy_of_split`).
-/

namespace SignedCall.Url

/-! ## The characters of a URL -/

/-- Whether a text has none of the characters that are passed over. -/
def Clean (cs : List Char) : Prop := ∀ c ∈ cs, (c != '\t' && c != '\r' && c != '\n') = true

theorem Clean.mono {cs cs' : List Char} (h : Clean cs) (hsub : ∀ c ∈ cs', c ∈ cs) : Clean cs' := fun c hc => h c (hsub c hc)

theorem Clean.append {cs cs' : List Char} (h : Clean cs) (h' : Clean cs') : Clean (cs ++ cs') := by
  intro c hc
  rcases List.mem_append.1 hc with hc | hc
  · exact h c hc
  · exact h' c hc

/-- What is left when the characters that are passed over are taken out is clean. -/
theorem clean_clean (s : String) : Clean (clean s) := fun _ hc => (List.mem_filter.1 hc).2

/-- Nothing of a clean text is passed over if it does not begin with a blank. -/
theorem clean_of_clean {s : String} (h : Clean s.toList) (hfirst : ∀ c ∈ s.toList.head?, 0x20 < c.toNat) : clean s = s.toList := by
  unfold clean
  have hdrop : s.toList.dropWhile (fun c => decide (c.toNat ≤ 0x20)) = s.toList := by
    cases hs : s.toList with
    | nil => rfl
    | cons c cs =>
      rw [List.dropWhile_cons_of_neg]
      simpa using hfirst c (by rw [hs]; rfl)
  rw [hdrop, List.filter_eq_self.2 h]

/-! ## The scheme -/

/-- Whether a character begins a scheme. -/
def isLetter (c : Char) : Bool := ('a' ≤ c && c ≤ 'z') || ('A' ≤ c && c ≤ 'Z')

/-- The characters of schemes are in ASCII. -/
theorem ascii_of_isSchemeChar {c : Char} (h : isSchemeChar c = true) : c.toNat < 0x80 := by
  simp only [isSchemeChar, Text.isAsciiDigit, Bool.or_eq_true, Text.between_iff, beq_iff_eq] at h
  rcases h with ((((h | h) | h) | rfl) | rfl) | rfl
  · exact Nat.lt_of_le_of_lt h.2 (by decide)
  · exact Nat.lt_of_le_of_lt h.2 (by decide)
  · exact Nat.lt_of_le_of_lt h.2 (by decide)
  · decide
  · decide
  · decide

theorem isSchemeChar_of_isLetter {c : Char} (h : isLetter c = true) : isSchemeChar c = true := by
  simp only [isSchemeChar, isLetter, Bool.or_eq_true] at h ⊢
  exact .inl (.inl (.inl (.inl h)))

/-- The lower-case form of a character of a scheme. -/
theorem lowerChar_of_isSchemeChar {c : Char} (h : isSchemeChar c = true) :
    isSchemeChar (Text.lowerChar c) = true ∧ Text.lowerChar (Text.lowerChar c) = Text.lowerChar c ∧
      (isLetter c = true → isLetter (Text.lowerChar c) = true) :=
  Text.forall_ascii (p := fun c => isSchemeChar c = true → isSchemeChar (Text.lowerChar c) = true ∧
    Text.lowerChar (Text.lowerChar c) = Text.lowerChar c ∧ (isLetter c = true → isLetter (Text.lowerChar c) = true))
    (by decide +kernel) (ascii_of_isSchemeChar h) h

/-- Whether a text is a scheme in lower case. -/
structure IsScheme (cs : List Char) : Prop where
  start : ∃ c rest, cs = c :: rest ∧ isLetter c = true
  chars : ∀ c ∈ cs, isSchemeChar c = true ∧ Text.lowerChar c = c

/-- A scheme that is split off is one in lower case, and what is left after it is a part of the text. -/
theorem splitScheme_cases (cs : List Char) : splitScheme cs = ([], cs) ∨
    IsScheme (splitScheme cs).1 ∧ ∀ c ∈ (splitScheme cs).2, c ∈ cs := by
  unfold splitScheme
  split
  next c scheme rest hcut =>
    split_ifs with h
    · rw [Bool.and_eq_true, List.all_eq_true] at h
      have hchars : ∀ d ∈ c :: scheme, isSchemeChar d = true := by
        intro d hd
        rcases List.mem_cons.1 hd with rfl | hd
        · exact isSchemeChar_of_isLetter h.1
        · exact h.2 d hd
      refine .inr ⟨⟨⟨_, _, List.map_cons, ?_⟩, ?_⟩, fun d hd => ?_⟩
      · exact (lowerChar_of_isSchemeChar (isSchemeChar_of_isLetter h.1)).2.2 h.1
      · intro d hd
        obtain ⟨e, he, rfl⟩ := List.mem_map.1 hd
        have hlower := lowerChar_of_isSchemeChar (hchars e he)
        exact ⟨hlower.1, hlower.2.1⟩
      · exact Text.mem_of_mem_cutAt_snd (congrArg Prod.snd hcut) hd
    · exact .inl rfl
  next => exact .inl rfl

/-- A scheme holds no other characters than those of schemes. -/
theorem not_mem_of_isScheme {cs : List Char} (h : IsScheme cs) {c : Char} (hc : isSchemeChar c = false) : c ∉ cs := by
  intro hmem
  have hchar := (h.chars c hmem).1
  rw [hc] at hchar
  cases hchar

/-- A scheme in lower case is split off as it is. -/
theorem splitScheme_append {scheme : List Char} (h : IsScheme scheme) (rest : List Char) :
    splitScheme (scheme ++ ':' :: rest) = (scheme, rest) := by
  have hcut := Text.cutAt_append (not_mem_of_isScheme h (c := ':') (by decide)) rest
  obtain ⟨c, scheme', rfl, hletter⟩ := h.start
  have hall : scheme'.all isSchemeChar = true := List.all_eq_true.2 fun d hd => (h.chars d (List.mem_cons_of_mem _ hd)).1
  have hlower : (c :: scheme').map Text.lowerChar = c :: scheme' :=
    (List.map_congr_left fun d hd => (h.chars d hd).2).trans (List.map_id _)
  unfold isLetter at hletter
  unfold splitScheme
  rw [hcut]
  simp only [hletter, hall, Bool.and_true, if_true, hlower]

/-! ## The authority -/

/-- Whether a text begins with the end of an authority, or is at its end. -/
def EndsAuthority (cs : List Char) : Prop := ∀ c ∈ cs.head?, endsAuthority c = true

/-- A text either has no authority, or one that goes up to what ends it. -/
theorem splitAuthority_cases (cs : List Char) : splitAuthority cs = ([], cs) ∨
    (∀ c ∈ (splitAuthority cs).1, endsAuthority c = false ∧ c ∈ cs) ∧ EndsAuthority (splitAuthority cs).2 ∧
      ∀ c ∈ (splitAuthority cs).2, c ∈ cs := by
  unfold splitAuthority
  split
  next rest =>
    rw [List.span_eq_takeWhile_dropWhile]
    refine .inr ⟨fun c hc => ⟨?_, ?_⟩, ?_, fun c hc => ?_⟩
    · simpa using List.mem_takeWhile_imp hc
    · exact List.mem_cons_of_mem _ (List.mem_cons_of_mem _ ((List.takeWhile_sublist _).subset hc))
    · intro c hc
      have hhead := List.head?_dropWhile_not (fun c => !endsAuthority c) rest
      rw [hc] at hhead
      simpa using hhead
    · exact List.mem_cons_of_mem _ (List.mem_cons_of_mem _ ((List.dropWhile_sublist _).subset hc))
  next => exact .inl rfl

/-- An authority is split off up to its end. -/
theorem splitAuthority_append {authority rest : List Char} (h : ∀ c ∈ authority, endsAuthority c = false) (hrest : EndsAuthority rest) :
    splitAuthority ('/' :: '/' :: (authority ++ rest)) = (authority, rest) := by
  have hall : ∀ c ∈ authority, (!endsAuthority c) = true := fun c hc => by rw [h c hc]; rfl
  have hend : rest.takeWhile (fun c => !endsAuthority c) = [] ∧ rest.dropWhile (fun c => !endsAuthority c) = rest := by
    cases rest with
    | nil => exact ⟨rfl, rfl⟩
    | cons c rest =>
      have hc := hrest c rfl
      simp [hc]
  rw [splitAuthority, List.span_eq_takeWhile_dropWhile, List.takeWhile_append_of_pos hall, List.dropWhile_append_of_pos hall,
    hend.1, hend.2, List.append_nil]

/-! ## Whole URLs -/

/-- The URL with a scheme, an authority, and the path, query and fragment that the rest of its text holds. -/
def ofPieces (scheme authority rest : List Char) : Url where
  scheme := String.ofList scheme
  authority := String.ofList authority
  path := String.ofList (Text.cutAt '?' (Text.cutAt '#' rest).1).1
  query := String.ofList ((Text.cutAt '?' (Text.cutAt '#' rest).1).2.getD [])
  fragment := String.ofList ((Text.cutAt '#' rest).2.getD [])

/-- The checks that an authority has to pass. -/
def checkAuthority (authority : List Char) : Except Fault Unit :=
  (checkBrackets authority).bind fun _ =>
    if authority.any hidesDelimiter then .error (.ambiguousAuthority (String.ofList authority)) else .ok ()

/-- A URL is split scheme first, then authority, then the rest, and refused for its authority alone. -/
theorem split_eq (s : String) : split s =
    (checkAuthority (splitAuthority (splitScheme (clean s)).2).1).map fun _ =>
      ofPieces (splitScheme (clean s)).1 (splitAuthority (splitScheme (clean s)).2).1 (splitAuthority (splitScheme (clean s)).2).2 := by
  unfold split checkAuthority ofPieces
  cases splitScheme (clean s) with
  | mk scheme rest =>
    simp only [bind, pure, throw, throwThe, MonadExceptOf.throw]
    cases splitAuthority rest with
    | mk authority rest =>
      cases hcheck : checkBrackets authority with
      | error fault => simp [Except.bind, Except.map]
      | ok _ =>
        simp only [Except.bind]
        split_ifs <;> rfl

/-- Whether each part of a URL is free of what begins the next part, and its scheme is in lower case. -/
structure Tidy (u : Url) : Prop where
  scheme : u.scheme = "" ∨ IsScheme u.scheme.toList
  authority : ∀ c ∈ u.authority.toList, endsAuthority c = false
  pathStart : u.authority ≠ "" → ∀ c ∈ u.path.toList.head?, c = '/'
  path : '?' ∉ u.path.toList ∧ '#' ∉ u.path.toList
  query : '#' ∉ u.query.toList
  clean : Clean u.authority.toList ∧ Clean u.path.toList ∧ Clean u.query.toList

/-- A URL made of a scheme, an authority up to what ends it and the rest is tidy. -/
theorem tidy_ofPieces {scheme authority rest : List Char} (hs : scheme = [] ∨ IsScheme scheme)
    (ha : ∀ c ∈ authority, endsAuthority c = false) (hr : authority ≠ [] → EndsAuthority rest) (hca : Clean authority)
    (hcr : Clean rest) : (ofPieces scheme authority rest).Tidy := by
  have hfront : ∀ c ∈ (Text.cutAt '#' rest).1, c ∈ rest := fun c => Text.mem_of_mem_cutAt_fst
  have hpath : ∀ c ∈ (Text.cutAt '?' (Text.cutAt '#' rest).1).1, c ∈ (Text.cutAt '#' rest).1 := fun c => Text.mem_of_mem_cutAt_fst
  have hquery : ∀ c ∈ (Text.cutAt '?' (Text.cutAt '#' rest).1).2.getD [], c ∈ (Text.cutAt '#' rest).1 := by
    intro c hc
    cases h : (Text.cutAt '?' (Text.cutAt '#' rest).1).2 with
    | none => simp [h] at hc
    | some query =>
      rw [h, Option.getD_some] at hc
      exact Text.mem_of_mem_cutAt_snd h hc
  have hhash : '#' ∉ (Text.cutAt '#' rest).1 := Text.not_mem_cutAt_fst '#' rest
  refine { scheme := ?_, authority := ?_, pathStart := ?_, path := ?_, query := ?_, clean := ?_ }
  · rcases hs with rfl | hs
    · exact .inl rfl
    · exact .inr (by simpa [ofPieces] using hs)
  · simpa [ofPieces] using ha
  · intro hne c hc
    have hend := hr (by rintro rfl; exact hne rfl)
    simp only [ofPieces, String.toList_ofList] at hc
    obtain ⟨hc, hmark⟩ := Text.head?_of_head?_cutAt hc
    obtain ⟨hc, hhash⟩ := Text.head?_of_head?_cutAt hc
    have hc := hend c hc
    simp only [endsAuthority, Bool.or_eq_true, beq_iff_eq] at hc
    simpa [hmark, hhash] using hc
  · simp only [ofPieces, String.toList_ofList]
    exact ⟨Text.not_mem_cutAt_fst '?' _, fun h => hhash (hpath _ h)⟩
  · simp only [ofPieces, String.toList_ofList]
    exact fun h => hhash (hquery _ h)
  · simp only [ofPieces, String.toList_ofList]
    exact ⟨hca, hcr.mono fun c hc => hfront c (hpath c hc), hcr.mono fun c hc => hfront c (hquery c hc)⟩

/-- The parts of a URL are tidy, and its authority has passed the checks. -/
theorem tidy_of_split {s : String} {u : Url} (h : split s = .ok u) : u.Tidy ∧ checkAuthority u.authority.toList = .ok () := by
  rw [split_eq] at h
  have hclean := clean_clean s
  generalize clean s = cs at h hclean
  have hscheme : ((splitScheme cs).1 = [] ∨ IsScheme (splitScheme cs).1) ∧ Clean (splitScheme cs).2 := by
    rcases splitScheme_cases cs with hnone | ⟨hscheme, hrest⟩
    · rw [hnone]
      exact ⟨.inl rfl, hclean⟩
    · exact ⟨.inr hscheme, hclean.mono hrest⟩
  obtain ⟨hscheme, hclean⟩ := hscheme
  generalize splitScheme cs = scheme at h hscheme hclean
  have hauthority : (∀ c ∈ (splitAuthority scheme.2).1, endsAuthority c = false) ∧
      ((splitAuthority scheme.2).1 ≠ [] → EndsAuthority (splitAuthority scheme.2).2) ∧
      Clean (splitAuthority scheme.2).1 ∧ Clean (splitAuthority scheme.2).2 := by
    rcases splitAuthority_cases scheme.2 with hnone | ⟨hends, hend, hrest⟩
    · rw [hnone]
      exact ⟨by simp, fun h => absurd rfl h, by simp [Clean], hclean⟩
    · exact ⟨fun c hc => (hends c hc).1, fun _ => hend, hclean.mono fun c hc => (hends c hc).2, hclean.mono hrest⟩
  obtain ⟨hends, hend, hca, hcr⟩ := hauthority
  generalize splitAuthority scheme.2 = authority at h hends hend hca hcr
  cases hcheck : checkAuthority authority.1 with
  | error fault =>
    rw [hcheck] at h
    cases h
  | ok x =>
    rw [hcheck] at h
    cases h
    exact ⟨tidy_ofPieces hscheme hends hend hca hcr, by simpa [ofPieces] using hcheck⟩

/-- The query of a URL as it is written. -/
def queryChars (query : String) : List Char := if query = "" then [] else '?' :: query.toList

/-- A URL with a scheme, an authority and a path is joined with their marks between them. -/
theorem toList_join {u : Url} (hs : u.scheme ≠ "") (ha : u.authority ≠ "") (hp : u.path.toList.head? = some '/') (hf : u.fragment = "") :
    (join u).toList =
      u.scheme.toList ++ ':' :: '/' :: '/' :: (u.authority.toList ++ (u.path.toList ++ queryChars u.query)) := by
  unfold join queryChars
  by_cases hq : u.query = "" <;> simp [hs, ha, hp, hf, hq]

/-- A scheme has none of the characters that are passed over. -/
theorem IsScheme.clean {cs : List Char} (h : IsScheme cs) : Clean cs := by
  intro c hc
  have hchar : isSchemeChar c = true → (c != '\t' && c != '\r' && c != '\n') = true :=
    Text.forall_ascii (p := fun c => isSchemeChar c = true → (c != '\t' && c != '\r' && c != '\n') = true) (by decide +kernel)
      (ascii_of_isSchemeChar (h.chars c hc).1)
  exact hchar (h.chars c hc).1

theorem isLetter_gt_blank {c : Char} (h : isLetter c = true) : 0x20 < c.toNat := by
  simp only [isLetter, Bool.or_eq_true, Text.between_iff] at h
  rcases h with h | h
  · exact Nat.lt_of_lt_of_le (by decide) h.1
  · exact Nat.lt_of_lt_of_le (by decide) h.1

/-- Nothing of a tidy URL that was put together is passed over. -/
theorem clean_join {u : Url} (h : u.Tidy) (hs : u.scheme ≠ "") (ha : u.authority ≠ "") (hp : u.path.toList.head? = some '/')
    (hf : u.fragment = "") : clean (join u) = (join u).toList := by
  have hscheme : IsScheme u.scheme.toList := h.scheme.resolve_left hs
  obtain ⟨hca, hcp, hcq⟩ := h.clean
  have hquery : Clean (queryChars u.query) := by
    unfold queryChars
    split_ifs
    · simp [Clean]
    · exact (show Clean ['?'] by simp [Clean]).append hcq
  have hclean : Clean (join u).toList := by
    rw [toList_join hs ha hp hf]
    exact hscheme.clean.append ((show Clean [':', '/', '/'] by simp [Clean]).append (hca.append (hcp.append hquery)))
  refine clean_of_clean hclean ?_
  obtain ⟨c, rest, hstart, hletter⟩ := hscheme.start
  rw [toList_join hs ha hp hf, hstart]
  intro d hd
  cases hd
  exact isLetter_gt_blank hletter

/-- The path and the query of a tidy URL are found again in what follows its authority. -/
theorem ofPieces_path_query {u : Url} (h : u.Tidy) (hf : u.fragment = "") :
    ofPieces u.scheme.toList u.authority.toList (u.path.toList ++ queryChars u.query) = u := by
  have hhash : '#' ∉ u.path.toList ++ queryChars u.query := by
    unfold queryChars
    split_ifs <;> simp [h.path.2, h.query]
  have hcut : Text.cutAt '?' (u.path.toList ++ queryChars u.query) =
      (u.path.toList, if u.query = "" then none else some u.query.toList) := by
    unfold queryChars
    split_ifs
    · rw [List.append_nil, Text.cutAt_of_not_mem h.path.1]
    · exact Text.cutAt_append h.path.1 _
  unfold ofPieces
  rw [Text.cutAt_of_not_mem hhash, hcut]
  cases u
  simp only at hf
  subst hf
  simp only [String.ofList_toList, Option.getD_none, String.ofList_nil]
  split_ifs with hq <;> simp [hq]

/-- A tidy URL that was put together is taken apart into the same parts, if its authority passes the checks. -/
theorem split_join {u : Url} (h : u.Tidy) (hs : u.scheme ≠ "") (ha : u.authority ≠ "") (hp : u.path ≠ "") (hf : u.fragment = "") :
    split (join u) = (checkAuthority u.authority.toList).map fun _ => u := by
  have hscheme : IsScheme u.scheme.toList := h.scheme.resolve_left hs
  have hpath : u.path.toList.head? = some '/' := by
    cases hpath : u.path.toList with
    | nil => exact absurd (String.toList_eq_nil_iff.1 hpath) hp
    | cons c cs => rw [List.head?_cons, h.pathStart ha c (by rw [hpath]; rfl)]
  have hend : EndsAuthority (u.path.toList ++ queryChars u.query) := by
    intro c hc
    rw [List.head?_append, hpath] at hc
    cases hc
    rfl
  rw [split_eq, clean_join h hs ha hpath hf, toList_join hs ha hpath hf, splitScheme_append hscheme]
  simp only
  rw [splitAuthority_append h.authority hend]
  simp only [ofPieces_path_query h hf]

end SignedCall.Url
