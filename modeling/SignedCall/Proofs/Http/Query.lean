import Mathlib.Data.List.Perm.Basic
import Mathlib.Data.List.Sort
import Mathlib.Data.Prod.Lex
import Mathlib.Data.String.Basic
import SignedCall.Http.Query
import SignedCall.Proofs.Http.Percent
import SignedCall.Proofs.Text.Split

/-!
# Queries and their texts

A query is read back from its text but for the names without values (`read_encode`), and its canonical text stands for its pairs in
whatever order they are (`canonical_form`). Both rest on `pieces_joinPairs`: encoded names and values hold none of the separators,
so that a text of joined pairs falls into just these pairs.
-/

namespace SignedCall.Query

/-! ## The pieces of a text -/

/-- The name and the value of a piece, as they are written. -/
def cutPiece (piece : List Char) : String × String :=
  (String.ofList (Text.cutAt '=' piece).1, String.ofList ((Text.cutAt '=' piece).2.getD []))

/-- The pieces of the text of a query, each cut into its name and its value as they are written. -/
def pieces (s : String) : List (String × String) :=
  ((Text.splitOnChar '&' s.toList).filter (!·.isEmpty)).map cutPiece

/-- The pair that an encoded pair stands for. -/
def decodePair (p : String × String) : String × String :=
  (Percent.decodeQuery p.1.toList, Percent.decodeQuery p.2.toList)

/-- The pairs that are read are the pieces of the text, decoded. -/
theorem readPairs_eq (s : String) : readPairs s = (pieces s).map decodePair := by
  simp [readPairs, pieces, readPair, cutPiece, decodePair, Function.comp_def]

/-- Whether the separators of a query do not occur where they would be mistaken. -/
def Separable (p : String × String) : Prop := '&' ∉ p.1.toList ∧ '=' ∉ p.1.toList ∧ '&' ∉ p.2.toList

/-- An encoded pair has none of the separators. -/
theorem separable_encodePair (p : String × String) : Separable (encodePair p) := by
  simp only [Separable, encodePair, Percent.toList_encode]
  exact ⟨Percent.not_mem_encodeChars (by decide) (by decide) _, Percent.not_mem_encodeChars (by decide) (by decide) _,
    Percent.not_mem_encodeChars (by decide) (by decide) _⟩

/-- The characters of one pair. -/
def pairChars (p : String × String) : List Char := p.1.toList ++ '=' :: p.2.toList

/-- Joined pairs are written with ampersands between them. -/
theorem toList_joinPairs (ps : List (String × String)) : (joinPairs ps).toList = ['&'].intercalate (ps.map pairChars) := by
  rw [joinPairs, String.toList_intercalate, List.map_map]
  congr 2
  funext p
  simp [pairChars]

/-- A pair is cut where it was put together. -/
theorem cutPiece_pairChars {p : String × String} (h : Separable p) : cutPiece (pairChars p) = p := by
  simp [cutPiece, pairChars, Text.cutAt_append h.2.1]

/-- A text of joined pairs falls into these pairs. -/
theorem pieces_joinPairs {ps : List (String × String)} (h : ∀ p ∈ ps, Separable p) : pieces (joinPairs ps) = ps := by
  unfold pieces
  rw [toList_joinPairs]
  by_cases hne : ps = []
  · subst hne
    rfl
  · have hsplit : ∀ part ∈ ps.map pairChars, '&' ∉ part := by
      intro part hpart
      obtain ⟨p, hp, rfl⟩ := List.mem_map.1 hpart
      simpa [pairChars] using ⟨(h p hp).1, (h p hp).2.2⟩
    have hfull : ∀ part ∈ ps.map pairChars, (!part.isEmpty) = true := by
      intro part hpart
      obtain ⟨p, -, rfl⟩ := List.mem_map.1 hpart
      simp [pairChars]
    rw [Text.splitOnChar_intercalate (by simpa using hne) hsplit, List.filter_eq_self.2 hfull, List.map_map]
    exact (List.map_congr_left fun p hp => cutPiece_pairChars (h p hp)).trans (List.map_id _)

/-- A pair is read back from its encoded form. -/
@[simp] theorem decodePair_encodePair (p : String × String) : decodePair (encodePair p) = p := by
  simp [decodePair, encodePair]

/-- Different pairs are encoded differently. -/
theorem encodePair_injective : Function.Injective encodePair := Function.LeftInverse.injective decodePair_encodePair

theorem separable_of_mem_map {ps : List (String × String)} : ∀ p ∈ ps.map encodePair, Separable p := by
  intro p hp
  obtain ⟨p, -, rfl⟩ := List.mem_map.1 hp
  exact separable_encodePair p

/-- The pairs of a query are read back from its text. -/
theorem readPairs_encode (q : Query) : readPairs q.encode = q.pairs := by
  rw [readPairs_eq, encode, pieces_joinPairs separable_of_mem_map, List.map_map]
  exact (List.map_congr_left fun p _ => decodePair_encodePair p).trans (List.map_id _)

/-! ## Texts put together -/

/-- The pairs of a text that was put together at a separator are those of its sides. -/
theorem readPairs_append {s t st : String} (h : st.toList = s.toList ++ '&' :: t.toList) :
    readPairs st = readPairs s ++ readPairs t := by
  unfold readPairs
  rw [h, Text.splitOnChar_append_cons, List.filter_append, List.map_append]

/-- The pairs of a text of joined pairs are those of each of them. -/
theorem readPairs_joinPairs_cons (p q : String × String) (ps : List (String × String)) :
    readPairs (joinPairs (p :: q :: ps)) = readPairs (joinPairs [p]) ++ readPairs (joinPairs (q :: ps)) := by
  refine readPairs_append ?_
  simp only [toList_joinPairs, List.map_cons, List.map_nil, List.intercalate_singleton, List.intercalate_cons_cons, List.append_assoc,
    List.singleton_append]

/-- A name and a value, with an equals sign between them, are one pair. -/
theorem readPairs_pair {p : String × String} (h : Separable p) : readPairs (joinPairs [p]) = [decodePair p] := by
  rw [readPairs_eq, pieces_joinPairs (List.forall_mem_singleton.2 h), List.map_singleton]

/-! ## The canonical order -/

/-- Pairs are ordered by their names, and those of one name by their values. -/
theorem pairLE_iff (a b : String × String) : pairLE a b = true ↔ toLex a ≤ toLex b := by
  simp [pairLE, Prod.Lex.toLex_le_toLex]

/-- The sorted pairs are in this order. -/
theorem pairwise_sortedPairs (q : Query) : q.sortedPairs.Pairwise fun a b => toLex a ≤ toLex b := by
  refine (List.pairwise_mergeSort ?_ ?_ _).imp fun {a b} => (pairLE_iff a b).1
  · intro a b c hab hbc
    rw [pairLE_iff] at hab hbc ⊢
    exact hab.trans hbc
  · intro a b
    rw [Bool.or_eq_true, pairLE_iff, pairLE_iff]
    exact le_total _ _

/-- The sorted pairs are the encoded ones in another order. -/
theorem sortedPairs_perm (q : Query) : q.sortedPairs.Perm (q.pairs.map encodePair) := List.mergeSort_perm _ _

/-- The pieces of the canonical text are the sorted pairs. -/
theorem pieces_canonical (q : Query) : pieces q.canonical = q.sortedPairs :=
  pieces_joinPairs fun p hp => separable_of_mem_map p (q.sortedPairs_perm.subset hp)

/-- The pieces of the text of a query are its encoded pairs. -/
theorem pieces_encode (q : Query) : pieces q.encode = q.pairs.map encodePair := pieces_joinPairs separable_of_mem_map

/-- Queries have the same sorted pairs if they have the same pairs in any order, and only then. -/
theorem sortedPairs_eq_iff (q q' : Query) : q.sortedPairs = q'.sortedPairs ↔ q.pairs.Perm q'.pairs := by
  rw [← List.map_perm_map_iff encodePair_injective]
  constructor
  · intro h
    exact q.sortedPairs_perm.symm.trans (h ▸ q'.sortedPairs_perm)
  · intro h
    exact List.Perm.eq_of_pairwise (fun a b _ _ hab hba => toLex.injective (le_antisymm hab hba))
      q.pairwise_sortedPairs q'.pairwise_sortedPairs (q.sortedPairs_perm.trans (h.trans q'.sortedPairs_perm.symm))

/-- Queries have the same canonical text if they have the same pairs in whatever order. -/
theorem canonical_eq_iff (q q' : Query) : q.canonical = q'.canonical ↔ q.pairs.Perm q'.pairs := by
  rw [← sortedPairs_eq_iff]
  constructor
  · intro h
    rw [← pieces_canonical, h, pieces_canonical]
  · intro h
    rw [canonical, h, canonical]

/-- Two queries have the same canonical text exactly if they have the same pairs of a name and a value, each as often; the order of
names and values and the names without values do not matter. The pieces of the text, which put together again are the whole text, stand
in the order of their encoded names and then of their encoded values, and are the pieces of the query as it is sent, which are the
encoded pairs. -/
theorem canonical_form (q q' : Query) :
    (q.canonical = q'.canonical ↔ q.pairs.Perm q'.pairs) ∧
      joinPairs (pieces q.canonical) = q.canonical ∧
      (pieces q.canonical).Pairwise (fun a b => a.1 < b.1 ∨ a.1 = b.1 ∧ a.2 ≤ b.2) ∧
      (pieces q.canonical).Perm (pieces q.encode) ∧ pieces q.encode = q.pairs.map encodePair := by
  refine ⟨canonical_eq_iff q q', ?_, ?_, ?_, pieces_encode q⟩
  · rw [pieces_canonical, canonical]
  · rw [pieces_canonical]
    exact q.pairwise_sortedPairs.imp fun h => Prod.Lex.toLex_le_toLex.1 h
  · rw [pieces_canonical, pieces_encode]
    exact q.sortedPairs_perm

/-! ## Reading a query back -/

/-- The names that have values. -/
def valued (q : Query) : Query :=
  ⟨q.entries.filter (!·.2.isEmpty), q.nodup.sublist (List.filter_sublist.map Prod.fst)⟩

/-- Putting values under the last of some distinct names changes only that entry. -/
theorem putEntry_append {es : List (String × List String)} {name : String} (h : name ∉ es.map Prod.fst) (values values' : List String) :
    FieldMap.putEntry name values' (es ++ [(name, values)]) = es ++ [(name, values')] := by
  induction es with
  | nil => simp [FieldMap.putEntry]
  | cons e es ih =>
    rw [List.map_cons, List.mem_cons, not_or] at h
    rw [List.cons_append, FieldMap.putEntry, if_neg (Ne.symm h.1), ih h.2, List.cons_append]

theorem lookup_of_not_mem {es : List (String × List String)} {name : String} (h : name ∉ es.map Prod.fst) :
    es.lookup name = none := by
  rw [List.lookup_eq_none_iff]
  intro e he
  simpa using fun hname => h (List.mem_map.2 ⟨e, he, hname.symm⟩)

theorem lookup_append {es : List (String × List String)} {name : String} (h : name ∉ es.map Prod.fst) (values : List String) :
    (es ++ [(name, values)]).lookup name = some values := by
  rw [List.lookup_append, lookup_of_not_mem h]
  simp

/-- Adding the values of one new name puts them at the end, under the name. -/
theorem entries_addValues {q : Query} {name : String} (h : name ∉ q.names) (values : List String) :
    ((values.map fun v => (name, v)).foldl (fun q p => q.add p.1 p.2) q).entries =
      q.entries ++ if values.isEmpty then [] else [(name, values)] := by
  -- The values that are already there are those in front.
  have hmore : ∀ (more front : List String) (q' : Query), q'.entries = q.entries ++ [(name, front)] →
      ((more.map fun v => (name, v)).foldl (fun q p => q.add p.1 p.2) q').entries = q.entries ++ [(name, front ++ more)] := by
    intro more
    induction more with
    | nil =>
      intro front q' hq'
      simpa using hq'
    | cons v more ih =>
      intro front q' hq'
      have hadd : (q'.add name v).entries = q.entries ++ [(name, front ++ [v])] := by
        simp only [add, FieldMap.insert, FieldMap.get?, hq']
        rw [lookup_append h, Option.getD_some, putEntry_append h]
      rw [List.map_cons, List.foldl_cons, ih _ _ hadd, List.append_assoc, List.singleton_append]
  cases values with
  | nil => simp
  | cons v values =>
    have hadd : (q.add name v).entries = q.entries ++ [(name, [v])] := by
      simp only [add, FieldMap.insert, FieldMap.get?]
      rw [lookup_of_not_mem h, FieldMap.putEntry_of_not_mem h]
      rfl
    rw [List.map_cons, List.foldl_cons, hmore values [v] _ hadd]
    simp

/-- The pairs of a query, added one after the other, make the query without the names that have no values. -/
theorem ofPairs_pairs (q : Query) : ofPairs q.pairs = q.valued := by
  -- Entries with new names come after those that are there already.
  have hfold : ∀ (es : List (String × List String)) (q' : Query), (q'.names ++ es.map Prod.fst).Nodup →
      ((es.flatMap fun e => e.2.map fun v => (e.1, v)).foldl (fun q p => q.add p.1 p.2) q').entries =
        q'.entries ++ es.filter (!·.2.isEmpty) := by
    intro es
    induction es with
    | nil => simp
    | cons e es ih =>
      intro q' hnodup
      obtain ⟨name, values⟩ := e
      have hnew : name ∉ q'.names := by
        intro hname
        exact (List.disjoint_of_nodup_append hnodup) hname List.mem_cons_self
      have hfirst := entries_addValues hnew values
      rw [List.flatMap_cons, List.foldl_append, ih _ ?_, hfirst]
      · cases values <;> simp
      · refine hnodup.sublist ?_
        simp only [FieldMap.names, hfirst, List.map_append, List.append_assoc, List.map_cons]
        cases values <;> simp
  apply FieldMap.ext
  rw [ofPairs, pairs, hfold q.entries FieldMap.empty (by simpa [FieldMap.names, FieldMap.empty] using q.nodup)]
  simp [FieldMap.empty, valued]

/-- A query is read back from its text without the names that have no values. -/
theorem read_encode (q : Query) : read q.encode = q.valued := by
  rw [read, readPairs_encode, ofPairs_pairs]

/-- The names without values have no part in the pairs. -/
theorem pairs_valued (q : Query) : q.valued.pairs = q.pairs := by
  unfold pairs valued
  simp only
  induction q.entries with
  | nil => rfl
  | cons e es ih =>
    obtain ⟨name, values⟩ := e
    cases values with
    | nil => simpa using ih
    | cons v values => simp [ih]

/-- The values of a name that has some are among those that are written. -/
theorem get?_valued {q : Query} {name : String} {values : List String} (h : q.get? name = some values) (hne : values ≠ []) :
    q.valued.get? name = some values := by
  obtain ⟨before, after, hentries, -⟩ := List.lookup_eq_some_iff.1 h
  refine FieldMap.get?_of_mem (List.mem_filter.2 ⟨?_, by simpa using hne⟩)
  rw [hentries]
  exact List.mem_append_right _ List.mem_cons_self

/-! ## Removing a name -/

/-- Removing a name takes its pairs away. -/
theorem pairs_erase (q : Query) (name : String) : pairs (q.erase name) = q.pairs.filter (·.1 ≠ name) := by
  simp only [pairs, FieldMap.erase, FieldMap.filter]
  induction q.entries with
  | nil => rfl
  | cons e es ih =>
    rw [List.flatMap_cons, List.filter_append, List.filter_map, ← ih]
    by_cases hname : e.1 = name <;> simp [hname, Function.comp_def]

/-- A name without a first value has no pairs. -/
theorem ne_of_mem_pairs {q : Query} {name : String} (h : q.first? name = none) : ∀ p ∈ q.pairs, p.1 ≠ name := by
  rintro p hp rfl
  obtain ⟨e, he, hp⟩ := List.mem_flatMap.1 hp
  obtain ⟨value, hvalue, rfl⟩ := List.mem_map.1 hp
  rw [first?, FieldMap.get?_of_mem he, Option.bind_some, List.head?_eq_none_iff] at h
  rw [h] at hvalue
  cases hvalue

/-! ## The characters of a text of pairs -/

/-- A character of joined pairs is a separator, or one of a name or a value. -/
theorem mem_joinPairs {ps : List (String × String)} {c : Char} (h : c ∈ (joinPairs ps).toList) :
    c = '&' ∨ c = '=' ∨ ∃ p ∈ ps, c ∈ p.1.toList ∨ c ∈ p.2.toList := by
  rw [toList_joinPairs] at h
  have hmem : c = '&' ∨ ∃ p ∈ ps, c ∈ pairChars p := by
    induction ps with
    | nil => cases h
    | cons p ps ih =>
      cases ps with
      | nil =>
        rw [List.map_singleton, List.intercalate_singleton] at h
        exact .inr ⟨p, List.mem_cons_self, h⟩
      | cons next ps =>
        rw [List.map_cons, List.map_cons, List.intercalate_cons_cons, List.mem_append, List.mem_append, List.mem_singleton] at h
        rcases h with (h | h) | h
        · exact .inr ⟨p, List.mem_cons_self, h⟩
        · exact .inl h
        · rcases ih h with h | ⟨p, hp, hc⟩
          · exact .inl h
          · exact .inr ⟨p, List.mem_cons_of_mem _ hp, hc⟩
  rcases hmem with h | ⟨p, hp, hc⟩
  · exact .inl h
  · rcases List.mem_append.1 hc with hc | hc
    · exact .inr (.inr ⟨p, hp, .inl hc⟩)
    · rcases List.mem_cons.1 hc with hc | hc
      · exact .inr (.inl hc)
      · exact .inr (.inr ⟨p, hp, .inr hc⟩)

/-- A text of encoded pairs is made of unreserved characters, percent signs and the separators. -/
theorem mem_joinPairs_encoded {ps qs : List (String × String)} (hps : ∀ p ∈ ps, p ∈ qs.map encodePair) {c : Char}
    (h : c ∈ (joinPairs ps).toList) : Percent.isUnreserved c = true ∨ c ∈ ['%', '&', '='] := by
  rcases mem_joinPairs h with rfl | rfl | ⟨p, hp, hc⟩
  · exact .inr (by decide)
  · exact .inr (by decide)
  · obtain ⟨q, -, rfl⟩ := List.mem_map.1 (hps p hp)
    simp only [encodePair, Percent.toList_encode] at hc
    rcases hc with hc | hc <;> rcases Percent.mem_encodeChars hc with hc | rfl
    · exact .inl hc
    · exact .inr (by decide)
    · exact .inl hc
    · exact .inr (by decide)

/-- The text of a query holds only unreserved characters, percent signs and the separators. -/
theorem not_mem_encode {c : Char} (hu : Percent.isUnreserved c = false) (hs : c ∉ ['%', '&', '=']) (q : Query) :
    c ∉ q.encode.toList := by
  intro h
  rcases mem_joinPairs_encoded (fun _ hp => hp) h with h | h
  · rw [hu] at h
    cases h
  · exact hs h

/-- So does the canonical text. -/
theorem not_mem_canonical {c : Char} (hu : Percent.isUnreserved c = false) (hs : c ∉ ['%', '&', '=']) (q : Query) :
    c ∉ q.canonical.toList := by
  intro h
  rcases mem_joinPairs_encoded (fun _ hp => q.sortedPairs_perm.subset hp) h with h | h
  · rw [hu] at h
    cases h
  · exact hs h

end SignedCall.Query
