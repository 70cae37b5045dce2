import SignedCall.Proofs.Bytes.Base64
import SignedCall.Proofs.Http.Appending
import SignedCall.Proofs.Signing.Policy
import SignedCall.Signing.SignedUrl

/-!
# What is read from signed URLs

The parameters that signing puts behind a resource are written as they are: they are read back, behind those of the resource, if and
only if the resource has no fragment and the key pair's name has nothing that means something in a query (`adds_appendQuery_iff`). What
signing puts there itself never has (`verbatim_urlSafe`, `verbatim_toString`).
-/

namespace SignedCall.SignedUrl

open Query (readPairs joinPairs)

/-! ## Texts that need no encoding -/

/-- Whether a text is written in a query as it is: it has no separator, no number sign and nothing that is passed over or decoded. -/
structure Verbatim (s : String) : Prop where
  ampersand : '&' ∉ s.toList
  hash : '#' ∉ s.toList
  clean : Url.Clean s.toList
  plus : '+' ∉ s.toList
  escape : ¬Percent.Escaped s.toList

/-- A text that is written as it is is read back as it is. -/
theorem Verbatim.decodeQuery {s : String} (h : Verbatim s) : Percent.decodeQuery s.toList = s :=
  (Percent.decodeQuery_eq_iff s).2 ⟨h.plus, h.escape⟩

/-- A text of unreserved characters is written as it is. -/
theorem verbatim_of_unreserved {s : String} (h : ∀ c ∈ s.toList, Percent.isUnreserved c = true) : Verbatim s := by
  have hnot {c : Char} (hc : Percent.isUnreserved c = false) : c ∉ s.toList := by
    intro hmem
    have hchar := h c hmem
    rw [hc] at hchar
    cases hchar
  refine ⟨hnot rfl, hnot rfl, fun c hc => ?_, hnot rfl, Percent.not_escaped_of_not_mem (hnot rfl)⟩
  simp only [Bool.and_eq_true, bne_iff_ne, ne_eq]
  refine ⟨⟨?_, ?_⟩, ?_⟩ <;> rintro rfl <;> exact hnot rfl hc

/-- A text for URLs is written as it is. -/
theorem verbatim_urlSafe (bytes : Bytes) : Verbatim (Base64.urlSafe bytes) := by
  refine verbatim_of_unreserved fun c hc => ?_
  have hsafe := Base64.isSafe_of_mem_urlSafe hc
  simp only [Base64.isSafe, Bool.or_eq_true] at hsafe
  simp only [Percent.isUnreserved, Bool.or_eq_true]
  rcases hsafe with h | h
  · exact .inl (.inl h)
  · exact .inr h

/-- A whole number is written as it is. -/
theorem verbatim_toString (n : Int) : Verbatim (toString n) := by
  refine verbatim_of_unreserved fun c hc => ?_
  rw [Text.toList_toString, Text.intChars, List.mem_append] at hc
  rcases hc with hc | hc
  · have hminus : c = '-' := by
      split_ifs at hc
      · exact List.mem_singleton.1 hc
      · cases hc
    rw [hminus]
    rfl
  · have hdigit := Text.isAsciiDigit_of_mem_toDigits hc
    simp only [Text.isAsciiDigit] at hdigit
    simp [Percent.isUnreserved, hdigit]

/-! ## The parameters -/

/-- What is appended stands behind the resource and a mark. -/
theorem toList_appendQuery (resource query : String) :
    (appendQuery resource query).toList = resource.toList ++ Url.markFor resource :: query.toList := by
  unfold appendQuery Url.markFor
  by_cases h : '?' ∈ resource.toList <;> simp [h]

/-- The names of the parameters that signing adds need no encoding. -/
theorem unreserved_of_name {n : String} (hn : n ∈ ["Expires", "Policy", "Signature", "Key-Pair-Id"]) :
    ∀ c ∈ n.toList, Percent.isUnreserved c = true := by
  have hnames : (["Expires", "Policy", "Signature", "Key-Pair-Id"].all fun n => n.toList.all Percent.isUnreserved) = true := by decide
  exact List.all_eq_true.1 (List.all_eq_true.1 hnames n hn)

/-- The parameters that signing adds: one about the policy, the signature, and the key pair. -/
def parameters (name value signature keyPairId : String) : List (String × String) :=
  [(name, value), ("Signature", signature), ("Key-Pair-Id", keyPairId)]

/-- Whether a URL has the parameters of a resource, in their order, and behind them exactly the given ones. -/
def Adds (resource url : String) (more : List (String × String)) : Prop :=
  readPairs (Url.queryText url) = readPairs (Url.queryText resource) ++ more

/-- What is read as the name of a key pair: what stands before the next parameter or the fragment, without what is passed over. -/
def keyChars (keyPairId : String) : List Char := (Text.cutAt '#' (Url.kept keyPairId.toList)).1

/-- A single parameter is read back, its value decoded. -/
theorem readPairs_parameter {name value : String} (hname : ∀ c ∈ name.toList, Percent.isUnreserved c = true)
    (hvalue : '&' ∉ value.toList) : readPairs (joinPairs [(name, value)]) = [(name, Percent.decodeQuery value.toList)] := by
  have hverbatim := verbatim_of_unreserved hname
  have hequals : '=' ∉ name.toList := fun hmem => absurd (hname _ hmem) (by decide)
  have hseparable : Query.Separable (name, value) := ⟨hverbatim.ampersand, hequals, hvalue⟩
  rw [Query.readPairs_pair hseparable, Query.decodePair, hverbatim.decodeQuery]

/-- The first thing that is read from the text of a parameter is its value up to the next separator. -/
theorem head?_readPairs_parameter {name : String} (hname : ∀ c ∈ name.toList, Percent.isUnreserved c = true) (value : String) :
    (readPairs (joinPairs [(name, value)])).head? = some (name, Percent.decodeQuery (Text.cutAt '&' value.toList).1) := by
  have hnot := Text.not_mem_cutAt_fst '&' value.toList
  cases hafter : (Text.cutAt '&' value.toList).2 with
  | none =>
    have hvalue := Text.not_mem_of_cutAt_snd hafter
    rw [readPairs_parameter hname hvalue, Text.cutAt_of_not_mem hvalue, List.head?_cons]
  | some after =>
    have htext : (joinPairs [(name, value)]).toList =
        (joinPairs [(name, String.ofList (Text.cutAt '&' value.toList).1)]).toList ++ '&' :: (String.ofList after).toList := by
      have hsplit := Text.eq_append_of_cutAt_snd hafter
      simp only [Query.toList_joinPairs, List.map_singleton, List.intercalate_singleton, Query.pairChars, String.toList_ofList]
      conv_lhs => rw [hsplit]
      simp
    rw [Query.readPairs_append htext, readPairs_parameter hname (by simpa using hnot), String.toList_ofList]
    rfl

/-- The name of a key pair is read as it was given only if it needs no encoding. What is left out or decoded makes it shorter. -/
theorem readPairs_keyPair_iff (keyPairId : String) :
    readPairs (joinPairs [("Key-Pair-Id", String.ofList (keyChars keyPairId))]) = [("Key-Pair-Id", keyPairId)] ↔
      Verbatim keyPairId := by
  have hname : ∀ c ∈ "Key-Pair-Id".toList, Percent.isUnreserved c = true := unreserved_of_name (by simp)
  constructor
  · intro h
    have hhead := head?_readPairs_parameter hname (String.ofList (keyChars keyPairId))
    rw [h, String.toList_ofList] at hhead
    have hdecode : Percent.decodeQuery (Text.cutAt '&' (keyChars keyPairId)).1 = keyPairId := by
      simpa using hhead.symm
    have hdecoded := Percent.length_decodeQuery_le (Text.cutAt '&' (keyChars keyPairId)).1
    rw [hdecode] at hdecoded
    have hpair := Text.length_cutAt_fst_le '&' (keyChars keyPairId)
    have hfront := Text.length_cutAt_fst_le '#' (Url.kept keyPairId.toList)
    have hkept := Url.length_kept_le keyPairId.toList
    -- All four lengths are the same, so that nothing was left out.
    have hclean : Url.Clean keyPairId.toList := List.length_filter_eq_length_iff.1 (by
      show (Url.kept keyPairId.toList).length = _
      unfold keyChars at hdecoded hpair
      omega)
    have hall := Url.kept_eq_self_iff.2 hclean
    unfold keyChars at hdecode hdecoded hpair
    rw [hall] at hdecode hdecoded hpair hfront
    have hhash : '#' ∉ keyPairId.toList := Text.not_mem_of_length_le (by omega)
    rw [Text.cutAt_of_not_mem hhash] at hdecode hdecoded hpair
    have hampersand : '&' ∉ keyPairId.toList := Text.not_mem_of_length_le hdecoded
    rw [Text.cutAt_of_not_mem hampersand] at hdecode
    obtain ⟨hplus, hescape⟩ := (Percent.decodeQuery_eq_iff keyPairId).1 hdecode
    exact ⟨hampersand, hhash, hclean, hplus, hescape⟩
  · intro h
    have hchars : String.ofList (keyChars keyPairId) = keyPairId := by
      rw [keyChars, Url.kept_eq_self_iff.2 h.clean, Text.cutAt_of_not_mem h.hash, String.ofList_toList]
    rw [hchars, readPairs_parameter hname h.ampersand, h.decodeQuery]

section

variable {name value signature : String} (hname : ∀ c ∈ name.toList, Percent.isUnreserved c = true) (hvalue : Verbatim value)
  (hsignature : Verbatim signature) (keyPairId : String)
include hname hvalue hsignature

/-- The characters in front of the name of the key pair stay, and none of them begins a fragment. -/
theorem kept_of_mem_lead {c : Char} (h : c ∈ (joinPairs (parameters name value signature "")).toList) :
    (c != '\t' && c != '\r' && c != '\n') = true ∧ c ≠ '#' := by
  have hof {s : String} (hs : Verbatim s) (hc : c ∈ s.toList) : (c != '\t' && c != '\r' && c != '\n') = true ∧ c ≠ '#' :=
    ⟨hs.clean c hc, fun heq => hs.hash (heq ▸ hc)⟩
  rcases Query.mem_joinPairs h with rfl | rfl | ⟨p, hp, hc⟩
  · decide
  · decide
  · simp only [parameters, List.mem_cons, List.not_mem_nil, or_false] at hp
    rcases hp with rfl | rfl | rfl
    · rcases hc with hc | hc
      · exact hof (verbatim_of_unreserved hname) hc
      · exact hof hvalue hc
    · rcases hc with hc | hc
      · exact hof (verbatim_of_unreserved (unreserved_of_name (n := "Signature") (by simp))) hc
      · exact hof hsignature hc
    · rcases hc with hc | hc
      · exact hof (verbatim_of_unreserved (unreserved_of_name (n := "Key-Pair-Id") (by simp))) hc
      · cases hc

/-- Only the name of the key pair can be cut short by a fragment, or have characters that are passed over. -/
theorem cutAt_kept_parameters : String.ofList
      (Text.cutAt '#' (Url.kept (joinPairs (parameters name value signature keyPairId)).toList)).1 =
    joinPairs (parameters name value signature (String.ofList (keyChars keyPairId))) := by
  have hlead : ∀ keyPairId, (joinPairs (parameters name value signature keyPairId)).toList =
      (joinPairs (parameters name value signature "")).toList ++ keyPairId.toList := by
    intro keyPairId
    simp [parameters, Query.toList_joinPairs, List.intercalate_cons_cons, Query.pairChars]
  have hkept : Url.kept (joinPairs (parameters name value signature "")).toList =
      (joinPairs (parameters name value signature "")).toList :=
    Url.kept_eq_self_iff.2 fun c hc => (kept_of_mem_lead hname hvalue hsignature hc).1
  have hhash : '#' ∉ (joinPairs (parameters name value signature "")).toList :=
    fun hc => (kept_of_mem_lead hname hvalue hsignature hc).2 rfl
  rw [← String.toList_inj, hlead keyPairId, hlead (String.ofList (keyChars keyPairId)), String.toList_ofList, String.toList_ofList,
    Url.kept_append, hkept, Text.cutAt_append_left hhash]
  rfl

/-- The parameters are read back if the name of the key pair is written as it is, and only then. -/
theorem readPairs_parameters_iff : readPairs (String.ofList
      (Text.cutAt '#' (Url.kept (joinPairs (parameters name value signature keyPairId)).toList)).1) =
    parameters name value signature keyPairId ↔ Verbatim keyPairId := by
  have hsplit : readPairs (joinPairs (parameters name value signature (String.ofList (keyChars keyPairId)))) =
      (name, value) :: ("Signature", signature) :: readPairs (joinPairs [("Key-Pair-Id", String.ofList (keyChars keyPairId))]) := by
    rw [parameters, Query.readPairs_joinPairs_cons, Query.readPairs_joinPairs_cons, readPairs_parameter hname hvalue.ampersand,
      readPairs_parameter (unreserved_of_name (by simp)) hsignature.ampersand, hvalue.decodeQuery, hsignature.decodeQuery, List.singleton_append,
      List.singleton_append]
  rw [cutAt_kept_parameters hname hvalue hsignature, hsplit, parameters, List.cons_inj_right, List.cons_inj_right,
    readPairs_keyPair_iff]

/-- The parameters are read back behind those of the resource exactly if they do not come into a fragment, and the name of the key
pair needs no encoding. -/
theorem adds_appendQuery_iff (resource : String) :
    Adds resource (appendQuery resource (joinPairs (parameters name value signature keyPairId)))
      (parameters name value signature keyPairId) ↔ '#' ∉ resource.toList ∧ Verbatim keyPairId := by
  have htext := toList_appendQuery resource (joinPairs (parameters name value signature keyPairId))
  unfold Adds
  by_cases hhash : '#' ∈ resource.toList
  · rw [Url.queryText_append_of_mem htext hhash]
    simp [hhash, parameters]
  · rw [Url.readPairs_queryText_append htext hhash, List.append_cancel_left_eq, readPairs_parameters_iff hname hvalue hsignature]
    simp [hhash]

end

/-! ## Signed URLs -/

theorem of_mapError_eq_ok {ε ε' α : Type} {f : ε → ε'} {x : Except ε α} {a : α} (h : x.mapError f = .ok a) : x = .ok a := by
  cases x with
  | error e => cases h
  | ok b =>
    cases h
    rfl

/-- A signature is the text for URLs of what the signer puts under the policy. -/
theorem signature_eq_ok {sign : Signer} {policy text : String} (h : signature sign policy = .ok text) :
    ∃ bytes, sign (Text.Utf8.encode policy) = .ok bytes ∧ text = Base64.urlSafe bytes := by
  have h := of_mapError_eq_ok h
  cases hsign : sign (Text.Utf8.encode policy) with
  | error fault =>
    rw [hsign] at h
    cases h
  | ok bytes =>
    rw [hsign] at h
    cases h
    exact ⟨bytes, rfl, rfl⟩

/-- The URL under a canned policy has the seconds of the policy, and the signature of its text. -/
theorem canned_eq_ok {sign : Signer} {resource keyPairId url : String} {expiration : Option DateTime}
    (h : canned sign resource keyPairId expiration = .ok url) : ∃ d policy seconds bytes, expiration = some d ∧
      Policy.epochSeconds d = .ok seconds ∧ Policy.canned resource expiration = .ok policy ∧
      policy.toList = Json.bare (fun _ => []) (Policy.Terms.mk resource seconds none none).document ∧
      sign (Text.Utf8.encode policy) = .ok bytes ∧
      url = appendQuery resource (joinPairs (parameters "Expires" (toString seconds) (Base64.urlSafe bytes) keyPairId)) := by
  unfold canned at h
  obtain ⟨policy, hpolicy, h⟩ := Except.bind_ok h
  obtain ⟨text, htext, h⟩ := Except.bind_ok h
  obtain ⟨bytes, hsign, rfl⟩ := signature_eq_ok htext
  have hpolicy := of_mapError_eq_ok hpolicy
  obtain ⟨d, seconds, rfl, -, hseconds, hdocument⟩ := Policy.canned_eq_ok hpolicy
  obtain ⟨seconds', hseconds', h⟩ := Except.bind_ok h
  cases hseconds.symm.trans (of_mapError_eq_ok hseconds')
  cases h
  refine ⟨d, policy, seconds, bytes, rfl, hseconds, hpolicy, hdocument, hsign,
    congrArg (appendQuery resource) (String.toList_inj.1 ?_)⟩
  simp [parameters, Query.toList_joinPairs, List.intercalate_cons_cons, Query.pairChars]

/-- The URL under a custom policy has the text of the policy, and the signature of that. -/
theorem custom_eq_ok {sign : Signer} {resource keyPairId policy url : String} (h : custom sign resource keyPairId policy = .ok url) :
    ∃ bytes, sign (Text.Utf8.encode policy) = .ok bytes ∧ url = appendQuery resource
      (joinPairs (parameters "Policy" (Base64.urlSafe (Text.Utf8.encode policy)) (Base64.urlSafe bytes) keyPairId)) := by
  unfold custom at h
  obtain ⟨text, htext, h⟩ := Except.bind_ok h
  obtain ⟨bytes, hsign, rfl⟩ := signature_eq_ok htext
  cases h
  refine ⟨bytes, hsign, congrArg (appendQuery resource) (String.toList_inj.1 ?_)⟩
  simp [parameters, Query.toList_joinPairs, List.intercalate_cons_cons, Query.pairChars]

/-- What is read from signed URLs, however policies are signed. A URL under a canned policy is split as its resource is (or refused for
the same reason), and its query has the parameters of the resource in their order, and behind them exactly the seconds of the expiration,
which are those of the signed policy, the signature of its text and the given name of the key pair, if and only if the resource has no
fragment and the name needs no encoding. A URL under a custom policy has the policy in place of the seconds, from which the signed text
is read back. -/
theorem signed_urls_read (sign : Signer) (resource keyPairId url : String) :
    (∀ expiration, canned sign resource keyPairId expiration = .ok url → ∃ d policy seconds bytes, expiration = some d ∧
      Policy.epochSeconds d = .ok seconds ∧ Policy.canned resource expiration = .ok policy ∧
      policy.toList = Json.bare (fun _ => []) (Policy.Terms.mk resource seconds none none).document ∧
      sign (Text.Utf8.encode policy) = .ok bytes ∧
      (Url.split url).map Url.query = (Url.split resource).map (fun _ => Url.queryText url) ∧
      (Adds resource url (parameters "Expires" (toString seconds) (Base64.urlSafe bytes) keyPairId) ↔
        '#' ∉ resource.toList ∧ Verbatim keyPairId)) ∧
    ∀ policy, custom sign resource keyPairId policy = .ok url → ∃ value bytes,
      (Base64.decode? (Base64.undo value)).map Text.Utf8.decode = some (.ok policy) ∧
      sign (Text.Utf8.encode policy) = .ok bytes ∧
      (Url.split url).map Url.query = (Url.split resource).map (fun _ => Url.queryText url) ∧
      (Adds resource url (parameters "Policy" value (Base64.urlSafe bytes) keyPairId) ↔
        '#' ∉ resource.toList ∧ Verbatim keyPairId) := by
  constructor
  · intro expiration h
    obtain ⟨d, policy, seconds, bytes, hexpiration, hseconds, hpolicy, hdocument, hsign, rfl⟩ := canned_eq_ok h
    exact ⟨d, policy, seconds, bytes, hexpiration, hseconds, hpolicy, hdocument, hsign,
      Url.map_query_split_append (toList_appendQuery resource _),
      adds_appendQuery_iff (unreserved_of_name (by simp)) (verbatim_toString seconds) (verbatim_urlSafe bytes) keyPairId resource⟩
  · intro policy h
    obtain ⟨bytes, hsign, rfl⟩ := custom_eq_ok h
    refine ⟨Base64.urlSafe (Text.Utf8.encode policy), bytes, ?_, hsign, Url.map_query_split_append (toList_appendQuery resource _),
      adds_appendQuery_iff (unreserved_of_name (by simp)) (verbatim_urlSafe _) (verbatim_urlSafe bytes) keyPairId resource⟩
    rw [Base64.decode?_undo_urlSafe, Option.map_some, Text.Utf8.decode_encode]

/-- A signer that puts the same two bytes under everything. -/
def stamp : Signer := fun _ => .ok [0x7b, 0x3f]

/-- The parameters of a URL that was signed until 2030. -/
theorem signed_urls_read_year2030 :
    ∃ url, canned stamp "https://d/a b?x=1&x=&?y" "APKA" (some Policy.year2030) = .ok url ∧
      readPairs (Url.queryText url) = [("x", "1"), ("x", ""), ("?y", ""), ("Expires", "1893456000"), ("Signature", "ez8_"),
        ("Key-Pair-Id", "APKA")] := by
  refine ⟨_, rfl, ?_⟩
  obtain ⟨d, policy, seconds, bytes, hd, hseconds, -, -, hsign, -, hadds⟩ :=
    (signed_urls_read stamp "https://d/a b?x=1&x=&?y" "APKA" _).1 (some Policy.year2030) rfl
  cases hd
  cases Policy.epochSeconds_year2030.symm.trans hseconds
  cases hsign
  have hown : readPairs (Url.queryText "https://d/a b?x=1&x=&?y") = [("x", "1"), ("x", ""), ("?y", "")] := by decide +kernel
  have hmore : parameters "Expires" (toString (1893456000 : Int)) (Base64.urlSafe [0x7b, 0x3f]) "APKA" =
      [("Expires", "1893456000"), ("Signature", "ez8_"), ("Key-Pair-Id", "APKA")] := by decide +kernel
  exact (hadds.2 ⟨by decide, verbatim_of_unreserved (List.all_eq_true.1 (by decide))⟩).trans (congrArg₂ (· ++ ·) hown hmore)

/-- Not all parameters are read back: those of a resource with a number sign are not, as they come into the fragment, nor is the name of
a key pair with an ampersand. -/
theorem signed_urls_read_always_false :
    (¬∀ (sign : Signer) (resource keyPairId url : String) (expiration : Option DateTime),
      canned sign resource keyPairId expiration = .ok url → ∃ d seconds policy bytes, expiration = some d ∧
        Policy.epochSeconds d = .ok seconds ∧ Policy.canned resource expiration = .ok policy ∧
        sign (Text.Utf8.encode policy) = .ok bytes ∧
        Adds resource url (parameters "Expires" (toString seconds) (Base64.urlSafe bytes) keyPairId)) ∧
    ¬∀ (sign : Signer) (resource keyPairId url policy : String), custom sign resource keyPairId policy = .ok url → ∃ value bytes,
      (Base64.decode? (Base64.undo value)).map Text.Utf8.decode = some (.ok policy) ∧ sign (Text.Utf8.encode policy) = .ok bytes ∧
        Adds resource url (parameters "Policy" value (Base64.urlSafe bytes) keyPairId) := by
  constructor
  · intro h
    obtain ⟨d, seconds, policy, bytes, hd, hseconds, -, hsign, hadds⟩ :=
      h stamp "https://d/a#b" "APKA" _ (some Policy.year2030) rfl
    cases hd
    cases Policy.epochSeconds_year2030.symm.trans hseconds
    cases hsign
    revert hadds
    unfold Adds
    decide +kernel
  · intro h
    obtain ⟨value, bytes, -, -, hadds⟩ := h stamp "https://d/a" "A&B" _ "" rfl
    have hlast := congrArg List.getLast? hadds
    rw [parameters, List.getLast?_append_of_ne_nil _ (List.cons_ne_nil _ _)] at hlast
    have hread : (readPairs (Url.queryText
        "https://d/a?Policy=&Signature=ez8_&Key-Pair-Id=A&B")).getLast? = some ("B", "") := by decide +kernel
    have hsame := hread.symm.trans hlast
    simp at hsame

end SignedCall.SignedUrl
