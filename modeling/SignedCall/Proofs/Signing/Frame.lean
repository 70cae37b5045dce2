import SignedCall.Proofs.Http.Headers
import SignedCall.Proofs.Signing.Again

/-!
# What signing leaves alone

Signing changes the query of a request only. There it sets the parameters of the signer, each to one value, in the place that the
request had for it or at the end; all other parameters keep their values, and all names keep their places (`Frame`). The
signature depends on no more than the canonical form and the stripped credentials do: method, header fields and body, the letter case
of the host, the order of the parameters, the blanks around the parts of the credentials, their expiration and their account have no
part in it (`sets_only_its_parameters`).
-/

namespace SignedCall

namespace Query

/-- A parameter that is set has the pairs of its new values in place of those it had, and the other pairs stay. -/
theorem pairs_insert_perm (q : Query) (name : String) (values : List String) :
    (pairs (q.insert name values)).Perm (q.pairs.filter (·.1 ≠ name) ++ values.map fun value => (name, value)) := by
  have hgone : FieldMap.get? (q.erase name) name = none := by
    rw [FieldMap.get?_erase, if_pos rfl]
  have hsame : ∀ name', (q.insert name values).get? name' = ((q.erase name).insert name values).get? name' := by
    intro name'
    rw [FieldMap.get?_insert, FieldMap.get?_insert, FieldMap.get?_erase]
    by_cases hname : name' = name <;> simp [hname]
  rw [← pairs_erase, ← pairs_insert_of_none hgone]
  exact pairs_perm hsame

/-- Setting a parameter keeps queries alike that have the same pairs in any order. -/
theorem pairs_insert_congr {q q' : Query} (h : q.pairs.Perm q'.pairs) (name : String) (values : List String) :
    (pairs (q.insert name values)).Perm (pairs (q'.insert name values)) :=
  (q.pairs_insert_perm name values).trans
    (((h.filter _).append_right _).trans (q'.pairs_insert_perm name values).symm)

end Query

/-- A text without the blanks around it; anything else as it is. -/
def Json.stripped : Json → Json
  | .text s => .text (Text.strip s)
  | j => j

namespace Credentials

/-- Credentials whose parts that a signature is made with are the same but for the blanks around them. When they expire and whose
account they are for may differ. -/
structure SameButBlanks (c c' : Credentials) : Prop where
  accessKeyId : c.accessKeyId.stripped = c'.accessKeyId.stripped
  secretAccessKey : c.secretAccessKey.stripped = c'.secretAccessKey.stripped
  sessionToken : c.sessionToken.stripped = c'.sessionToken.stripped

/-- Credentials are stripped part by part. -/
theorem strip?_eq (c : Credentials) :
    c.strip? = match c.accessKeyId.stripped, c.secretAccessKey.stripped, c.sessionToken.stripped with
      | .text key, .text secret, .text token => some ⟨key, secret, some token⟩
      | .text key, .text secret, .null => some ⟨key, secret, none⟩
      | _, _, _ => none := by
  unfold strip?
  cases c.accessKeyId <;> cases c.secretAccessKey <;> cases c.sessionToken <;> rfl

/-- Nothing but blanks is lost when credentials are stripped. -/
theorem SameButBlanks.strip?_eq {c c' : Credentials} (h : c.SameButBlanks c') : c.strip? = c'.strip? := by
  rw [Credentials.strip?_eq, Credentials.strip?_eq, h.accessKeyId, h.secretAccessKey, h.sessionToken]

end Credentials

namespace Request

/-- Requests to the same target, the letter case of the host apart, with the same pairs of parameters in any order. Their methods,
header fields and bodies may differ. -/
structure SameToSign (r r' : Request) : Prop where
  scheme : r.scheme = r'.scheme
  host : Text.sameIgnoringCase r.host r'.host = true
  port : r.port = r'.port
  path : r.path = r'.path
  query : r.query.pairs.Perm r'.query.pairs

variable {r r' : Request}

/-- Such requests are the same to whoever signs them. -/
theorem SameToSign.canonical_eq (h : r.SameToSign r') : r.canonical = r'.canonical := by
  have hendpoint : r.endpoint = r'.endpoint := by
    unfold endpoint usesOtherPort
    rw [Text.sameIgnoringCase_iff.1 h.host, h.port, h.scheme]
  rw [canonical, canonical, hendpoint, h.path, (Query.canonical_eq_iff _ _).2 h.query]

end Request

namespace QuerySigner

variable {request request' : Request} {parts : Credentials.Stripped} {time : Instant}

/-! ## The names of the parameters -/

/-- The signer sets none but its own parameters. -/
theorem mem_authParameters_of_mem_settings {p : String × String} (h : p ∈ settings parts time) : p.1 ∈ authParameters := by
  unfold settings at h
  simp only [List.cons_append, List.mem_cons, List.mem_append, List.mem_map, List.not_mem_nil, or_false] at h
  rcases h with rfl | ⟨token, -, rfl⟩ | rfl | rfl | rfl <;> simp [authParameters]

/-- A name that is put in keeps its place, or goes to the end. -/
theorem names_insert_append (q : Query) (name : String) (values : List String) :
    ∃ added, (q.insert name values).names = q.names ++ added ∧ ∀ name' ∈ added, name' = name := by
  rw [FieldMap.names_insert]
  split
  · exact ⟨[], by simp, by simp⟩
  · exact ⟨[name], rfl, by simp⟩

/-- All names of a query keep their places when settings are put in, and the new names come after them. -/
theorem names_putSettings (q : Query) (settings : List (String × String)) :
    ∃ added, (putSettings q settings).names = q.names ++ added ∧ ∀ name ∈ added, name ∈ settings.map Prod.fst := by
  induction settings with
  | nil => exact ⟨[], by simp [putSettings], by simp⟩
  | cons p settings ih =>
    obtain ⟨added, hadded, hmem⟩ := ih
    obtain ⟨more, hmore, hmem'⟩ := names_insert_append (putSettings q settings) p.1 [p.2]
    refine ⟨added ++ more, ?_, ?_⟩
    · change ((putSettings q settings).insert p.1 [p.2]).names = _
      rw [hmore, hadded, List.append_assoc]
    · intro name hname
      rw [List.map_cons, List.mem_cons]
      rcases List.mem_append.1 hname with hname | hname
      · exact Or.inr (hmem name hname)
      · exact Or.inl (hmem' name hname)

/-- All names of a request keep their places when it is signed, and the names that are new are those of the signer. -/
theorem names_signed (request : Request) (parts : Credentials.Stripped) (time : Instant) :
    ∃ added, (signed request parts time).query.names = request.query.names ++ added ∧ ∀ name ∈ added, name ∈ authParameters := by
  obtain ⟨added, hadded, hmem⟩ := names_putSettings request.query (settings parts time)
  obtain ⟨more, hmore, hmem'⟩ := names_insert_append (prepare request parts time).query signatureParameter
    [(prepare request parts time).build.signature parts.secretAccessKey]
  refine ⟨added ++ more, ?_, ?_⟩
  · change ((prepare request parts time).query.insert signatureParameter _).names = _
    rw [hmore, query_prepare, hadded, List.append_assoc]
  · intro name hname
    rcases List.mem_append.1 hname with hname | hname
    · obtain ⟨p, hp, rfl⟩ := List.mem_map.1 (hmem name hname)
      exact mem_authParameters_of_mem_settings hp
    · rw [hmem' name hname]
      simp [authParameters]

/-! ## The values of the parameters -/

/-- A parameter that is none of the signer's keeps its values, or stays away. -/
theorem get?_signed_of_not_mem {name : String} (h : name ∉ authParameters) (request : Request) (parts : Credentials.Stripped)
    (time : Instant) : (signed request parts time).query.get? name = request.query.get? name := by
  have hsignature : name ≠ signatureParameter := by
    rintro rfl
    exact h (by simp [authParameters])
  have hnone : (settings parts time).lookup name = none := by
    rw [List.lookup_eq_none_iff]
    intro p hp
    rw [bne_iff_ne]
    rintro rfl
    exact h (mem_authParameters_of_mem_settings hp)
  rw [get?_signed, if_neg hsignature, get?_prepare_settings, hnone]
  rfl

/-! ## Signing alike -/

/-- The order of the parameters has no part in which pairs there are once some are set. -/
theorem pairs_putSettings_congr {q q' : Query} (h : q.pairs.Perm q'.pairs) (settings : List (String × String)) :
    (putSettings q settings).pairs.Perm (putSettings q' settings).pairs := by
  induction settings with
  | nil => exact h
  | cons p settings ih => exact Query.pairs_insert_congr ih p.1 [p.2]

/-- Requests that are the same to whoever signs them still are when the signer has put its parameters in. -/
theorem sameToSign_prepare (h : request.SameToSign request') (parts : Credentials.Stripped) (time : Instant) :
    (prepare request parts time).build.SameToSign (prepare request' parts time).build := by
  have hpath : pathOrRoot request.path = pathOrRoot request'.path := by rw [h.path]
  rw [prepare_eq request, prepare_eq request']
  refine ⟨h.scheme, h.host, h.port, hpath, ?_⟩
  change (prepare request parts time).query.pairs.Perm (prepare request' parts time).query.pairs
  rw [query_prepare, query_prepare]
  exact pairs_putSettings_congr h.query _

/-- What a signed request has in common with the request that was signed, and what is set in it. -/
structure Frame (parts : Credentials.Stripped) (request signed : Request) : Prop where
  /-- Only the query changes. -/
  rest : signed = { request with query := signed.query }
  /-- All names keep their places, in front of those that are new. -/
  names : ∃ added, signed.query.names = request.query.names ++ added ∧ ∀ name ∈ added, name ∈ authParameters
  /-- The parameters that are none of the signer's keep their values. -/
  others : ∀ name, name ∉ authParameters → signed.query.get? name = request.query.get? name
  /-- The parameters that are set have one value each. -/
  single : ∀ name ∈ authParameters, name ≠ tokenParameter → ∃ value, signed.query.get? name = some [value]
  /-- A session token that is not empty is set, and nothing is otherwise. -/
  token : signed.query.get? tokenParameter = match parts.sessionToken with
    | some token => if token = "" then request.query.get? tokenParameter else some [token]
    | none => request.query.get? tokenParameter

/-- A signed request differs from the request that was signed in the parameters of the signer alone. -/
theorem frame_signed (request : Request) (parts : Credentials.Stripped) (time : Instant) :
    Frame parts request (signed request parts time) where
  rest := signed_eq request parts time
  names := names_signed request parts time
  others _ h := get?_signed_of_not_mem h request parts time
  single := by
    intro name hname htoken
    rw [get?_signed]
    split
    · exact ⟨_, rfl⟩
    · next hsignature =>
      rw [get?_prepare_settings, lookup_settings htoken]
      simp only [authParameters, List.mem_cons, List.not_mem_nil, or_false] at hname
      rcases hname with rfl | rfl | rfl | rfl | rfl | rfl
      · exact ⟨_, rfl⟩
      · exact ⟨_, rfl⟩
      · exact ⟨_, rfl⟩
      · exact absurd rfl htoken
      · exact ⟨_, rfl⟩
      · exact absurd rfl hsignature
  token := by
    rw [get?_signed_token, token?]
    cases parts.sessionToken with
    | none => rfl
    | some token => by_cases htoken : token = "" <;> simp [htoken, Option.filter]

/-- What signing gives for credentials with a key is signed with their stripped parts at the signing time. -/
theorem exists_signed_of_sign {c : Credentials} {key : String} {now : Instant} {offset : Int} {s : Request}
    (hkey : c.accessKeyId = .text key) (h : sign now offset (.credentials c) request = .ok s) :
    ∃ parts time, c.strip? = some parts ∧ parts.secretAccessKey ≠ "" ∧ signingTime? now offset = some time ∧
      s = signed request parts time := by
  rw [sign_credentials (by rw [hkey]; rfl)] at h
  split at h
  next => cases h
  next => cases h
  next parts time hparts htime =>
    split_ifs at h with hsecret
    exact ⟨parts, time, hparts, hsecret, htime, (Except.ok.inj h).symm⟩

/-- Signing changes a request in its query only. There it sets its own parameters, each to one value and each in its place or at the
end, and the session token only if there is one; every other parameter keeps its values and its place. Whoever signs a request at the
same time that differs in method, header fields, body, letter case of the host and order of the parameters, with credentials that
differ in blanks, expiration and account, succeeds too and gives the same signature. -/
theorem sets_only_its_parameters {c : Credentials} {key : String} {now : Instant} {offset : Int} {s : Request}
    (hkey : c.accessKeyId = .text key) (hsign : sign now offset (.credentials c) request = .ok s) :
    (∃ parts, c.strip? = some parts ∧ Frame parts request s) ∧
      ∀ (c' : Credentials) (request' : Request) (now' : Instant) (offset' : Int), c.SameButBlanks c' →
        request.SameToSign request' → signingTime? now offset = signingTime? now' offset' →
          ∃ s', sign now' offset' (.credentials c') request' = .ok s' ∧
            s'.query.get? signatureParameter = s.query.get? signatureParameter := by
  obtain ⟨parts, time, hparts, hsecret, htime, rfl⟩ := exists_signed_of_sign hkey hsign
  refine ⟨⟨parts, hparts, frame_signed request parts time⟩, ?_⟩
  intro c' request' now' offset' hc hrequest hnow
  have hparts' : c'.strip? = some parts := hc.strip?_eq ▸ hparts
  have htime' : signingTime? now' offset' = some time := hnow ▸ htime
  refine ⟨_, sign_eq_ok (isNull_of_strip? hparts') hparts' hsecret htime' request', ?_⟩
  have hcanonical := (sameToSign_prepare hrequest parts time).canonical_eq
  rw [get?_signed, if_pos rfl, get?_signed, if_pos rfl, Request.signature, Request.signature, hcanonical]

/-- Two requests for the same, one of them with the parameters of an earlier signature, which two callers sign who write the same key
with other blanks. -/
theorem sets_only_its_parameters_elsewhere :
    let request : Request := RequestBuilder.build
      { host := "LocalHost", query := ⟨[("Signature", ["old"]), ("a", ["1", "2"]), ("Timestamp", ["x", "y"]), ("b", [])], by decide⟩ }
    let request' : Request := RequestBuilder.build
      { host := "localhost", method := "PUT", headers := ⟨[("Accept", "*")], by decide⟩, body := some [1]
        query := ⟨[("a", ["2"]), ("Timestamp", ["y", "x"]), ("Signature", ["old"])], by decide⟩ }
    let c := Credentials.ofTexts "key" "secret" (some "  ") none
    let c' := Credentials.ofTexts " key" "secret " (some "") (some "account")
    let changed := request'.toBuilder.addParameter "a" "1"
    ∃ s s', sign ⟨0, by decide⟩ 0 (.credentials c) request = .ok s ∧
      s.query.get? "a" = some ["1", "2"] ∧ s.query.names.take 4 = ["Signature", "a", "Timestamp", "b"] ∧
      (∃ value, s.query.get? timeParameter = some [value]) ∧ s.query.get? tokenParameter = none ∧
      sign ⟨0, by decide⟩ 0 (.credentials c') changed.build = .ok s' ∧
      s'.query.get? signatureParameter = s.query.get? signatureParameter := by
  intro request request' c c' changed
  have hparts : c.strip? = some ⟨"key", "secret", some ""⟩ := by decide +kernel
  have htime : signingTime? ⟨0, by decide⟩ 0 = some ⟨0, by decide⟩ := by decide +kernel
  have hsign := sign_eq_ok (c := c) rfl hparts (by decide) htime request
  have hblank : ∀ s t, Text.strip s = Text.strip t → (Json.text s).stripped = (Json.text t).stripped :=
    fun _ _ h => congrArg Json.text h
  have hblanks : c.SameButBlanks c' :=
    ⟨hblank _ _ (by decide +kernel), hblank _ _ (by decide +kernel), hblank _ _ (by decide +kernel)⟩
  have hsame : request.SameToSign changed.build := ⟨rfl, by decide +kernel, rfl, by decide +kernel, by decide +kernel⟩
  obtain ⟨⟨parts, hparts', hframe⟩, halike⟩ := sets_only_its_parameters (c := c) rfl hsign
  obtain rfl := Option.some.inj (hparts.symm.trans hparts')
  obtain ⟨added, hadded, -⟩ := hframe.names
  obtain ⟨s', hsign', hsignature⟩ := halike c' changed.build _ _ hblanks hsame rfl
  refine ⟨_, s', hsign, ?_, ?_, ?_, ?_, hsign', hsignature⟩
  · exact (hframe.others "a" (by decide)).trans rfl
  · rw [hadded]
    rfl
  · exact hframe.single timeParameter (by decide) (by decide)
  · exact hframe.token.trans rfl

end QuerySigner

end SignedCall
