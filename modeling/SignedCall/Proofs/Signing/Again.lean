import SignedCall.Proofs.Signing.Verification

/-!
# Signing a signed request

The signer sets its parameters in place of old ones and removes none (`get?_prepare_settings`). So a signed request that is signed
again says who signs, when and how as if it had been signed for the first time, but its first signature is part of what the second
one signs, and a session token that nothing takes the place of stays (`signed_again`). It is signed as for the first time once these two are
taken out.
-/

namespace SignedCall

namespace FieldMap

variable {α : Type}

/-- The entries of a map are what is found under its names. -/
theorem mem_entries_iff {m : FieldMap α} {name : String} {value : α} : (name, value) ∈ m.entries ↔ m.get? name = some value := by
  refine ⟨get?_of_mem, fun h => ?_⟩
  obtain ⟨before, after, hentries, -⟩ := List.lookup_eq_some_iff.1 h
  rw [hentries]
  exact List.mem_append_right _ List.mem_cons_self

/-- Maps in which the same is found under every name have the same entries, maybe in another order. -/
theorem entries_perm {m m' : FieldMap α} (h : ∀ name, m.get? name = m'.get? name) : m.entries.Perm m'.entries := by
  refine (List.perm_ext_iff_of_nodup (List.Nodup.of_map _ m.nodup) (List.Nodup.of_map _ m'.nodup)).2 fun e => ?_
  rw [mem_entries_iff, mem_entries_iff, h]

end FieldMap

namespace Query

/-- Queries with the same values under all names have the same pairs. -/
theorem pairs_perm {q q' : Query} (h : ∀ name, q.get? name = q'.get? name) : q.pairs.Perm q'.pairs :=
  (FieldMap.entries_perm h).flatMap_right _

/-- A parameter that is new brings its pairs. -/
theorem pairs_insert_of_none {q : Query} {name : String} (h : q.get? name = none) (values : List String) :
    pairs (q.insert name values) = q.pairs ++ values.map fun value => (name, value) := by
  have hname : name ∉ q.entries.map Prod.fst := by
    intro hmem
    obtain ⟨e, he, rfl⟩ := List.mem_map.1 hmem
    rw [FieldMap.get?_of_mem he] at h
    cases h
  simp [pairs, FieldMap.insert, FieldMap.putEntry_of_not_mem hname]

end Query

namespace Request

/-- Requests to the same target have the same canonical form exactly if they have the same pairs of parameters. -/
theorem SameTarget.canonical_eq_iff {r r' : Request} (h : r.SameTarget r') :
    r.canonical = r'.canonical ↔ r.query.pairs.Perm r'.query.pairs := by
  refine ⟨fun heq => (Query.canonical_eq_iff _ _).1 ?_, fun hpairs => (h.canonical_eq hpairs.symm).symm⟩
  have hendpoint : r'.endpoint = r.endpoint := by
    unfold endpoint usesOtherPort
    rw [h.host, h.port, h.scheme]
  have hlines := congrArg String.toList heq
  rw [toList_canonical, toList_canonical, hendpoint, h.path] at hlines
  simpa [List.intercalate_cons_cons, String.toList_inj] using hlines

end Request

namespace QuerySigner

variable {request request' : Request} {parts parts' : Credentials.Stripped} {time time' : Instant}

/-- The session token of stripped credentials; an empty one is none. -/
def token? (parts : Credentials.Stripped) : Option String := parts.sessionToken.filter (· ≠ "")

/-- What the signer sets before it signs, the latest first. -/
def settings (parts : Credentials.Stripped) (time : Instant) : List (String × String) :=
  (methodParameter, algorithm.keyedName) :: (token? parts).toList.map (fun token => (tokenParameter, token)) ++
    [(timeParameter, time.stamp), (versionParameter, version), (keyParameter, parts.accessKeyId)]

/-- A query with single values put in. -/
def putSettings (q : Query) (settings : List (String × String)) : Query :=
  settings.foldr (fun p q => q.insert p.1 [p.2]) q

/-- Before it signs the signer sets its own parameters. -/
theorem query_prepare (request : Request) (parts : Credentials.Stripped) (time : Instant) :
    (prepare request parts time).query = putSettings request.query (settings parts time) := by
  unfold prepare settings token?
  cases parts.sessionToken with
  | none => rfl
  | some token => by_cases htoken : token = "" <;> simp [htoken, Option.filter] <;> rfl

/-- A parameter that is set has its one value, and any other one what it had. -/
theorem get?_putSettings (q : Query) (settings : List (String × String)) (name : String) :
    (putSettings q settings).get? name = ((settings.lookup name).map fun value => [value]).or (q.get? name) := by
  induction settings with
  | nil => rfl
  | cons p settings ih =>
    change ((putSettings q settings).insert p.1 [p.2]).get? name = _
    rw [FieldMap.get?_insert, ih, List.lookup_cons]
    by_cases hname : name = p.1
    · simp [hname]
    · have hb : (name == p.1) = false := by simpa using hname
      simp [hname, hb]

/-- What is found in a query when the signer has put its parameters in. -/
theorem get?_prepare_settings (request : Request) (parts : Credentials.Stripped) (time : Instant) (name : String) :
    (prepare request parts time).query.get? name =
      (((settings parts time).lookup name).map fun value => [value]).or (request.query.get? name) := by
  rw [query_prepare, get?_putSettings]

/-- But for the token the signer sets the same names for whatever credentials. -/
theorem lookup_settings {name : String} (h : name ≠ tokenParameter) (parts : Credentials.Stripped) (time : Instant) :
    (settings parts time).lookup name =
      [(methodParameter, algorithm.keyedName), (timeParameter, time.stamp), (versionParameter, version),
        (keyParameter, parts.accessKeyId)].lookup name := by
  have hb : (name == tokenParameter) = false := by simpa using h
  unfold settings
  cases token? parts <;> simp [List.lookup_cons, hb]

/-- Which parameters are set does not depend on the credentials, the session token apart. -/
theorem lookup_settings_eq_none {name : String} (h : name ≠ tokenParameter) (parts parts' : Credentials.Stripped)
    (time time' : Instant) : (settings parts time).lookup name = none → (settings parts' time').lookup name = none := by
  rw [lookup_settings h, lookup_settings h]
  simp [List.lookup_eq_none_iff]

/-- The signer sets a token if the credentials have one. -/
theorem lookup_settings_token (parts : Credentials.Stripped) (time : Instant) :
    (settings parts time).lookup tokenParameter = token? parts := by
  have hmethod : (tokenParameter == methodParameter) = false := by decide
  have hrest : [(timeParameter, time.stamp), (versionParameter, version), (keyParameter, parts.accessKeyId)].lookup tokenParameter =
      none := by
    rw [List.lookup_eq_none_iff]
    simp [tokenParameter, timeParameter, versionParameter, keyParameter]
  unfold settings
  cases token? parts <;> simp [List.lookup_cons, hmethod, hrest]

/-! ## What a signed request holds -/

/-- Signing changes the query only. -/
theorem signed_eq (request : Request) (parts : Credentials.Stripped) (time : Instant) :
    signed request parts time = { request with query := (signed request parts time).query } := by
  have hpath : pathOrRoot request.path = request.path := if_neg request.path_ne_empty
  unfold signed
  rw [prepare_eq]
  simp [RequestBuilder.setParameter, RequestBuilder.build, Request.toBuilder, hpath]

/-- A signed request has its signature, and otherwise what was signed. -/
theorem get?_signed (request : Request) (parts : Credentials.Stripped) (time : Instant) (name : String) :
    (signed request parts time).query.get? name =
      if name = signatureParameter then some [(prepare request parts time).build.signature parts.secretAccessKey]
      else (prepare request parts time).query.get? name :=
  FieldMap.get?_insert ..

/-- A session token is put in place of the one that the request holds, if there is one. -/
theorem get?_signed_token (request : Request) (parts : Credentials.Stripped) (time : Instant) :
    (signed request parts time).query.get? tokenParameter =
      ((token? parts).map fun token => [token]).or (request.query.get? tokenParameter) := by
  rw [get?_signed, if_neg (by decide), get?_prepare_settings, lookup_settings_token]

/-- What is prepared for requests to the same place goes to the same place. -/
theorem sameTarget_prepare (h : request.SameTarget request') (parts : Credentials.Stripped) (time : Instant) :
    (prepare request parts time).build.SameTarget (prepare request' parts time).build := by
  rw [prepare_eq request, prepare_eq request']
  exact ⟨h.scheme, h.host, h.port, congrArg pathOrRoot h.path⟩

/-- Requests to the same target are signed alike if they hold the same parameters once those of the signer are set. -/
theorem get?_signed_congr (h : request.SameTarget request')
    (hquery : ∀ name, (prepare request parts time).query.get? name = (prepare request' parts time).query.get? name) (name : String) :
    (signed request parts time).query.get? name = (signed request' parts time).query.get? name := by
  have hcanonical : (prepare request parts time).build.canonical = (prepare request' parts time).build.canonical :=
    (sameTarget_prepare h parts time).canonical_eq_iff.2 (Query.pairs_perm hquery)
  rw [get?_signed, get?_signed, hquery, Request.signature, Request.signature, hcanonical]

/-! ## Signing again -/

/-- A builder that takes over the values of a parameter from a request, unless it has some of its own. -/
def takeOver (earlier : Request) (name : String) (b : RequestBuilder) : RequestBuilder :=
  match b.query.get? name, earlier.query.get? name with
  | none, some values => b.setParameter name values
  | _, _ => b

/-- A builder that takes over the session token and the signature from a request, unless it has its own. -/
def takeOverMarks (earlier : Request) (b : RequestBuilder) : RequestBuilder :=
  takeOver earlier signatureParameter (takeOver earlier tokenParameter b)

/-- A parameter that is taken over is the builder's own, if it has one, or else the request's. -/
theorem get?_takeOver (earlier : Request) (name : String) (b : RequestBuilder) (name' : String) :
    (takeOver earlier name b).query.get? name' =
      if name' = name then (b.query.get? name).or (earlier.query.get? name) else b.query.get? name' := by
  unfold takeOver
  cases hown : b.query.get? name with
  | some own => by_cases hname : name' = name <;> simp [hname, hown]
  | none =>
    cases hearlier : earlier.query.get? name with
    | none => by_cases hname : name' = name <;> simp [hname, hown]
    | some values =>
      rw [Option.none_or]
      exact FieldMap.get?_insert ..

theorem takeOver_eq (earlier : Request) (name : String) (b : RequestBuilder) :
    takeOver earlier name b = { b with query := (takeOver earlier name b).query } := by
  unfold takeOver
  split <;> rfl

/-- What is taken over is added to the pairs. -/
theorem pairs_takeOver (earlier : Request) (name : String) (b : RequestBuilder) :
    (takeOver earlier name b).query.pairs = b.query.pairs ++
      if b.query.get? name = none then ((earlier.query.get? name).getD []).map fun value => (name, value) else [] := by
  unfold takeOver
  cases hown : b.query.get? name with
  | some own => simp
  | none =>
    cases hearlier : earlier.query.get? name with
    | none => simp
    | some values =>
      rw [if_pos rfl, Option.getD_some]
      exact Query.pairs_insert_of_none hown values

/-- A parameter that is no mark of an earlier signature is set whatever the request holds, or left as it is in the request. -/
theorem get?_prepare_signed {name : String} (hsignature : name ≠ signatureParameter) (htoken : name ≠ tokenParameter)
    (request : Request) (parts parts' : Credentials.Stripped) (time time' : Instant) :
    (prepare (signed request parts time) parts' time').query.get? name = (prepare request parts' time').query.get? name := by
  rw [get?_prepare_settings, get?_prepare_settings, get?_signed, if_neg hsignature, get?_prepare_settings]
  cases hset : (settings parts' time').lookup name with
  | some value => rfl
  | none =>
    rw [lookup_settings_eq_none htoken parts' parts time' time hset]
    rfl

/-- What the signer makes the second canonical form of is what it makes the first one of, and what is taken over. -/
theorem get?_prepare_again (hsignature : request.query.get? signatureParameter = none)
    (htoken : request.query.get? tokenParameter = none) (parts parts' : Credentials.Stripped) (time time' : Instant) (name : String) :
    (prepare (signed request parts time) parts' time').query.get? name =
      (takeOverMarks (signed request parts time) (prepare request parts' time')).query.get? name := by
  have hapart : signatureParameter ≠ tokenParameter := by decide
  rw [takeOverMarks, get?_takeOver]
  by_cases hname : name = signatureParameter
  · rw [if_pos hname, get?_takeOver, if_neg hapart, get?_prepare, hsignature, Option.none_or, hname, get?_prepare]
  · rw [if_neg hname, get?_takeOver]
    by_cases hname' : name = tokenParameter
    · rw [if_pos hname', hname', get?_prepare_settings, get?_prepare_settings request parts', htoken, Option.or_none]
    · rw [if_neg hname', get?_prepare_signed hname hname']

/-- Taking over parameters leaves the target alone. -/
theorem sameTarget_takeOverMarks (earlier : Request) (b : RequestBuilder) : (takeOverMarks earlier b).build.SameTarget b.build := by
  rw [takeOverMarks, takeOver_eq, takeOver_eq]
  exact ⟨rfl, rfl, rfl, rfl⟩

/-- What is signed the second time is what would be signed the first time, with the token and the signature taken over. -/
theorem canonical_prepare_again (hsignature : request.query.get? signatureParameter = none)
    (htoken : request.query.get? tokenParameter = none) (parts parts' : Credentials.Stripped) (time time' : Instant) :
    (prepare (signed request parts time) parts' time').build.canonical =
      (takeOverMarks (signed request parts time) (prepare request parts' time')).build.canonical := by
  have hfirst := sameTarget_prepare (sameTarget_signed request parts time) parts' time'
  have hmarks := sameTarget_takeOverMarks (signed request parts time) (prepare request parts' time')
  have hsame : (prepare (signed request parts time) parts' time').build.SameTarget
      (takeOverMarks (signed request parts time) (prepare request parts' time')).build :=
    ⟨hmarks.scheme.symm.trans hfirst.scheme.symm, hmarks.host.symm.trans hfirst.host.symm, hmarks.port.symm.trans hfirst.port.symm,
      hmarks.path.symm.trans hfirst.path.symm⟩
  exact hsame.canonical_eq_iff.2 (Query.pairs_perm (get?_prepare_again hsignature htoken parts parts' time time'))

/-- The second canonical form always differs from the first one: the first signature is part of it. -/
theorem canonical_takeOverMarks_ne {earlier : Request} {b : RequestBuilder} {value : String}
    (hown : b.query.get? signatureParameter = none) (hearlier : earlier.query.get? signatureParameter = some [value]) :
    (takeOverMarks earlier b).build.canonical ≠ b.build.canonical := by
  have hsame := sameTarget_takeOverMarks earlier b
  have hnone : (takeOver earlier tokenParameter b).query.get? signatureParameter = none := by
    rw [get?_takeOver, if_neg (by decide), hown]
  have hpairs : (takeOverMarks earlier b).query.pairs =
      (takeOver earlier tokenParameter b).query.pairs ++ [(signatureParameter, value)] := by
    rw [takeOverMarks, pairs_takeOver, if_pos hnone, hearlier]
    rfl
  intro heq
  have hlength := (hsame.canonical_eq_iff.1 heq).length_eq
  change (takeOverMarks earlier b).query.pairs.length = b.query.pairs.length at hlength
  rw [hpairs, pairs_takeOver] at hlength
  simp only [List.length_append, List.length_singleton] at hlength
  omega

/-- A request without its signature and its session token. -/
def withdraw (r : Request) : Request :=
  ((r.toBuilder.removeParameter signatureParameter).removeParameter tokenParameter).build

theorem withdraw_eq (r : Request) : withdraw r = { r with query := (withdraw r).query } := by
  have hpath : pathOrRoot r.path = r.path := if_neg r.path_ne_empty
  simp [withdraw, RequestBuilder.removeParameter, RequestBuilder.build, Request.toBuilder, hpath]

/-- Of a request without its signature and its token everything else is left. -/
theorem get?_withdraw (r : Request) (name : String) :
    (withdraw r).query.get? name =
      if name = tokenParameter then none else if name = signatureParameter then none else r.query.get? name := by
  have hquery : (withdraw r).query = (r.query.erase signatureParameter).erase tokenParameter := rfl
  rw [hquery, FieldMap.get?_erase, FieldMap.get?_erase]

/-- Without the marks of the first signature the second one is made as for the first time. -/
theorem get?_signed_withdraw (hsignature : request.query.get? signatureParameter = none)
    (htoken : request.query.get? tokenParameter = none) (parts parts' : Credentials.Stripped) (time time' : Instant) (name : String) :
    (signed (withdraw (signed request parts time)) parts' time').query.get? name = (signed request parts' time').query.get? name := by
  have hsame : (withdraw (signed request parts time)).SameTarget request := by
    rw [withdraw_eq, signed_eq]
    exact ⟨rfl, rfl, rfl, rfl⟩
  refine get?_signed_congr hsame (fun name => ?_) name
  by_cases hname : name = signatureParameter
  · rw [hname, get?_prepare, get?_prepare, get?_withdraw, if_neg (by decide), if_pos rfl, hsignature]
  · by_cases hname' : name = tokenParameter
    · rw [hname', get?_prepare_settings, get?_prepare_settings, get?_withdraw, if_pos rfl, htoken]
    · rw [← get?_prepare_signed hname hname' request parts parts' time time', get?_prepare_settings, get?_withdraw, if_neg hname',
        if_neg hname, get?_prepare_settings]

/-- Credentials whose parts are texts have a key. -/
theorem isNull_of_strip? {c : Credentials} (h : c.strip? = some parts) : c.accessKeyId.isNull = false := by
  unfold Credentials.strip? at h
  split at h
  · next hkey _ _ => rw [hkey]; rfl
  · next hkey _ _ => rw [hkey]; rfl
  · cases h

/-- Signing a signed request for other credentials and at another time succeeds as signing for the first time does, and gives the same
request but for its query. There every parameter other than the signature and the session token has the same values. The session
token is that of the new credentials or, if they have none, that of the old ones. The new signature is made of what is signed for the
first time and of what is taken over from the earlier signature, which is always something else; it is the same if the earlier
signature and the session token are taken out first. -/
theorem signed_again {c c' : Credentials} {now now' : Instant} {offset offset' : Int}
    (hsignature : request.query.get? signatureParameter = none) (htoken : request.query.get? tokenParameter = none)
    (hparts : c.strip? = some parts) (hsecret : parts.secretAccessKey ≠ "") (htime : signingTime? now offset = some time)
    (hparts' : c'.strip? = some parts') (hsecret' : parts'.secretAccessKey ≠ "") (htime' : signingTime? now' offset' = some time') :
    ∃ first again direct renewed,
      sign now offset (.credentials c) request = .ok first ∧
      sign now' offset' (.credentials c') first = .ok again ∧
      sign now' offset' (.credentials c') request = .ok direct ∧
      sign now' offset' (.credentials c') (withdraw first) = .ok renewed ∧
      again = { direct with query := again.query } ∧
      (∀ name, name ≠ signatureParameter → name ≠ tokenParameter → again.query.get? name = direct.query.get? name) ∧
      direct.query.get? tokenParameter = (token? parts').map (fun token => [token]) ∧
      again.query.get? tokenParameter = ((token? parts').or (token? parts)).map (fun token => [token]) ∧
      (let b := prepare request parts' time'
       direct.query.get? signatureParameter = some [b.build.signature parts'.secretAccessKey] ∧
       again.query.get? signatureParameter = some [(takeOverMarks first b).build.signature parts'.secretAccessKey] ∧
       (takeOverMarks first b).build.canonical ≠ b.build.canonical) ∧
      renewed = { direct with query := renewed.query } ∧ ∀ name, renewed.query.get? name = direct.query.get? name := by
  have hnull := isNull_of_strip? hparts
  have hnull' := isNull_of_strip? hparts'
  let first := signed request parts time
  have hframe : first = { request with query := first.query } := signed_eq request parts time
  have hfirst : first.query.get? signatureParameter = some [(prepare request parts time).build.signature parts.secretAccessKey] := by
    rw [get?_signed, if_pos rfl]
  have hnone : (prepare request parts' time').query.get? signatureParameter = none := by rw [get?_prepare, hsignature]
  have hfirstToken : first.query.get? tokenParameter = (token? parts).map fun token => [token] := by
    rw [get?_signed_token, htoken, Option.or_none]
  refine ⟨first, signed first parts' time', signed request parts' time', signed (withdraw first) parts' time',
    sign_eq_ok hnull hparts hsecret htime _, sign_eq_ok hnull' hparts' hsecret' htime' _, sign_eq_ok hnull' hparts' hsecret' htime' _,
    sign_eq_ok hnull' hparts' hsecret' htime' _, ?_, fun name hname hname' => ?_, ?_, ?_, ⟨?_, ?_, ?_⟩, ?_, ?_⟩
  · rw [signed_eq first, hframe, signed_eq request parts']
  · rw [get?_signed, if_neg hname, get?_prepare_signed hname hname', get?_signed, if_neg hname]
  · rw [get?_signed_token, htoken, Option.or_none]
  · rw [get?_signed_token, hfirstToken]
    cases token? parts' <;> rfl
  · rw [get?_signed, if_pos rfl]
  · rw [get?_signed, if_pos rfl, Request.signature, canonical_prepare_again hsignature htoken, Request.signature]
  · exact canonical_takeOverMarks_ne hnone hfirst
  · rw [signed_eq (withdraw first), withdraw_eq first, hframe, signed_eq request parts']
  · exact get?_signed_withdraw hsignature htoken parts parts' time time'

/-- A request that is signed with a session token first and without one an hour later. -/
theorem signed_again_tokenless :
    let request : Request := RequestBuilder.build { host := "localhost", query := ⟨[("a", ["1", "2"])], by decide⟩ }
    let c := Credentials.ofTexts "first" "secret" (some "token") none
    let c' := Credentials.ofTexts "second" "secret" none none
    ∃ first again direct, sign ⟨0, by decide⟩ 0 (.credentials c) request = .ok first ∧
      sign ⟨3600 * secondMicros, by decide⟩ 0 (.credentials c') first = .ok again ∧
      sign ⟨3600 * secondMicros, by decide⟩ 0 (.credentials c') request = .ok direct ∧
      again.query.get? keyParameter = direct.query.get? keyParameter ∧
      direct.query.get? tokenParameter = none ∧ again.query.get? tokenParameter = some ["token"] := by
  intro request c c'
  have hparts : c.strip? = some ⟨"first", "secret", some "token"⟩ := by decide +kernel
  have hparts' : c'.strip? = some ⟨"second", "secret", none⟩ := by decide +kernel
  have hunsigned : request.query.get? signatureParameter = none ∧ request.query.get? tokenParameter = none := by decide +kernel
  have htime : signingTime? ⟨0, by decide⟩ 0 = some ⟨0, by decide⟩ := by decide +kernel
  have htime' : signingTime? ⟨3600 * secondMicros, by decide⟩ 0 = some ⟨3600 * secondMicros, by decide⟩ := by decide +kernel
  obtain ⟨first, again, direct, -, hfirst, hagain, hdirect, -, -, hsame, htoken, htoken', -⟩ :=
    signed_again hunsigned.1 hunsigned.2 hparts (by decide) htime hparts' (by decide) htime'
  exact ⟨first, again, direct, hfirst, hagain, hdirect, hsame _ (by decide) (by decide), htoken, htoken'⟩

/-- The parameters that say who signs, when and how, and the signature. -/
def authParameters : List String :=
  [keyParameter, versionParameter, timeParameter, tokenParameter, methodParameter, signatureParameter]

/-- Signing a signed request need not give what signing for the first time gives: the session token of the first signature stays. -/
theorem signed_again_always_false :
    ¬∀ (request first again direct : Request) (c c' : Credentials) (parts parts' : Credentials.Stripped) (now now' : Instant),
      (∀ name ∈ authParameters, request.query.get? name = none) →
      c.strip? = some parts → parts.secretAccessKey ≠ "" → c'.strip? = some parts' → parts'.secretAccessKey ≠ "" →
      sign now 0 (.credentials c) request = .ok first → sign now' 0 (.credentials c') first = .ok again →
      sign now' 0 (.credentials c') request = .ok direct → ∀ name, again.query.get? name = direct.query.get? name := by
  intro hall
  let request : Request := RequestBuilder.build { host := "localhost" }
  let c := Credentials.ofTexts "first" "secret" (some "token") none
  let c' := Credentials.ofTexts "second" "secret" none none
  have hparts : c.strip? = some ⟨"first", "secret", some "token"⟩ := by decide +kernel
  have hparts' : c'.strip? = some ⟨"second", "secret", none⟩ := by decide +kernel
  have htime : signingTime? ⟨0, by decide⟩ 0 = some ⟨0, by decide⟩ := by decide +kernel
  have hsame := hall request _ _ _ c c' _ _ ⟨0, by decide⟩ ⟨0, by decide⟩ (by decide +kernel) hparts (by decide) hparts' (by decide)
    (sign_eq_ok rfl hparts (by decide) htime request) (sign_eq_ok rfl hparts' (by decide) htime _)
    (sign_eq_ok rfl hparts' (by decide) htime request) tokenParameter
  have hrequest : request.query.get? tokenParameter = none := rfl
  rw [get?_signed_token, get?_signed_token, get?_signed_token, hrequest] at hsame
  revert hsame
  decide

end QuerySigner

end SignedCall
