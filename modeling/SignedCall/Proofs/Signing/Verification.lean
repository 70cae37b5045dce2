import SignedCall.Proofs.Signing.Canonical
import SignedCall.Signing.QuerySigner

/-!
# Signatures that can be verified

Who receives a signed request takes its signature out and signs what is left. That is what was signed (`canonical_unsigned_signed`),
because the signature is put in after the canonical form was made; and it still is when the request is read back from its own URL
(`Verifies.valued`), because the canonical form is made of the pairs of parameters alone. Together they make every signature one that
can be verified (`signature_verifies`).
-/

namespace SignedCall

namespace Request

variable {r r' : Request}

/-- The signature of a request with a secret. -/
def signature (r : Request) (secret : String) : String :=
  Base64.text (Digest.hmac QuerySigner.algorithm (Text.Utf8.encode secret) (Text.Utf8.encode r.canonical))

/-- A request with its signature taken out. -/
def unsigned (r : Request) : Request := (r.toBuilder.removeParameter QuerySigner.signatureParameter).build

/-- Whether a request carries one signature, and it is the one of the rest of the request. -/
def Verifies (r : Request) (secret : String) : Prop :=
  r.query.get? QuerySigner.signatureParameter = some [r.unsigned.signature secret]

/-- Taking out a signature that was put into a request without one leaves what was signed. -/
theorem canonical_unsigned_signed {b : RequestBuilder} (h : b.query.first? QuerySigner.signatureParameter = none)
    (values : List String) : (b.setParameter QuerySigner.signatureParameter values).build.unsigned.canonical = b.build.canonical := by
  have hpairs : Query.pairs ((b.query.insert QuerySigner.signatureParameter values).erase QuerySigner.signatureParameter) =
      b.query.pairs := by
    rw [FieldMap.erase_insert, Query.pairs_erase, List.filter_eq_self]
    simpa using Query.ne_of_mem_pairs h
  have hsame : b.build.SameTarget (b.setParameter QuerySigner.signatureParameter values).build.unsigned :=
    ⟨rfl, rfl, rfl, if_neg (pathOrRoot_ne_empty _)⟩
  exact hsame.canonical_eq (List.Perm.of_eq hpairs)

/-- A signature that can be verified still can where names without values are left out. -/
theorem Verifies.valued {secret : String} (h : r.Verifies secret) (hsame : r.SameTarget r') (hquery : r'.query = r.query.valued) :
    r'.Verifies secret := by
  have hsame' : r.unsigned.SameTarget r'.unsigned := ⟨hsame.scheme, hsame.host, hsame.port, congrArg pathOrRoot hsame.path⟩
  have hunsigned : r'.unsigned.canonical = r.unsigned.canonical := by
    refine hsame'.canonical_eq (List.Perm.of_eq ?_)
    show Query.pairs (r'.query.erase QuerySigner.signatureParameter) = Query.pairs (r.query.erase QuerySigner.signatureParameter)
    rw [Query.pairs_erase, Query.pairs_erase, hquery, Query.pairs_valued]
  unfold Verifies signature at *
  rw [hunsigned, hquery]
  exact Query.get?_valued h (by simp)

end Request

namespace QuerySigner

variable {request : Request} {parts : Credentials.Stripped} {time : Instant}

/-- The signer sets parameters and leaves everything else as it is. -/
theorem prepare_eq (request : Request) (parts : Credentials.Stripped) (time : Instant) :
    prepare request parts time = { request.toBuilder with query := (prepare request parts time).query } := by
  unfold prepare
  cases parts.sessionToken with
  | none => rfl
  | some token => by_cases htoken : token = "" <;> simp [htoken] <;> rfl

/-- Setting another parameter leaves the signature alone. -/
theorem get?_setParameter {name : String} (h : signatureParameter ≠ name) (b : RequestBuilder) (values : List String) :
    (b.setParameter name values).query.get? signatureParameter = b.query.get? signatureParameter := by
  rw [RequestBuilder.setParameter, FieldMap.get?_insert, if_neg h]

/-- It does not touch the signature before it has made the canonical form. -/
theorem get?_prepare (request : Request) (parts : Credentials.Stripped) (time : Instant) :
    (prepare request parts time).query.get? signatureParameter = request.query.get? signatureParameter := by
  have hkey : signatureParameter ≠ keyParameter := by decide
  have hversion : signatureParameter ≠ versionParameter := by decide
  have htime : signatureParameter ≠ timeParameter := by decide
  have htoken : signatureParameter ≠ tokenParameter := by decide
  have hmethod : signatureParameter ≠ methodParameter := by decide
  unfold prepare
  rcases parts.sessionToken with - | token
  · simp only [get?_setParameter hmethod, get?_setParameter htime, get?_setParameter hversion, get?_setParameter hkey]
    rfl
  · by_cases hempty : token = ""
    · simp only [if_pos hempty, get?_setParameter hmethod, get?_setParameter htime, get?_setParameter hversion,
        get?_setParameter hkey]
      rfl
    · simp only [if_neg hempty, get?_setParameter hmethod, get?_setParameter htoken, get?_setParameter htime,
        get?_setParameter hversion, get?_setParameter hkey]
      rfl

/-- The request that is signed, with its signature. -/
def signed (request : Request) (parts : Credentials.Stripped) (time : Instant) : Request :=
  ((prepare request parts time).setParameter signatureParameter
    [(prepare request parts time).build.signature parts.secretAccessKey]).build

/-- Signing fails for an empty secret only. -/
theorem signAt_eq (request : Request) (parts : Credentials.Stripped) (time : Instant) : signAt request parts time =
    if parts.secretAccessKey = "" then .error (.emptyKey algorithm) else .ok (signed request parts time) := by
  simp only [signAt, Signing.keyedHashText, Signing.keyedHash, Signing.secretBytes]
  split_ifs <;> rfl

/-- Credentials with a key are signed with if their parts are texts and the time is in the calendar. -/
theorem sign_credentials {c : Credentials} (hkey : c.accessKeyId.isNull = false) (now : Instant) (offset : Int) (request : Request) :
    sign now offset (.credentials c) request =
      match c.strip?, signingTime? now offset with
      | none, _ => .error .keyNotText
      | _, none => .error .timeOutOfRange
      | some parts, some time =>
        if parts.secretAccessKey = "" then .error (.unusableKey (.emptyKey algorithm)) else .ok (signed request parts time) := by
  rw [sign, if_neg (by simp [Identity.isAnonymous, hkey])]
  simp only [signAt_eq]
  rcases c.strip? with - | parts
  · rfl
  · rcases signingTime? now offset with - | time
    · rfl
    · dsimp only
      split_ifs <;> rfl

/-- Signing succeeds with a secret, if it is known what to sign with and when. -/
theorem sign_eq_ok {c : Credentials} (hkey : c.accessKeyId.isNull = false) (hparts : c.strip? = some parts)
    (hsecret : parts.secretAccessKey ≠ "") {now : Instant} {offset : Int} (htime : signingTime? now offset = some time)
    (request : Request) : sign now offset (.credentials c) request = .ok (signed request parts time) := by
  rw [sign_credentials hkey, hparts, htime]
  exact if_neg hsecret

/-- The secret that signs is the one of the credentials without the blanks around it. -/
theorem secretAccessKey_of_strip? {c : Credentials} {secret : String} (h : c.strip? = some parts)
    (hsecret : c.secretAccessKey = .text secret) : parts.secretAccessKey = Text.strip secret := by
  unfold Credentials.strip? at h
  rw [hsecret] at h
  split at h <;> cases h <;> simp_all

/-- What signing gives for credentials of two texts is signed with the stripped secret. -/
theorem eq_signed_of_sign {c : Credentials} {key secret : String} {now : Instant} {offset : Int} {s : Request}
    (hkey : c.accessKeyId = .text key) (hsecret : c.secretAccessKey = .text secret)
    (h : sign now offset (.credentials c) request = .ok s) :
    ∃ parts time, parts.secretAccessKey = Text.strip secret ∧ s = signed request parts time := by
  rw [sign_credentials (by rw [hkey]; rfl)] at h
  split at h
  next => cases h
  next => cases h
  next parts time hparts _ =>
    split_ifs at h
    exact ⟨parts, time, secretAccessKey_of_strip? hparts hsecret, (Except.ok.inj h).symm⟩

/-- A signed request has the target of the request that was signed. -/
theorem sameTarget_signed (request : Request) (parts : Credentials.Stripped) (time : Instant) :
    request.SameTarget (signed request parts time) := by
  have hprepare := prepare_eq request parts time
  refine { scheme := ?_, host := ?_, port := ?_, path := ?_ }
  · exact congrArg RequestBuilder.scheme hprepare
  · exact congrArg RequestBuilder.host hprepare
  · exact congrArg RequestBuilder.port hprepare
  · exact (congrArg (fun b : RequestBuilder => pathOrRoot b.path) hprepare).trans (if_neg request.path_ne_empty)

/-- A signed request verifies if there was no signature before. -/
theorem verifies_signed (h : request.parameter? signatureParameter = none) (parts : Credentials.Stripped) (time : Instant) :
    (signed request parts time).Verifies parts.secretAccessKey := by
  have hfirst : (prepare request parts time).query.first? signatureParameter = none := by
    rw [Query.first?, get?_prepare]
    exact h
  unfold Request.Verifies Request.signature signed
  rw [Request.canonical_unsigned_signed hfirst]
  exact (FieldMap.get?_insert ..).trans (if_pos rfl)

/-- Every signature verifies with the stripped secret, for a request that had none before. If the request was built from a URL, with
its parameters edited in any way, the signed request is read back from its own URL exactly if its host is writable, and still verifies
then. A host read from a URL without an opening bracket in its user information is writable, unless it holds an opening bracket and no
colon. -/
theorem signature_verifies {c : Credentials} {key secret : String} {now : Instant} {offset : Int} {s : Request}
    (hkey : c.accessKeyId = .text key) (hsecret : c.secretAccessKey = .text secret)
    (hnone : request.parameter? signatureParameter = none) (hsign : sign now offset (.credentials c) request = .ok s) :
    s.Verifies (Text.strip secret) ∧
    ∀ (url method method' : String) (b : RequestBuilder) (edits : List ParameterEdit),
      RequestBuilder.ofUrl url method = .ok b → request = (b.editAll edits).build →
        (Url.Writable s.host.toList → ∃ b', RequestBuilder.ofUrl s.url method' = .ok b' ∧ b'.build.Verifies (Text.strip secret)) ∧
        (¬Url.Writable s.host.toList → ∃ fault, RequestBuilder.ofUrl s.url method' = .error fault) ∧
        ∃ parts, Url.split url = .ok parts ∧ (Url.PlainInfo parts.authority.toList →
          (Url.Writable s.host.toList ↔ ':' ∈ s.host.toList ∨ '[' ∉ s.host.toList)) := by
  obtain ⟨parts, time, hstripped, rfl⟩ := eq_signed_of_sign hkey hsecret hsign
  have hsame := sameTarget_signed request parts time
  have hverifies := verifies_signed hnone parts time
  rw [hstripped] at hverifies
  refine ⟨hverifies, fun url method method' b edits hb hrequest => ?_⟩
  have hshaped : (signed request parts time).UrlShaped := hsame.urlShaped (hrequest ▸ Request.urlShaped_of_ofUrl hb edits)
  refine ⟨fun hw => ?_, fun hw => Request.ofUrl_url_error hshaped hw method', ?_⟩
  · exact ⟨_, Request.ofUrl_url hshaped hw method', hverifies.valued ⟨rfl, rfl, rfl, if_neg (Request.path_ne_empty _)⟩ rfl⟩
  · have hbuilder : request.host = b.host := by
      rw [hrequest, b.editAll_eq edits]
      rfl
    rw [hsame.host, hbuilder]
    exact Request.writable_of_ofUrl hb

/-- The signature of a request to an address in groups verifies, also when it is read back. -/
theorem signature_verifies_groups :
    let b : RequestBuilder := { host := "fd00:ec2::254", scheme := "http", query := ⟨[("a", [""]), ("é", ["&="])], by decide⟩ }
    ∃ s b', sign ⟨0, by decide⟩ 0 (.credentials (Credentials.ofTexts " key" "secret " none none)) b.build = .ok s ∧
      s.Verifies "secret" ∧ RequestBuilder.ofUrl s.url "GET" = .ok b' ∧ b'.build.Verifies "secret" := by
  intro b
  have hb : RequestBuilder.ofUrl "http://[FD00:EC2::254]?a=&%C3%A9=%26%3D" "GET" = .ok b := by decide +kernel
  have hsign : sign ⟨0, by decide⟩ 0 (.credentials (Credentials.ofTexts " key" "secret " none none)) b.build =
      .ok (signed b.build ⟨"key", "secret", none⟩ ⟨0, by decide⟩) :=
    sign_eq_ok rfl (by decide +kernel) (by decide) (by decide +kernel) b.build
  have hstrip : Text.strip "secret " = "secret" := by decide +kernel
  obtain ⟨hverifies, hread⟩ := signature_verifies rfl rfl (by decide +kernel) hsign
  have hwritable : Url.Writable (signed b.build ⟨"key", "secret", none⟩ ⟨0, by decide⟩).host.toList := by
    rw [(sameTarget_signed _ _ _).host]
    decide +kernel
  obtain ⟨b', hb', hverifies'⟩ := (hread _ _ "GET" b [] hb rfl).1 hwritable
  rw [hstrip] at hverifies hverifies'
  exact ⟨_, b', hsign, hverifies, hb', hverifies'⟩

/-- A request to an address of a future kind with an opening bracket and no colon does not arrive. -/
theorem signature_verifies_always_false : ¬∀ (url : String) (b : RequestBuilder) (edits : List ParameterEdit) (c : Credentials)
    (key secret : String) (now : Instant) (offset : Int) (s : Request),
    RequestBuilder.ofUrl url "GET" = .ok b → (b.editAll edits).build.parameter? signatureParameter = none →
      c.accessKeyId = .text key → c.secretAccessKey = .text secret → Text.strip secret ≠ "" →
      sign now offset (.credentials c) (b.editAll edits).build = .ok s →
        s.Verifies (Text.strip secret) ∧ ∃ b', RequestBuilder.ofUrl s.url "GET" = .ok b' ∧ b'.build.Verifies (Text.strip secret) := by
  intro hall
  let b : RequestBuilder := { host := "v1.[x", scheme := "http" }
  have hb : RequestBuilder.ofUrl "http://[v1.[x]/" "GET" = .ok b := by decide +kernel
  have hsign : sign ⟨0, by decide⟩ 0 (.credentials (Credentials.ofTexts " key" "secret " none none)) b.build =
      .ok (signed b.build ⟨"key", "secret", none⟩ ⟨0, by decide⟩) :=
    sign_eq_ok rfl (by decide +kernel) (by decide) (by decide +kernel) b.build
  obtain ⟨-, b', hb', -⟩ := hall _ b [] _ " key" "secret " _ _ _ hb (by decide +kernel) rfl rfl (by decide +kernel) hsign
  have hsame := sameTarget_signed b.build ⟨"key", "secret", none⟩ ⟨0, by decide⟩
  have hshaped := hsame.urlShaped (Request.urlShaped_of_ofUrl hb [])
  obtain ⟨fault, hfault⟩ := Request.ofUrl_url_error hshaped (by rw [hsame.host]; decide +kernel) "GET"
  rw [hfault] at hb'
  cases hb'

end QuerySigner

end SignedCall
