import SignedCall.Credentials.Container
import SignedCall.Proofs.Http.Target

/-!
# Hosts that may be asked

Which hosts a container's metadata may be asked of (`Trusted`), and what the environment must name for a request to be made at all
(`Refuses`). A host that may be asked is read from URLs as it is written (`writable_of_trusted`), so the URL of a request that the
environment names leads to no other host, whatever the path (`ofUrl_of_requestOf`).
-/

namespace SignedCall.Container

/-- A host that may be asked: an address of the machine itself, or one of a few others. -/
def Trusted (host : String) : Prop := (∃ a, Address.ofText? host = some a ∧ a.isLoopback = true) ∨ host ∈ allowedHosts

/-- An environment that names no path, and whose URL, if it has one, cannot be read or names a host that may not be asked. -/
def Refuses (environment : FieldMap String) : Prop :=
  environment.get? pathVariable = none ∧
    ∀ url, environment.get? urlVariable = some url → ∀ b, RequestBuilder.ofUrl url "GET" = .ok b → ¬Trusted b.host

/-- The check of a host lets exactly those through that may be asked. -/
theorem isAllowed_iff (host : String) : isAllowed host = true ↔ Trusted host := by
  unfold isAllowed Trusted isLoopback
  rw [Bool.or_eq_true, List.contains_eq_mem, decide_eq_true_eq]
  cases Address.ofText? host with
  | none => simp
  | some a => simp

/-- A host of nothing but digits and points can be written. -/
theorem writable_of_digits {host : List Char} (h : ∀ c ∈ host, Text.isAsciiDigit c = true ∨ c = '.') : Url.Writable host := by
  have hnot : ∀ d, Text.isAsciiDigit d = false → d ≠ '.' → d ∉ host := by
    intro d hd hdot hmem
    rcases h d hmem with hdigit | rfl
    · exact absurd (hd.symm.trans hdigit) nofun
    · exact hdot rfl
  unfold Url.Writable
  rw [if_neg (hnot ':' (by decide) (by decide))]
  exact ⟨hnot '[' (by decide) (by decide), hnot ']' (by decide) (by decide)⟩

/-- A host that is an address is written as it is read. -/
theorem writable_of_address {host : List Char} {a : Address} (hhost : Url.IsHost host) (h : Address.ofChars? host = some a) :
    Url.Writable host := by
  cases a with
  | v4 n =>
    have hquad : Address.quad? host = some n := by
      unfold Address.ofChars? at h
      split_ifs at h
      split at h
      · next m hm =>
        obtain rfl := Address.v4.inj (Option.some.inj h)
        exact hm
      · obtain ⟨cs, -, hgroups⟩ := Option.bind_eq_some_iff.1 h
        obtain ⟨m, -, hm⟩ := Option.map_eq_some_iff.1 hgroups
        cases hm
    exact writable_of_digits (Address.digits_of_quad? hquad)
  | v6 n =>
    obtain ⟨hfold, hfirst⟩ := Url.ofChars?_foldHost h
    rw [hhost.folded] at hfold hfirst
    obtain ⟨-, -, -, hgroups⟩ := Url.ofChars?_eq_v6.1 h
    have hcolon : ':' ∈ host := Text.mem_of_mem_cutAt_fst (Address.colon_mem_of_groupsValue? hgroups)
    unfold Url.Writable
    rw [if_pos hcolon, Url.checkBracketed, if_neg (by simpa using hfirst), hfold]

/-- A host that may be asked can be written in a URL. -/
theorem writable_of_trusted {host : String} (hhost : Url.IsHost host.toList) (h : Trusted host) : Url.Writable host.toList := by
  rcases h with ⟨a, ha, -⟩ | h
  · exact writable_of_address hhost ha
  · have hall : allowedHosts.all (fun host => decide (Url.Writable host.toList)) = true := by decide +kernel
    simpa using List.all_eq_true.1 hall host h

/-! ## The request that the environment names -/

/-- The environment names a path on the default host, or a URL. -/
theorem requestOf_cases {environment : FieldMap String} {b : RequestBuilder} (h : requestOf environment = .ok b) :
    (∃ path, environment.get? pathVariable = some path ∧ b = { scheme := "http", host := defaultHost, path }) ∨
      environment.get? pathVariable = none ∧ ∃ url, environment.get? urlVariable = some url ∧ RequestBuilder.ofUrl url "GET" = .ok b := by
  unfold requestOf at h
  split at h
  · next path hpath => exact .inl ⟨path, hpath, (Except.ok.inj h).symm⟩
  · next url hpath hurl =>
    refine .inr ⟨hpath, url, hurl, ?_⟩
    cases hread : RequestBuilder.ofUrl url "GET" with
    | error fault =>
      rw [hread] at h
      cases h
    | ok b' =>
      rw [hread] at h
      exact congrArg _ (Except.ok.inj h)
  · cases h

/-- An environment that refuses names no request to a host that may be asked. -/
theorem Refuses.not_trusted {environment : FieldMap String} (hrefuses : Refuses environment) {b : RequestBuilder}
    (h : requestOf environment = .ok b) : ¬Trusted b.host := by
  rcases requestOf_cases h with ⟨path, hpath, -⟩ | ⟨-, url, hurl, hread⟩
  · rw [hrefuses.1] at hpath
    cases hpath
  · exact hrefuses.2 url hurl b hread

/-- Two requests for the same scheme, host and port. -/
structure SameAuthority (r r' : Request) : Prop where
  scheme : r'.scheme = r.scheme
  host : r'.host = r.host
  port : r'.port = r.port

/-- Whether a request is addressed depends on its scheme, host and port alone. -/
theorem SameAuthority.addressed {r r' : Request} (hsame : SameAuthority r r') (h : r.Addressed) : r'.Addressed :=
  ⟨hsame.scheme ▸ h.scheme, hsame.host ▸ h.host, hsame.port ▸ h.port⟩

/-- The request that the environment names is for a scheme, a host and a port as they are read from URLs. -/
theorem addressed_of_requestOf {environment : FieldMap String} {b : RequestBuilder} (h : requestOf environment = .ok b) :
    b.build.Addressed := by
  rcases requestOf_cases h with ⟨path, -, rfl⟩ | ⟨-, url, -, hread⟩
  · have hroot : RequestBuilder.ofUrl "http://169.254.170.2" "GET" = .ok { scheme := "http", host := defaultHost } := by
      decide +kernel
    have hsame : SameAuthority (RequestBuilder.build { scheme := "http", host := defaultHost })
        (RequestBuilder.build { scheme := "http", host := defaultHost, path }) := ⟨rfl, rfl, rfl⟩
    exact hsame.addressed (Request.urlShaped_of_ofUrl hroot []).addressed
  · exact (Request.urlShaped_of_ofUrl hread []).addressed

/-- The URL of a request to where the environment leads names the host of the request, if it may be asked. -/
theorem ofUrl_of_requestOf {environment : FieldMap String} {b : RequestBuilder} (h : requestOf environment = .ok b)
    (htrusted : Trusted b.host) {r : Request} (hsame : SameAuthority b.build r) (method : String) :
    ∃ b', RequestBuilder.ofUrl r.url method = .ok b' ∧ b'.host = r.host := by
  have hr : r.Addressed := hsame.addressed (addressed_of_requestOf h)
  have hhost : r.host = b.host := hsame.host
  obtain ⟨b', hread, -, hhost', -⟩ := Request.ofUrl_url_target hr (writable_of_trusted hr.host (hhost ▸ htrusted)) method
  exact ⟨b', hread, hhost'⟩

end SignedCall.Container
