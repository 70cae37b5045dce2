import SignedCall.Proofs.Http.Authority
import SignedCall.Proofs.Http.Query

/-!
# Requests and their URLs

A request that was built from a URL, whatever has become of its parameters since (`UrlShaped`), is read back from its own URL
(`ofUrl_url`), with two reservations: names without values are not written, and a host that is not `Writable` makes a URL that is
refused (`ofUrl_url_error`). `read_back` says so for any URL and any changes to the parameters.
-/

namespace SignedCall

/-! ## Editing parameters -/

/-- One change to the parameters of a request in the making. -/
inductive ParameterEdit where
  | add (name value : String)
  | set (name : String) (values : List String)
  | remove (name : String)
  deriving DecidableEq, Repr

namespace RequestBuilder

/-- A builder after one change to its parameters. -/
def edit (b : RequestBuilder) : ParameterEdit → RequestBuilder
  | .add name value => b.addParameter name value
  | .set name values => b.setParameter name values
  | .remove name => b.removeParameter name

/-- A builder after changes to its parameters, one after the other. -/
def editAll (b : RequestBuilder) (edits : List ParameterEdit) : RequestBuilder := edits.foldl edit b

/-- Changes to the parameters leave everything else as it is. -/
theorem editAll_eq (b : RequestBuilder) (edits : List ParameterEdit) :
    b.editAll edits = { b with query := (b.editAll edits).query } := by
  unfold editAll
  induction edits generalizing b with
  | nil => rfl
  | cons e edits ih =>
    have hedit : b.edit e = { b with query := (b.edit e).query } := by cases e <;> rfl
    rw [List.foldl_cons, ih (b.edit e)]
    rw [hedit]

end RequestBuilder

/-! ## Requests built from URLs -/

/-- What a request built from a URL is like, apart from its parameters. -/
structure Request.UrlShaped (r : Request) : Prop where
  scheme : Url.IsScheme r.scheme.toList
  host : Url.IsHost r.host.toList
  port : ∃ port : Option Nat, r.port = port.map Int.ofNat ∧ ∀ p ∈ port, p ≤ 65535
  pathStart : r.path.toList.head? = some '/'
  path : '?' ∉ r.path.toList ∧ '#' ∉ r.path.toList ∧ Url.Clean r.path.toList

namespace RequestBuilder

/-- A builder for the parts of a URL that has a host. -/
def ofParts (parts : Url) (port : Option Nat) (method : String) : RequestBuilder where
  host := parts.host
  method := method
  scheme := if parts.scheme = "" then "https" else parts.scheme
  port := port.map Int.ofNat
  path := pathOrRoot parts.path
  query := Query.read parts.query

/-- A request is built from the parts of a URL that has a host, and a port that can be read. -/
theorem ofUrl_eq (url method : String) : ofUrl url method =
    (Url.split url).bind fun parts =>
      if parts.host = "" then .error (.noHost url) else parts.port.map fun port => ofParts parts port method := by
  unfold ofUrl
  cases Url.split url with
  | error fault => rfl
  | ok parts =>
    simp only [bind, Except.bind, pure, Except.pure, throw, throwThe, MonadExceptOf.throw]
    by_cases hhost : parts.host = ""
    · rw [if_pos hhost, if_pos hhost]
    · rw [if_neg hhost, if_neg hhost]
      cases parts.port <;> rfl

/-- A builder for a URL is one for its parts, which have a host. -/
theorem of_ofUrl {url method : String} {b : RequestBuilder} (h : ofUrl url method = .ok b) :
    ∃ parts port, Url.split url = .ok parts ∧ parts.host ≠ "" ∧ parts.port = .ok port ∧ b = ofParts parts port method := by
  rw [ofUrl_eq] at h
  cases hsplit : Url.split url with
  | error fault =>
    rw [hsplit] at h
    nomatch h
  | ok parts =>
    rw [hsplit, Except.bind] at h
    by_cases hhost : parts.host = ""
    · rw [if_pos hhost] at h
      nomatch h
    · rw [if_neg hhost] at h
      cases hport : parts.port with
      | error fault =>
        rw [hport] at h
        nomatch h
      | ok port =>
        rw [hport, Except.map] at h
        exact ⟨parts, port, rfl, hhost, hport, (Except.ok.inj h).symm⟩

end RequestBuilder

namespace Request

/-- What two requests have in common that go to the same place, whatever their parameters, methods, header fields and bodies. -/
structure SameTarget (r r' : Request) : Prop where
  scheme : r'.scheme = r.scheme
  host : r'.host = r.host
  port : r'.port = r.port
  path : r'.path = r.path

/-- A request to the same place is like one built from a URL, too. -/
theorem SameTarget.urlShaped {r r' : Request} (hsame : r.SameTarget r') (h : r.UrlShaped) : r'.UrlShaped where
  scheme := hsame.scheme ▸ h.scheme
  host := hsame.host ▸ h.host
  port := hsame.port ▸ h.port
  pathStart := hsame.path ▸ h.pathStart
  path := hsame.path ▸ h.path

/-- A path begins with a slash once the root stands in for the empty one. -/
theorem head?_pathOrRoot {path : String} (h : ∀ c ∈ path.toList.head?, c = '/') : (pathOrRoot path).toList.head? = some '/' := by
  unfold pathOrRoot
  split_ifs with hempty
  · rfl
  · cases hpath : path.toList with
    | nil => exact absurd (String.toList_eq_nil_iff.1 hpath) hempty
    | cons c cs => rw [List.head?_cons, h c (by rw [hpath]; rfl)]

/-- The characters of a path are its own, and the slash of the root. -/
theorem mem_pathOrRoot {path : String} {c : Char} (h : c ∈ (pathOrRoot path).toList) : c = '/' ∨ c ∈ path.toList := by
  unfold pathOrRoot at h
  split_ifs at h
  · exact .inl (by simpa using h)
  · exact .inr h

/-- A request built from a URL, with whatever parameters, is of the shape of one. -/
theorem urlShaped_of_ofUrl {url method : String} {b : RequestBuilder} (h : RequestBuilder.ofUrl url method = .ok b)
    (edits : List ParameterEdit) : (b.editAll edits).build.UrlShaped := by
  obtain ⟨parts, port, hsplit, hhost, hport, rfl⟩ := RequestBuilder.of_ofUrl h
  rw [RequestBuilder.editAll_eq]
  obtain ⟨htidy, -⟩ := Url.tidy_of_split hsplit
  have hauthority : parts.authority ≠ "" := Url.authority_ne_of_host_ne hhost
  refine { scheme := ?_, host := Url.isHost_of_split hsplit hhost, port := ⟨port, rfl, Url.port_le hport⟩, pathStart := ?_
           path := ?_ }
  · show Url.IsScheme (if parts.scheme = "" then "https" else parts.scheme).toList
    split_ifs with hscheme
    · have hall : ("https".toList.all fun c => Url.isSchemeChar c && Text.lowerChar c == c) = true := by decide +kernel
      exact ⟨⟨'h', _, rfl, by decide⟩, fun c hc => by simpa using List.all_eq_true.1 hall c hc⟩
    · exact htidy.scheme.resolve_left hscheme
  · show (pathOrRoot (pathOrRoot parts.path)).toList.head? = some '/'
    exact head?_pathOrRoot fun c hc => Option.some.inj (hc.symm.trans (head?_pathOrRoot (htidy.pathStart hauthority)))
  · show '?' ∉ (pathOrRoot (pathOrRoot parts.path)).toList ∧ '#' ∉ (pathOrRoot (pathOrRoot parts.path)).toList ∧
      Url.Clean (pathOrRoot (pathOrRoot parts.path)).toList
    have hmem {c : Char} (hc : c ∈ (pathOrRoot (pathOrRoot parts.path)).toList) : c = '/' ∨ c ∈ parts.path.toList := by
      rcases mem_pathOrRoot hc with hc | hc
      · exact .inl hc
      · exact mem_pathOrRoot hc
    refine ⟨fun hc => ?_, fun hc => ?_, fun c hc => ?_⟩
    · exact htidy.path.1 ((hmem hc).resolve_left (by decide))
    · exact htidy.path.2 ((hmem hc).resolve_left (by decide))
    · rcases hmem hc with rfl | hc
      · decide
      · exact htidy.clean.2.1 c hc

/-! ## Reading the URL of a request -/

/-- The parts that the URL of a request is put together from. -/
def urlParts (r : Request) : Url where
  scheme := r.scheme
  authority := r.authority
  path := r.path
  query := r.query.encode
  fragment := ""

variable {r : Request}

/-- A request built from a URL has a scheme. -/
theorem UrlShaped.scheme_ne_empty (h : r.UrlShaped) : r.scheme ≠ "" := by
  intro hempty
  obtain ⟨c, rest, hstart, -⟩ := h.scheme.start
  rw [hempty] at hstart
  cases hstart

/-- The authority of a request is what is written for its host and its port. -/
theorem toList_authority {port : Option Nat} (h : r.port = port.map Int.ofNat) :
    r.authority.toList = Url.authorityChars r.host.toList port := by
  unfold authority Url.authorityChars
  rw [h]
  cases port with
  | none =>
    simp only [Option.map_none, Url.portChars, List.append_nil, List.contains_eq_mem, decide_eq_true_eq]
    split_ifs <;> simp
  | some p =>
    simp only [Option.map_some, Url.portChars, List.contains_eq_mem, decide_eq_true_eq]
    split_ifs <;> simp only [String.toList_append, Text.toList_toString_ofNat] <;> simp

/-- The text of a query has none of the characters that are passed over. -/
theorem clean_encode (q : Query) : Url.Clean q.encode.toList := by
  intro c hc
  by_contra hdropped
  simp only [Bool.and_eq_true, bne_iff_ne, ne_eq, not_and_or, not_not] at hdropped
  rcases hdropped with (rfl | rfl) | rfl <;> exact Query.not_mem_encode (by decide) (by decide) q hc

/-- No part of the URL of a request holds what begins the next one. -/
theorem tidy_urlParts (h : r.UrlShaped) : r.urlParts.Tidy := by
  obtain ⟨port, hport, -⟩ := h.port
  have hauthority : r.urlParts.authority.toList = Url.authorityChars r.host.toList port := toList_authority hport
  refine { scheme := .inr h.scheme, authority := ?_, pathStart := ?_, path := ⟨h.path.1, h.path.2.1⟩, query := ?_, clean := ?_ }
  · rw [hauthority]
    exact fun c hc => (Url.plain_of_mem_authorityChars h.host hc).1
  · intro _ c hc
    exact Option.some.inj (hc.symm.trans h.pathStart)
  · exact Query.not_mem_encode (by decide) (by decide) r.query
  · rw [hauthority]
    exact ⟨fun c hc => (Url.plain_of_mem_authorityChars h.host hc).2, h.path.2.2, clean_encode r.query⟩

/-- The URL of a request is split into the parts that it was put together from, or refused for its authority. -/
theorem split_url (h : r.UrlShaped) : Url.split r.url = (Url.checkAuthority r.authority.toList).map fun _ => r.urlParts := by
  obtain ⟨port, hport, -⟩ := h.port
  refine Url.split_join (tidy_urlParts h) h.scheme_ne_empty ?_ r.path_ne_empty rfl
  intro hempty
  have hchars := toList_authority hport
  rw [show r.authority = "" from hempty] at hchars
  exact Url.authorityChars_ne_nil h.host.nonempty port hchars.symm

/-- A request of the shape of one built from a URL is read back from its own URL if its host is writable. -/
theorem ofUrl_url (h : r.UrlShaped) (hw : Url.Writable r.host.toList) (method : String) :
    RequestBuilder.ofUrl r.url method = .ok
      { host := r.host, method := method, scheme := r.scheme, port := r.port, path := r.path, query := r.query.valued } := by
  obtain ⟨port, hport, hle⟩ := h.port
  have hauthority : r.urlParts.authority.toList = Url.authorityChars r.host.toList port := toList_authority hport
  have hread := Url.hostAndPort_authorityChars h.host hw port
  have hhost : r.urlParts.host = r.host := by
    rw [← String.toList_inj, Url.toList_host, hauthority, hread, h.host.folded]
  have hport' : r.urlParts.port = .ok port := Url.port_of_digits hle (by rw [hauthority, hread])
  have hne : r.host ≠ "" := fun hempty => h.host.nonempty (by rw [hempty]; rfl)
  have hparts : RequestBuilder.ofParts r.urlParts port method =
      { host := r.host, method := method, scheme := r.scheme, port := r.port, path := r.path, query := r.query.valued } := by
    rw [RequestBuilder.ofParts, hhost, ← hport]
    simp [urlParts, h.scheme_ne_empty, pathOrRoot, r.path_ne_empty, Query.read_encode]
  rw [RequestBuilder.ofUrl_eq, split_url h, toList_authority hport, Url.checkAuthority_of_writable h.host hw, Except.map, Except.bind,
    hhost, if_neg hne, hport', Except.map, hparts]

/-- It is refused otherwise. -/
theorem ofUrl_url_error (h : r.UrlShaped) (hw : ¬Url.Writable r.host.toList) (method : String) :
    ∃ fault, RequestBuilder.ofUrl r.url method = .error fault := by
  obtain ⟨port, hport, -⟩ := h.port
  obtain ⟨fault, hfault⟩ := Url.checkAuthority_of_not_writable h.host hw port
  exact ⟨fault, by rw [RequestBuilder.ofUrl_eq, split_url h, toList_authority hport, hfault]; rfl⟩

/-- A host read from a URL without an opening bracket in its user information is writable, unless it holds an opening bracket and no
colon. -/
theorem writable_of_ofUrl {url method : String} {b : RequestBuilder} (h : RequestBuilder.ofUrl url method = .ok b) :
    ∃ parts, Url.split url = .ok parts ∧ (Url.PlainInfo parts.authority.toList →
      (Url.Writable b.host.toList ↔ ':' ∈ b.host.toList ∨ '[' ∉ b.host.toList)) := by
  obtain ⟨parts, port, hsplit, -, -, rfl⟩ := RequestBuilder.of_ofUrl h
  refine ⟨parts, hsplit, fun hinfo => ?_⟩
  have hcheck := (Url.checkAuthority_eq_ok.1 (Url.tidy_of_split hsplit).2).1
  show Url.Writable parts.host.toList ↔ ':' ∈ parts.host.toList ∨ '[' ∉ parts.host.toList
  rw [Url.toList_host]
  exact Url.writable_of_checkBrackets hcheck hinfo

/-- A request built from a URL, its parameters edited in any way, is read back from its own URL exactly if its host is writable: with
the same scheme, host, port and path, and with the same parameters but for the names without values, in the same order. A host read
from a URL without an opening bracket in its user information is writable, unless it holds an opening bracket and no colon. -/
theorem read_back {url method : String} {b : RequestBuilder} (h : RequestBuilder.ofUrl url method = .ok b)
    (edits : List ParameterEdit) (method' : String) :
    let r := (b.editAll edits).build
    (Url.Writable r.host.toList → ∃ b', RequestBuilder.ofUrl r.url method' = .ok b' ∧ b'.build.scheme = r.scheme ∧
      b'.build.host = r.host ∧ b'.build.port = r.port ∧ b'.build.path = r.path ∧ b'.build.query = r.query.valued) ∧
    (¬Url.Writable r.host.toList → ∃ fault, RequestBuilder.ofUrl r.url method' = .error fault) ∧
    ∃ parts, Url.split url = .ok parts ∧ (Url.PlainInfo parts.authority.toList →
      (Url.Writable r.host.toList ↔ ':' ∈ r.host.toList ∨ '[' ∉ r.host.toList)) := by
  intro r
  have hshaped : r.UrlShaped := urlShaped_of_ofUrl h edits
  have hhost : r.host = b.host := by
    show (b.editAll edits).host = b.host
    rw [b.editAll_eq edits]
  refine ⟨fun hw => ?_, fun hw => ofUrl_url_error hshaped hw method', hhost ▸ writable_of_ofUrl h⟩
  refine ⟨_, ofUrl_url hshaped hw method', rfl, rfl, rfl, ?_, rfl⟩
  exact if_neg r.path_ne_empty

/-- The parameters of an address in groups are edited, and it is read back from its URL. -/
theorem read_back_groups :
    let b : RequestBuilder := { host := "fd00:ec2::254", scheme := "http", port := some 80, path := "/p",
                                query := ⟨[("a", ["", "2"]), ("b", ["1"])], by decide⟩ }
    let r := (b.editAll [.add "é" "&=", .set "a" [], .remove "c"]).build
    RequestBuilder.ofUrl "HTTP://user@[FD00:EC2::254]:80/p?a=&b=1&a=2#end" "GET" = .ok b ∧
      ∃ b', RequestBuilder.ofUrl r.url "GET" = .ok b' ∧ b'.build.host = "fd00:ec2::254" ∧
        b'.build.query.entries = [("b", ["1"]), ("é", ["&="])] := by
  intro b r
  have h : RequestBuilder.ofUrl "HTTP://user@[FD00:EC2::254]:80/p?a=&b=1&a=2#end" "GET" = .ok b := by decide +kernel
  obtain ⟨b', hb', -, hhost, -, -, hquery⟩ := (read_back h [.add "é" "&=", .set "a" [], .remove "c"] "GET").1 (by decide +kernel)
  exact ⟨h, b', hb', hhost, by rw [hquery]; decide +kernel⟩

/-- An address of a future kind may hold an opening bracket and no colon. Its request is written without brackets around the host,
and its URL is refused. -/
theorem read_back_always_false : ¬∀ (url method : String) (b : RequestBuilder) (edits : List ParameterEdit),
    RequestBuilder.ofUrl url method = .ok b → ∃ b', RequestBuilder.ofUrl (b.editAll edits).build.url "GET" = .ok b' ∧
      b'.build.scheme = (b.editAll edits).build.scheme ∧ b'.build.host = (b.editAll edits).build.host ∧
      b'.build.port = (b.editAll edits).build.port ∧ b'.build.path = (b.editAll edits).build.path ∧
      b'.build.query = (b.editAll edits).build.query.valued := by
  intro hall
  have h : RequestBuilder.ofUrl "http://[v1.[x]/" "GET" = .ok { host := "v1.[x", scheme := "http" } := by decide +kernel
  obtain ⟨b', hb', -⟩ := hall _ _ _ [] h
  obtain ⟨fault, hfault⟩ := ofUrl_url_error (urlShaped_of_ofUrl h []) (by decide +kernel) "GET"
  rw [hfault] at hb'
  cases hb'

end Request

end SignedCall
