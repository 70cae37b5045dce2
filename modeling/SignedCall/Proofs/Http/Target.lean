import SignedCall.Proofs.Http.RoundTrip

/-!
# Where the URL of a request leads

The path of a request may be any text: it may begin anywhere, hold a query, a fragment or user information, or characters that are
passed over. Its URL is read as one for the same scheme, host and port all the same, as long as these are written as they are read
(`Request.ofUrl_url_target`).
-/

namespace SignedCall

/-- A request for a scheme, a host and a port as they are read from URLs, whatever its path and its parameters. -/
structure Request.Addressed (r : Request) : Prop where
  scheme : Url.IsScheme r.scheme.toList
  host : Url.IsHost r.host.toList
  port : ∃ port : Option Nat, r.port = port.map Int.ofNat ∧ ∀ p ∈ port, p ≤ 65535

/-- A request that is like one built from a URL is addressed. -/
theorem Request.UrlShaped.addressed {r : Request} (h : r.UrlShaped) : r.Addressed := ⟨h.scheme, h.host, h.port⟩

namespace Url

/-- What is passed over in a text is passed over in the parts of it. -/
theorem clean_append {s : String} {front rest : List Char} (hs : s.toList = front ++ rest) (hfront : Clean front)
    (hfirst : ∃ c front', front = c :: front' ∧ 0x20 < c.toNat) :
    clean s = front ++ rest.filter fun c => c != '\t' && c != '\r' && c != '\n' := by
  obtain ⟨c, front', rfl, hc⟩ := hfirst
  unfold clean
  rw [hs, List.cons_append, List.dropWhile_cons_of_neg (by simpa using hc), ← List.cons_append, List.filter_append,
    List.filter_eq_self.2 hfront]

/-- The authority of a URL is found, whatever follows the slash after it. -/
theorem split_of_authority {s : String} {scheme authority rest : List Char} (hscheme : IsScheme scheme)
    (hauthority : ∀ c ∈ authority, endsAuthority c = false) (hclean : Clean authority)
    (hs : s.toList = scheme ++ ':' :: '/' :: '/' :: (authority ++ '/' :: rest)) :
    ∃ rest', split s = (checkAuthority authority).map fun _ => ofPieces scheme authority rest' := by
  obtain ⟨c, scheme', hstart, hletter⟩ := hscheme.start
  have hsplit : s.toList = (scheme ++ (':' :: '/' :: '/' :: authority)) ++ '/' :: rest := by simp [hs]
  have hmarks : Clean [':', '/', '/'] := by simp [Clean]
  have hcleaned : clean s =
      scheme ++ ':' :: '/' :: '/' :: (authority ++ ('/' :: rest).filter fun c => c != '\t' && c != '\r' && c != '\n') := by
    rw [clean_append hsplit (hscheme.clean.append (hmarks.append hclean))
      ⟨c, scheme' ++ ':' :: '/' :: '/' :: authority, by rw [hstart, List.cons_append], isLetter_gt_blank hletter⟩]
    simp
  have hend : EndsAuthority (('/' :: rest).filter fun c => c != '\t' && c != '\r' && c != '\n') := by
    rintro d hd
    obtain rfl := Option.some.inj hd
    rfl
  refine ⟨('/' :: rest).filter fun c => c != '\t' && c != '\r' && c != '\n', ?_⟩
  rw [split_eq, hcleaned, splitScheme_append hscheme]
  simp only
  rw [splitAuthority_append hauthority hend]

end Url

namespace Request

variable {r : Request}

/-- An addressed request has a scheme. -/
theorem Addressed.scheme_ne_empty (h : r.Addressed) : r.scheme ≠ "" := by
  intro hempty
  obtain ⟨c, rest, hstart, -⟩ := h.scheme.start
  rw [hempty] at hstart
  cases hstart

/-- An addressed request has an authority. -/
theorem Addressed.authority_ne_empty (h : r.Addressed) : r.authority ≠ "" := by
  obtain ⟨port, hport, -⟩ := h.port
  intro hempty
  have hchars := toList_authority hport
  rw [hempty] at hchars
  exact Url.authorityChars_ne_nil h.host.nonempty port hchars.symm

/-- A slash follows the authority in the URL of a request. -/
theorem toList_url (h : r.Addressed) :
    ∃ rest, r.url.toList = r.scheme.toList ++ ':' :: '/' :: '/' :: (r.authority.toList ++ '/' :: rest) := by
  have hscheme := h.scheme_ne_empty
  have hauthority := h.authority_ne_empty
  unfold url Url.join
  cases hpath : r.path.toList with
  | nil => exact absurd (String.toList_eq_nil_iff.1 hpath) r.path_ne_empty
  | cons c cs =>
    by_cases hslash : c = '/'
    · subst hslash
      exact ⟨_, by simp [hscheme, hauthority, r.path_ne_empty, hpath]; rfl⟩
    · exact ⟨_, by simp [hscheme, hauthority, r.path_ne_empty, hpath, hslash]; rfl⟩

/-- The URL of a request whose host is writable is read as one for the same scheme, host and port. -/
theorem ofUrl_url_target (h : r.Addressed) (hw : Url.Writable r.host.toList) (method : String) :
    ∃ b, RequestBuilder.ofUrl r.url method = .ok b ∧ b.scheme = r.scheme ∧ b.host = r.host ∧ b.port = r.port := by
  obtain ⟨port, hport, hle⟩ := h.port
  have hauthority : r.authority.toList = Url.authorityChars r.host.toList port := toList_authority hport
  obtain ⟨rest, hurl⟩ := toList_url h
  have hplain : ∀ c ∈ r.authority.toList, Url.endsAuthority c = false ∧ (c != '\t' && c != '\r' && c != '\n') = true := by
    rw [hauthority]
    exact fun c hc => Url.plain_of_mem_authorityChars h.host hc
  obtain ⟨rest', hsplit⟩ := Url.split_of_authority h.scheme (fun c hc => (hplain c hc).1) (fun c hc => (hplain c hc).2) hurl
  have hread := Url.hostAndPort_authorityChars h.host hw port
  rw [hauthority, Url.checkAuthority_of_writable h.host hw] at hsplit
  generalize hparts : Url.ofPieces r.scheme.toList (Url.authorityChars r.host.toList port) rest' = parts at hsplit
  have hscheme : parts.scheme = r.scheme := by rw [← hparts, Url.ofPieces, String.ofList_toList]
  have hchars : parts.authority.toList = Url.authorityChars r.host.toList port := by rw [← hparts, Url.ofPieces, String.toList_ofList]
  have hhost : parts.host = r.host := by
    rw [← String.toList_inj, Url.toList_host, hchars, hread, h.host.folded]
  have hport' : parts.port = .ok port := Url.port_of_digits hle (by rw [hchars, hread])
  have hne : r.host ≠ "" := fun hempty => h.host.nonempty (by rw [hempty]; rfl)
  refine ⟨RequestBuilder.ofParts parts port method, ?_, ?_, hhost, hport.symm⟩
  · rw [RequestBuilder.ofUrl_eq, hsplit, Except.map, Except.bind, hhost, if_neg hne, hport', Except.map]
  · rw [RequestBuilder.ofParts, hscheme]
    exact if_neg h.scheme_ne_empty

end Request

end SignedCall
