import SignedCall.Proofs.Http.RoundTrip
import SignedCall.Signing.Canonical

/-!
# What the canonical form stands for

The canonical form of a request built from a URL falls into its lines again (`canonical_eq_iff`), and the line of the endpoint into
host and port, if it is known whether there is a port (`endpoint_eq_iff`). So it binds the target of the request (`binds_target`), but
for what it leaves out: letter case behind the first percent sign of a host, and the brackets around a host that holds colons.
-/

namespace SignedCall

namespace Url

/-- The lower-case form of a host that was folded already differs from it only behind the first percent sign. -/
theorem lower_of_folded {host : List Char} (h : foldHost host = host) :
    Text.lowerFrom [] host = (Text.cutAt '%' host).1 ++
      Text.lowerFrom (Text.cutAt '%' host).1.reverse (((Text.cutAt '%' host).2.map ('%' :: ·)).getD []) := by
  have hname : (Text.cutAt '%' host).1 = Text.lowerFrom [] (Text.cutAt '%' host).1 := by
    have hcut := cutAt_foldHost host
    rw [h] at hcut
    exact congrArg Prod.fst hcut
  have hsettled : ∀ c ∈ (Text.cutAt '%' host).1, Text.Settled c := by
    rw [hname]
    exact fun c hc => Text.settled_of_mem_lowerFrom hc
  conv_lhs => rw [(Text.cutAt_spec '%' host).2]
  rw [Text.lowerFrom_append fun c hc => ⟨(hsettled c hc).1, (hsettled c hc).2.1⟩, List.append_nil]
  congr 1
  exact (List.map_congr_left fun c hc => (hsettled c hc).2.2).trans (List.map_id _)

/-- Lower-casing a folded host leaves alone what stands before the first percent sign. -/
theorem cutAt_lower {host : List Char} (h : foldHost host = host) :
    (Text.cutAt '%' (Text.lowerFrom [] host)).1 = (Text.cutAt '%' host).1 := by
  rw [lower_of_folded h, Text.cutAt_append_left (Text.not_mem_cutAt_fst '%' host)]
  cases (Text.cutAt '%' host).2 with
  | none => simp [Text.lowerFrom, Text.cutAt]
  | some zone =>
    have hmark : Text.lowerChar '%' = '%' := by decide +kernel
    simp [Text.lowerFrom, Text.cutAt, hmark]

/-- Two folded hosts with the same lower-case form are the same if one of them has no percent sign. -/
theorem eq_of_lower_eq {host host' : List Char} (h : foldHost host = host) (h' : foldHost host' = host')
    (hlower : Text.lowerFrom [] host = Text.lowerFrom [] host') (hzone : '%' ∉ host) : host = host' := by
  have hself : ∀ {cs : List Char}, foldHost cs = cs → '%' ∉ cs → Text.lowerFrom [] cs = cs := fun hfold hnone => by
    rw [foldHost, Text.cutAt_of_not_mem hnone] at hfold
    simpa using hfold
  have hmark : Text.Settled '%' := by unfold Text.Settled; decide +kernel
  have hzone' : '%' ∉ host' := by
    intro hmem
    have hlowered : '%' ∈ Text.lowerFrom [] host' := Text.mem_lowerFrom_of_settled hmark hmem
    rw [← hlower, hself h hzone] at hlowered
    exact hzone hlowered
  rw [← hself h hzone, hlower, hself h' hzone']

/-- A text followed by a port is known with its port, if it is known whether there is one. -/
theorem append_portChars_inj {cs cs' : List Char} {port port' : Option Nat} (hnone : port = none → port' ≠ none → ':' ∉ cs)
    (hnone' : port' = none → port ≠ none → ':' ∉ cs') (h : cs ++ portChars port = cs' ++ portChars port') :
    cs = cs' ∧ port = port' := by
  have hdigits (n : Nat) : ':' ∉ Nat.toDigits 10 n := fun hmem => absurd (Text.isAsciiDigit_of_mem_toDigits hmem) (by decide)
  cases port with
  | none =>
    cases port' with
    | none => simpa [portChars] using h
    | some n' =>
      rw [portChars, portChars, List.append_nil] at h
      exact absurd (h ▸ List.mem_append_right _ List.mem_cons_self) (hnone rfl (by simp))
  | some n =>
    cases port' with
    | none =>
      rw [portChars, portChars, List.append_nil] at h
      exact absurd (h ▸ List.mem_append_right _ List.mem_cons_self) (hnone' rfl (by simp))
    | some n' =>
      -- The last colon is the one in front of the port.
      have hcut := congrArg (Text.cutAtLast ':') h
      rw [portChars, portChars, Text.cutAtLast_append (hdigits n), Text.cutAtLast_append (hdigits n'), Prod.mk.injEq,
        Option.some.injEq] at hcut
      exact ⟨hcut.1, by rw [← Text.natOfDigits_toDigits n, hcut.2, Text.natOfDigits_toDigits]⟩

end Url

namespace Request

/-- The port of a request unless it is the one of the scheme. -/
def otherPort? (r : Request) : Option Int := if r.usesOtherPort then r.port else none

variable {r r' : Request}

/-- The canonical form is made of scheme, host, port, path and the pairs of parameters in any order. -/
theorem SameTarget.canonical_eq (hsame : r.SameTarget r') (hquery : r'.query.pairs.Perm r.query.pairs) : r'.canonical = r.canonical := by
  have hother : r'.usesOtherPort = r.usesOtherPort := by
    unfold usesOtherPort
    rw [hsame.port, hsame.scheme]
  have hendpoint : r'.endpoint = r.endpoint := by
    unfold endpoint
    rw [hsame.host, hsame.port, hother]
  rw [canonical, hendpoint, hsame.path, (Query.canonical_eq_iff _ _).2 hquery, canonical]

/-- The line of the endpoint is the host in lower case, and the port unless it is that of the scheme. -/
theorem toList_endpoint (h : r.UrlShaped) : ∃ port : Option Nat, r.otherPort? = port.map Int.ofNat ∧
    r.endpoint.toList = Text.lowerFrom [] r.host.toList ++ Url.portChars port := by
  obtain ⟨port, hport, -⟩ := h.port
  unfold otherPort? endpoint Text.lower
  by_cases hother : r.usesOtherPort = true
  · refine ⟨port, by rw [if_pos hother, hport], ?_⟩
    rw [hport]
    cases port with
    | none => simp [Url.portChars]
    | some n =>
      simp only [Option.map_some, hother, if_true, String.toList_append, String.toList_ofList, Text.toList_toString_ofNat]
      rfl
  · refine ⟨none, by rw [if_neg hother]; rfl, ?_⟩
    rw [hport]
    cases port <;> simp [hother, Url.portChars]

/-- Whether the port of neither request can be taken for a part of the host of the other: where only one of them has a port, the
host of the other one has no colon. -/
def PortsApart (r r' : Request) : Prop :=
  (r.otherPort? = none → r'.otherPort? ≠ none → ':' ∉ r.host.toList) ∧
    (r'.otherPort? = none → r.otherPort? ≠ none → ':' ∉ r'.host.toList)

/-- Endpoints are the same if hosts and ports are, where it is known whether there is a port. -/
theorem endpoint_eq_iff (h : r.UrlShaped) (h' : r'.UrlShaped) (hports : PortsApart r r') :
    r.endpoint = r'.endpoint ↔ Text.lower r.host = Text.lower r'.host ∧ r.otherPort? = r'.otherPort? := by
  obtain ⟨port, hport, hendpoint⟩ := toList_endpoint h
  obtain ⟨port', hport', hendpoint'⟩ := toList_endpoint h'
  have hcolon {cs : List Char} : ':' ∉ cs → ':' ∉ Text.lowerFrom [] cs := fun hnot hmem =>
    hnot (Text.mem_of_mem_lowerFrom (Url.isSolitary_of_isMark (by decide)) hmem)
  unfold Text.lower
  rw [← String.toList_inj, hendpoint, hendpoint', String.ofList_inj, hport, hport']
  constructor
  · intro heq
    have hnone (hp : port = none) (hp' : port' ≠ none) :=
      hcolon (hports.1 (by rw [hport, hp]; rfl) (by rw [hport']; simpa using hp'))
    have hnone' (hp' : port' = none) (hp : port ≠ none) :=
      hcolon (hports.2 (by rw [hport', hp']; rfl) (by rw [hport]; simpa using hp))
    obtain ⟨hhost, hp⟩ := Url.append_portChars_inj hnone hnone' heq
    exact ⟨hhost, by rw [hp]⟩
  · rintro ⟨hhost, hp⟩
    rw [hhost, Option.map_injective (fun _ _ => Int.ofNat.inj) hp]

/-! ## The lines of the canonical form -/

/-- The canonical form has four lines. -/
theorem toList_canonical (r : Request) : r.canonical.toList =
    ['\n'].intercalate [signedMethod.toList, r.endpoint.toList, r.path.toList, r.query.canonical.toList] := by
  rw [canonical, String.toList_intercalate]
  rfl

/-- No line of the canonical form of a request built from a URL holds a line end. -/
theorem not_mem_line (h : r.UrlShaped) :
    ∀ line ∈ [signedMethod.toList, r.endpoint.toList, r.path.toList, r.query.canonical.toList], '\n' ∉ line := by
  have hclean {cs : List Char} (hc : Url.Clean cs) : '\n' ∉ cs := fun hmem => absurd (hc _ hmem) (by decide)
  obtain ⟨port, -, hendpoint⟩ := toList_endpoint h
  simp only [List.forall_mem_cons, List.not_mem_nil, false_imp_iff, implies_true, and_true]
  refine ⟨by decide, ?_, hclean h.path.2.2, Query.not_mem_canonical (by decide) (by decide) _⟩
  rw [hendpoint, List.mem_append, not_or]
  exact ⟨fun hmem => hclean h.host.clean (Text.mem_of_mem_lowerFrom (Url.isSolitary_of_isMark (by decide)) hmem),
    Url.not_mem_portChars (by decide) (by decide) port⟩

/-- Two requests built from URLs have the same canonical form exactly if they have the same endpoint, path and pairs of parameters. -/
theorem canonical_eq_iff (h : r.UrlShaped) (h' : r'.UrlShaped) :
    r.canonical = r'.canonical ↔ r.endpoint = r'.endpoint ∧ r.path = r'.path ∧ r.query.pairs.Perm r'.query.pairs := by
  rw [← Query.canonical_eq_iff]
  constructor
  · intro heq
    have hlines := congrArg (fun s : String => Text.splitOnChar '\n' s.toList) heq
    simp only [toList_canonical] at hlines
    rw [Text.splitOnChar_intercalate (by simp) (not_mem_line h), Text.splitOnChar_intercalate (by simp) (not_mem_line h')] at hlines
    simpa [String.toList_inj] using hlines
  · rintro ⟨hendpoint, hpath, hquery⟩
    rw [canonical, hendpoint, hpath, hquery, canonical]

/-- What the canonical form binds of a request built from a URL, its parameters edited in any way: the path, the pairs of parameters,
and, where no port can be taken for a part of a host, the port unless it is the one of the scheme, and the host but for letter case
behind its first percent sign. -/
theorem binds_target {url url' method method' : String} {b b' : RequestBuilder} (h : RequestBuilder.ofUrl url method = .ok b)
    (h' : RequestBuilder.ofUrl url' method' = .ok b') (edits edits' : List ParameterEdit) :
    let r := (b.editAll edits).build
    let r' := (b'.editAll edits').build
    r.canonical = r'.canonical →
      r.path = r'.path ∧ r.query.pairs.Perm r'.query.pairs ∧
      (PortsApart r r' → r.otherPort? = r'.otherPort? ∧ Text.lower r.host = Text.lower r'.host ∧
        (Text.cutAt '%' r.host.toList).1 = (Text.cutAt '%' r'.host.toList).1 ∧ ('%' ∉ r.host.toList → r.host = r'.host)) := by
  intro r r' heq
  have hshaped : r.UrlShaped := urlShaped_of_ofUrl h edits
  have hshaped' : r'.UrlShaped := urlShaped_of_ofUrl h' edits'
  obtain ⟨hendpoint, hpath, hquery⟩ := (canonical_eq_iff hshaped hshaped').1 heq
  refine ⟨hpath, hquery, fun hports => ?_⟩
  obtain ⟨hhost, hport⟩ := (endpoint_eq_iff hshaped hshaped' hports).1 hendpoint
  have hlower : Text.lowerFrom [] r.host.toList = Text.lowerFrom [] r'.host.toList := String.ofList_injective hhost
  refine ⟨hport, hhost, ?_, fun hzone => ?_⟩
  · rw [← Url.cutAt_lower hshaped.host.folded, hlower, Url.cutAt_lower hshaped'.host.folded]
  · exact String.toList_injective (Url.eq_of_lower_eq hshaped.host.folded hshaped'.host.folded hlower hzone)

/-- The letter case of a host, a port that is the one of the scheme and the order of parameters have no part in the target. -/
theorem binds_target_defaultPort :
    let b : RequestBuilder := { host := "example.com", port := some 443, path := "/p"
                                query := ⟨[("b", ["2"]), ("a", ["1"])], by decide⟩ }
    let b' : RequestBuilder := { host := "example.com", path := "/p", query := ⟨[("a", ["1"]), ("b", ["2"])], by decide⟩ }
    RequestBuilder.ofUrl "https://Example.com:443/p?b=2&a=1" "GET" = .ok b ∧
      RequestBuilder.ofUrl "https://example.com/p?a=1&b=2" "GET" = .ok b' ∧ b.build.canonical = b'.build.canonical ∧
      b.build.otherPort? = b'.build.otherPort? ∧ b.build.host = b'.build.host := by
  intro b b'
  have h : RequestBuilder.ofUrl "https://Example.com:443/p?b=2&a=1" "GET" = .ok b := by decide +kernel
  have h' : RequestBuilder.ofUrl "https://example.com/p?a=1&b=2" "GET" = .ok b' := by decide +kernel
  have hcanonical : b.build.canonical = b'.build.canonical :=
    (canonical_eq_iff (urlShaped_of_ofUrl h []) (urlShaped_of_ofUrl h' [])).2 ⟨by decide +kernel, rfl, by decide +kernel⟩
  obtain ⟨-, -, hports⟩ := binds_target h h' [] [] hcanonical
  obtain ⟨hport, -, -, hhost⟩ := hports ⟨fun _ _ => by decide +kernel, fun _ _ => by decide +kernel⟩
  exact ⟨h, h', hcanonical, hport, hhost (by decide +kernel)⟩

/-- The zones of an address in groups are told apart by letter case in a host, but not in the canonical form. -/
theorem binds_target_always_false : ¬∀ (url url' : String) (b b' : RequestBuilder), RequestBuilder.ofUrl url "GET" = .ok b →
    RequestBuilder.ofUrl url' "GET" = .ok b' → b.build.canonical = b'.build.canonical →
      b.build.host = b'.build.host ∧ b.build.otherPort? = b'.build.otherPort? ∧ b.build.path = b'.build.path ∧
        b.build.query.pairs.Perm b'.build.query.pairs := by
  intro hall
  let b : RequestBuilder := { host := "fe80::1%25ETH0", scheme := "http" }
  let b' : RequestBuilder := { host := "fe80::1%25eth0", scheme := "http" }
  have h : RequestBuilder.ofUrl "http://[fe80::1%25ETH0]/" "GET" = .ok b := by decide +kernel
  have h' : RequestBuilder.ofUrl "http://[fe80::1%25eth0]/" "GET" = .ok b' := by decide +kernel
  have hcanonical : b.build.canonical = b'.build.canonical :=
    (canonical_eq_iff (urlShaped_of_ofUrl h []) (urlShaped_of_ofUrl h' [])).2 ⟨by decide +kernel, rfl, by decide +kernel⟩
  exact absurd (hall _ _ _ _ h h' hcanonical).1 (by decide +kernel)

end Request

end SignedCall
