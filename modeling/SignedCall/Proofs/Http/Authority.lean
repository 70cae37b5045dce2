import SignedCall.Http.Request
import SignedCall.Proofs.Http.Address
import SignedCall.Proofs.Http.Url
import SignedCall.Proofs.Text.Digit

/-!
# Hosts and ports, written and read

What a host that was read from a URL may hold (`isHost_of_split`), and what becomes of an authority that is written for a host and a
port: it is read as the same host and port (`hostAndPort_authorityChars`) and passes the checks of a URL just if the host is
`Writable` (`checkAuthority_of_writable`, `checkAuthority_of_not_writable`). A host that was read from an authority without an opening
bracket in its user information is writable but in one case (`writable_of_checkBrackets`).
-/

namespace SignedCall.Url

/-! ## Folding the case of a host -/

/-- A host in lower case, but for what follows the first percent sign. -/
def foldHost (cs : List Char) : List Char :=
  Text.lowerFrom [] (Text.cutAt '%' cs).1 ++ ((Text.cutAt '%' cs).2.map ('%' :: ·)).getD []

/-- The host of a URL is that of its authority, its case folded. -/
theorem toList_host (u : Url) : u.host.toList = foldHost (hostAndPort u.authority.toList).1 := by
  unfold host foldHost
  cases Text.cutAt '%' (hostAndPort u.authority.toList).1 with
  | mk name zone => cases zone <;> simp

/-- The characters that would change how a URL is read, apart from those that are passed over and those that hide a delimiter. -/
def isMark (c : Char) : Bool := ['/', '?', '#', '@', '[', ']', ':', '%', '\t', '\r', '\n'].contains c

/-- No mark is a lower-case form of another character. -/
theorem isSolitary_of_isMark {c : Char} (h : isMark c = true) : Text.isSolitary c = true := by
  simp only [isMark, List.contains_eq_mem, decide_eq_true_eq] at h
  exact List.all_eq_true.1 (show List.all _ Text.isSolitary = true by decide +kernel) c h

/-- Nor is a character that hides a delimiter. -/
theorem isSolitary_of_hidesDelimiter {c : Char} (h : hidesDelimiter c = true) : Text.isSolitary c = true := by
  simp only [hidesDelimiter, List.contains_eq_mem, decide_eq_true_eq] at h
  have hs : Text.isSolitary (Char.ofNat c.toNat) = true :=
    List.all_eq_true.1 (show List.all _ (fun n => Text.isSolitary (Char.ofNat n)) = true by decide +kernel) c.toNat h
  rwa [Char.ofNat_toNat] at hs

/-- A character that is no lower-case form of another stands in a folded host only where it stood before. -/
theorem mem_of_mem_foldHost {c : Char} (hc : Text.isSolitary c = true) {cs : List Char} (h : c ∈ foldHost cs) : c ∈ cs := by
  rw [(Text.cutAt_spec '%' cs).2]
  rcases List.mem_append.1 h with h | h
  · exact List.mem_append_left _ (Text.mem_of_mem_lowerFrom hc h)
  · exact List.mem_append_right _ h

/-- A percent sign of a folded host, and what follows it, is that of the host. -/
theorem cutAt_foldHost (cs : List Char) :
    Text.cutAt '%' (foldHost cs) = (Text.lowerFrom [] (Text.cutAt '%' cs).1, (Text.cutAt '%' cs).2) := by
  have hname : '%' ∉ Text.lowerFrom [] (Text.cutAt '%' cs).1 := fun h =>
    Text.not_mem_cutAt_fst '%' cs (Text.mem_of_mem_lowerFrom (isSolitary_of_isMark (by decide)) h)
  unfold foldHost
  cases (Text.cutAt '%' cs).2 with
  | none => rw [Option.map_none, Option.getD_none, List.append_nil, Text.cutAt_of_not_mem hname]
  | some zone => exact Text.cutAt_append hname zone

/-- Folding a host a second time changes nothing. -/
theorem foldHost_foldHost (cs : List Char) : foldHost (foldHost cs) = foldHost cs := by
  rw [foldHost, cutAt_foldHost, Text.lowerFrom_of_settled fun _ h => Text.settled_of_mem_lowerFrom h]
  rfl

/-! ## The host of an authority -/

/-- A host in brackets goes up to the closing one, and the port follows the next colon. -/
theorem hostAndPort_of_bracket {authority inner : List Char} (h : (Text.cutAt '[' (Text.cutAtLast '@' authority).2).2 = some inner) :
    hostAndPort authority = ((Text.cutAt ']' inner).1, (Text.cutAt ':' ((Text.cutAt ']' inner).2.getD [])).2.getD []) := by
  unfold hostAndPort
  cases hcut : Text.cutAt '[' (Text.cutAtLast '@' authority).2 with
  | mk before after =>
    rw [hcut] at h
    subst h
    simp only [hcut]

/-- A host without brackets goes up to the first colon, and the port follows it. -/
theorem hostAndPort_of_no_bracket {authority : List Char} (h : (Text.cutAt '[' (Text.cutAtLast '@' authority).2).2 = none) :
    hostAndPort authority =
      ((Text.cutAt ':' (Text.cutAtLast '@' authority).2).1, (Text.cutAt ':' (Text.cutAtLast '@' authority).2).2.getD []) := by
  unfold hostAndPort
  cases hcut : Text.cutAt '[' (Text.cutAtLast '@' authority).2 with
  | mk before after =>
    rw [hcut] at h
    subst h
    simp only [hcut]

/-- The host of an authority is a part of it without an at sign. It may have been taken out of brackets, and holds no closing bracket
then; otherwise it holds no opening bracket and no colon. -/
theorem host_of_authority (authority : List Char) :
    (∀ c ∈ (hostAndPort authority).1, c ∈ authority ∧ c ≠ '@') ∧
      (']' ∉ (hostAndPort authority).1 ∨ '[' ∉ (hostAndPort authority).1 ∧ ':' ∉ (hostAndPort authority).1) := by
  have hinfo : ∀ c ∈ (Text.cutAtLast '@' authority).2, c ∈ authority ∧ c ≠ '@' := fun c hc =>
    ⟨Text.mem_of_mem_cutAtLast_snd hc, by rintro rfl; exact Text.not_mem_cutAtLast_snd '@' authority hc⟩
  cases hcut : (Text.cutAt '[' (Text.cutAtLast '@' authority).2).2 with
  | some inner =>
    rw [hostAndPort_of_bracket hcut]
    exact ⟨fun c hc => hinfo c (Text.mem_of_mem_cutAt_snd hcut (Text.mem_of_mem_cutAt_fst hc)), .inl (Text.not_mem_cutAt_fst ']' inner)⟩
  | none =>
    rw [hostAndPort_of_no_bracket hcut]
    exact ⟨fun c hc => hinfo c (Text.mem_of_mem_cutAt_fst hc),
      .inr ⟨fun h => Text.not_mem_of_cutAt_snd hcut (Text.mem_of_mem_cutAt_fst h), Text.not_mem_cutAt_fst ':' _⟩⟩

/-- A URL with a host has an authority. -/
theorem authority_ne_of_host_ne {u : Url} (h : u.host ≠ "") : u.authority ≠ "" := by
  intro hempty
  apply h
  rw [← String.toList_inj, toList_host, hempty]
  rfl

/-- What a host that was read from a URL is like. -/
structure IsHost (host : List Char) : Prop where
  nonempty : host ≠ []
  folded : foldHost host = host
  chars : ∀ c ∈ host, endsAuthority c = false ∧ hidesDelimiter c = false ∧ c ≠ '@'
  brackets : ']' ∉ host ∨ '[' ∉ host ∧ ':' ∉ host
  clean : Clean host

theorem isMark_of_endsAuthority {c : Char} (h : endsAuthority c = true) : isMark c = true := by
  simp only [endsAuthority, Bool.or_eq_true, beq_iff_eq] at h
  rcases h with (rfl | rfl) | rfl <;> decide

/-- The two checks of an authority. -/
theorem checkAuthority_eq_ok {authority : List Char} :
    checkAuthority authority = .ok () ↔ checkBrackets authority = .ok () ∧ ∀ c ∈ authority, hidesDelimiter c = false := by
  unfold checkAuthority
  cases checkBrackets authority with
  | error fault => simp [Except.bind]
  | ok x => simp [Except.bind]

/-- The host of a URL that was split is like a host. -/
theorem isHost_of_split {s : String} {u : Url} (h : split s = .ok u) (hne : u.host ≠ "") : IsHost u.host.toList := by
  obtain ⟨htidy, hcheck⟩ := tidy_of_split h
  obtain ⟨hmem, hbrackets⟩ := host_of_authority u.authority.toList
  have hmark {c : Char} (hc : isMark c = true) : c ∈ u.host.toList → c ∈ (hostAndPort u.authority.toList).1 := by
    rw [toList_host]
    exact mem_of_mem_foldHost (isSolitary_of_isMark hc)
  refine { nonempty := ?_, folded := ?_, chars := ?_, brackets := ?_, clean := ?_ }
  · simpa using hne
  · rw [toList_host, foldHost_foldHost]
  · intro c hc
    refine ⟨?_, ?_, ?_⟩
    · by_contra hends
      rw [Bool.not_eq_false] at hends
      have hc := hmark (isMark_of_endsAuthority hends) hc
      rw [htidy.authority c (hmem c hc).1] at hends
      cases hends
    · by_contra hhides
      rw [Bool.not_eq_false] at hhides
      rw [toList_host] at hc
      have hc := mem_of_mem_foldHost (isSolitary_of_hidesDelimiter hhides) hc
      rw [(checkAuthority_eq_ok.1 hcheck).2 c (hmem c hc).1] at hhides
      cases hhides
    · rintro rfl
      exact (hmem '@' (hmark (by decide) hc)).2 rfl
  · rcases hbrackets with hclose | ⟨hopen, hcolon⟩
    · exact .inl fun hc => hclose (hmark (by decide) hc)
    · exact .inr ⟨fun hc => hopen (hmark (by decide) hc), fun hc => hcolon (hmark (by decide) hc)⟩
  · intro c hc
    by_contra hdropped
    have hc' : isMark c = true := by
      simp only [Bool.and_eq_true, bne_iff_ne, ne_eq, not_and_or, not_not] at hdropped
      rcases hdropped with (rfl | rfl) | rfl <;> decide
    exact hdropped (htidy.clean.1 c (hmem c (hmark hc' hc)).1)

/-! ## Writing an authority -/

/-- The port of an authority as it is written. -/
def portChars : Option Nat → List Char
  | some port => ':' :: Nat.toDigits 10 port
  | none => []

/-- The authority that is written for a host and a port. -/
def authorityChars (host : List Char) (port : Option Nat) : List Char :=
  (if ':' ∈ host then '[' :: host ++ [']'] else host) ++ portChars port

/-- Whether a host is read as it is written: with a colon, it has to be what may stand in brackets; without one, it must hold no
bracket. -/
def Writable (host : List Char) : Prop :=
  if ':' ∈ host then checkBracketed host = .ok () else '[' ∉ host ∧ ']' ∉ host

instance (host : List Char) : Decidable (Writable host) := by
  unfold Writable
  infer_instance

/-- A port is written in digits behind a colon. -/
theorem ne_of_mem_portChars {c d : Char} {port : Option Nat} (hd : Text.isAsciiDigit d = false) (hcolon : d ≠ ':')
    (h : c ∈ portChars port) : c ≠ d := by
  rintro rfl
  cases port with
  | none => cases h
  | some port =>
    rcases List.mem_cons.1 h with rfl | h
    · exact hcolon rfl
    · rw [Text.isAsciiDigit_of_mem_toDigits h] at hd
      cases hd

theorem not_mem_portChars {d : Char} (hd : Text.isAsciiDigit d = false) (hcolon : d ≠ ':') (port : Option Nat) : d ∉ portChars port :=
  fun h => ne_of_mem_portChars hd hcolon h rfl

/-- A port is read back from behind its colon. -/
theorem cutAt_portChars (port : Option Nat) :
    Text.cutAt ':' (portChars port) = ([], port.map (Nat.toDigits 10)) := by
  cases port with
  | none => rfl
  | some port => exact Text.cutAt_append List.not_mem_nil _

variable {host : List Char}

/-- A character of a written authority is one of the host, a mark around it, or a digit. -/
theorem mem_authorityChars {c : Char} {port : Option Nat} (h : c ∈ authorityChars host port) :
    c ∈ host ∨ c ∈ ['[', ']', ':'] ∨ Text.isAsciiDigit c = true := by
  rcases List.mem_append.1 h with h | h
  · split_ifs at h
    · simp only [List.cons_append, List.mem_cons, List.mem_append, List.not_mem_nil, or_false] at h
      rcases h with rfl | h | rfl
      · exact .inr (.inl (by decide))
      · exact .inl h
      · exact .inr (.inl (by decide))
    · exact .inl h
  · cases port with
    | none => cases h
    | some port =>
      rcases List.mem_cons.1 h with rfl | h
      · exact .inr (.inl (by decide))
      · exact .inr (.inr (Text.isAsciiDigit_of_mem_toDigits h))

/-- A digit ends no authority, is not passed over and hides no delimiter. -/
theorem plain_of_isAsciiDigit {c : Char} (h : Text.isAsciiDigit c = true) :
    endsAuthority c = false ∧ (c != '\t' && c != '\r' && c != '\n') = true ∧ hidesDelimiter c = false :=
  Text.forall_ascii (p := fun c => Text.isAsciiDigit c = true →
    endsAuthority c = false ∧ (c != '\t' && c != '\r' && c != '\n') = true ∧ hidesDelimiter c = false)
    (by decide +kernel) (Nat.lt_of_le_of_lt ((Text.between_iff '0' '9' c).1 h).2 (by decide)) h

/-- Nothing in a written authority ends it, and nothing of it is passed over. -/
theorem plain_of_mem_authorityChars (h : IsHost host) {c : Char} {port : Option Nat} (hc : c ∈ authorityChars host port) :
    endsAuthority c = false ∧ (c != '\t' && c != '\r' && c != '\n') = true := by
  rcases mem_authorityChars hc with hc | hc | hc
  · exact ⟨(h.chars c hc).1, h.clean c hc⟩
  · simp only [List.mem_cons, List.not_mem_nil, or_false] at hc
    rcases hc with rfl | rfl | rfl <;> decide
  · exact ⟨(plain_of_isAsciiDigit hc).1, (plain_of_isAsciiDigit hc).2.1⟩

theorem authorityChars_ne_nil (h : host ≠ []) (port : Option Nat) : authorityChars host port ≠ [] := by
  unfold authorityChars
  split_ifs <;> simp [h]

/-- An authority is read as the host and the port that it was written for. -/
theorem hostAndPort_authorityChars (h : IsHost host) (hw : Writable host) (port : Option Nat) :
    hostAndPort (authorityChars host port) = (host, (port.map (Nat.toDigits 10)).getD []) := by
  have hinfo : (Text.cutAtLast '@' (authorityChars host port)).2 = authorityChars host port := by
    rw [Text.cutAtLast_of_not_mem]
    intro hc
    rcases mem_authorityChars hc with hc | hc | hc
    · exact (h.chars '@' hc).2.2 rfl
    · exact absurd hc (by decide)
    · exact absurd hc (by decide)
  unfold Writable at hw
  by_cases hcolon : ':' ∈ host
  · have hclose : ']' ∉ host := h.brackets.resolve_right fun hb => hb.2 hcolon
    have hcut : (Text.cutAt '[' (Text.cutAtLast '@' (authorityChars host port)).2).2 = some (host ++ ']' :: portChars port) := by
      rw [hinfo, authorityChars, if_pos hcolon]
      simp [Text.cutAt]
    rw [hostAndPort_of_bracket hcut, Text.cutAt_append hclose, Option.getD_some, cutAt_portChars]
  · rw [if_neg hcolon] at hw
    have hcut : (Text.cutAt '[' (Text.cutAtLast '@' (authorityChars host port)).2).2 = none := by
      rw [hinfo, authorityChars, if_neg hcolon, Text.cutAt_of_not_mem]
      rw [List.mem_append, not_or]
      exact ⟨hw.1, not_mem_portChars (by decide) (by decide) port⟩
    rw [hostAndPort_of_no_bracket hcut, hinfo, authorityChars, if_neg hcolon]
    cases port with
    | none => rw [portChars, List.append_nil, Text.cutAt_of_not_mem hcolon]; rfl
    | some port => rw [portChars, Text.cutAt_append hcolon]; rfl

/-- Between the brackets of a written authority stands the host. -/
theorem checkBrackets_of_colon (h : IsHost host) (hcolon : ':' ∈ host) (port : Option Nat) :
    checkBrackets (authorityChars host port) = checkBracketed host := by
  have hclose : ']' ∉ host := h.brackets.resolve_right fun hb => hb.2 hcolon
  have hopened : authorityChars host port = '[' :: (host ++ ']' :: portChars port) := by simp [authorityChars, hcolon]
  have hinner : bracketed (authorityChars host port) = host := by
    rw [hopened, bracketed, Text.cutAt, if_pos rfl, Option.getD_some, Text.cutAt_append hclose]
  unfold checkBrackets
  rw [hinner, hopened]
  simp

/-- A written authority without brackets around the host has only the brackets of the host. -/
theorem bracket_mem_authorityChars {d : Char} (hd : d = '[' ∨ d = ']') (hcolon : ':' ∉ host) (port : Option Nat) :
    d ∈ authorityChars host port ↔ d ∈ host := by
  have hport : d ∉ portChars port := by
    rcases hd with rfl | rfl <;> exact not_mem_portChars (by decide) (by decide) port
  simp [authorityChars, hcolon, hport]

/-- Without a colon, a host that was read from a URL never holds both brackets, and may hold neither when it is written. -/
theorem checkBrackets_of_no_colon (h : IsHost host) (hcolon : ':' ∉ host) (port : Option Nat) :
    checkBrackets (authorityChars host port) = if '[' ∉ host ∧ ']' ∉ host then .ok () else .error .unmatchedBracket := by
  have hopen := bracket_mem_authorityChars (.inl rfl) hcolon port
  have hclose := bracket_mem_authorityChars (.inr rfl) hcolon port
  unfold checkBrackets
  by_cases hopened : '[' ∈ host <;> by_cases hclosed : ']' ∈ host
  · exact absurd h.brackets (by simp [hopened, hclosed])
  all_goals simp [hopen, hclose, hopened, hclosed]

/-- No character of the authority that is written for a host hides a delimiter. -/
theorem not_hidesDelimiter_authorityChars (h : IsHost host) (port : Option Nat) :
    ∀ c ∈ authorityChars host port, hidesDelimiter c = false := by
  intro c hc
  rcases mem_authorityChars hc with hc | hc | hc
  · exact (h.chars c hc).2.1
  · simp only [List.mem_cons, List.not_mem_nil, or_false] at hc
    rcases hc with rfl | rfl | rfl <;> decide
  · exact (plain_of_isAsciiDigit hc).2.2

/-- A written authority passes the checks if the host is writable. -/
theorem checkAuthority_of_writable (h : IsHost host) (hw : Writable host) (port : Option Nat) :
    checkAuthority (authorityChars host port) = .ok () := by
  have hbrackets : checkBrackets (authorityChars host port) = .ok () := by
    unfold Writable at hw
    by_cases hcolon : ':' ∈ host
    · rw [if_pos hcolon] at hw
      rw [checkBrackets_of_colon h hcolon, hw]
    · rw [if_neg hcolon] at hw
      rw [checkBrackets_of_no_colon h hcolon, if_pos hw]
  exact checkAuthority_eq_ok.2 ⟨hbrackets, not_hidesDelimiter_authorityChars h port⟩

/-- It does not pass them otherwise. -/
theorem checkAuthority_of_not_writable (h : IsHost host) (hw : ¬Writable host) (port : Option Nat) :
    ∃ fault, checkAuthority (authorityChars host port) = .error fault := by
  have hbrackets : ∃ fault, checkBrackets (authorityChars host port) = .error fault := by
    unfold Writable at hw
    by_cases hcolon : ':' ∈ host
    · rw [if_pos hcolon] at hw
      rw [checkBrackets_of_colon h hcolon]
      cases hcheck : checkBracketed host with
      | ok x => exact absurd hcheck hw
      | error fault => exact ⟨fault, rfl⟩
    · rw [if_neg hcolon] at hw
      exact ⟨.unmatchedBracket, by rw [checkBrackets_of_no_colon h hcolon, if_neg hw]⟩
  obtain ⟨fault, hfault⟩ := hbrackets
  exact ⟨fault, by rw [checkAuthority, hfault, Except.bind]⟩

/-! ## Hosts that stood in brackets -/

/-- An address of a future kind: a version in hexadecimal digits and an address. -/
theorem isFutureAddress_iff (host : List Char) : isFutureAddress host = true ↔
    ∃ version address, host = 'v' :: version ++ '.' :: address ∧ version ≠ [] ∧ (∀ c ∈ version, Address.isHex c = true) ∧
      address ≠ [] := by
  constructor
  · intro h
    unfold isFutureAddress at h
    split at h
    next rest =>
      cases hcut : Text.cutAt '.' rest with
      | mk version address =>
        rw [hcut] at h
        cases address with
        | none => cases h
        | some address =>
          simp only [Bool.and_eq_true, Bool.not_eq_true', List.isEmpty_eq_false_iff, List.all_eq_true] at h
          have hrest := Text.eq_append_of_cutAt_snd (congrArg Prod.snd hcut)
          rw [hcut] at hrest
          exact ⟨version, address, by rw [hrest]; rfl, h.1.1, h.1.2, h.2⟩
    next => cases h
  · rintro ⟨version, address, rfl, hne, hhex, haddress⟩
    have hdot : '.' ∉ version := fun hmem => absurd (hhex _ hmem) (by decide)
    rw [List.cons_append, isFutureAddress, Text.cutAt_append hdot]
    simpa [hne, haddress, Address.isHex] using hhex

/-- What stands in front of the percent sign is folded on its own. -/
theorem foldHost_append {front rest : List Char} (h : ∀ c ∈ front, c ≠ 'Σ' ∧ c ≠ 'İ' ∧ c ≠ '%') (hne : rest ≠ []) :
    ∃ folded, folded ≠ [] ∧ foldHost (front ++ rest) = front.map Text.lowerChar ++ folded := by
  refine ⟨Text.lowerFrom (front.reverse ++ []) (Text.cutAt '%' rest).1 ++ ((Text.cutAt '%' rest).2.map ('%' :: ·)).getD [], ?_, ?_⟩
  · intro hempty
    obtain ⟨hname, hzone⟩ := List.append_eq_nil_iff.1 hempty
    apply hne
    rw [(Text.cutAt_spec '%' rest).2, Text.lowerFrom_eq_nil hname, hzone]
    rfl
  · rw [foldHost, Text.cutAt_append_left fun hmem => (h _ hmem).2.2 rfl,
      Text.lowerFrom_append fun c hc => ⟨(h c hc).1, (h c hc).2.1⟩, List.append_assoc]

/-- An address of a kind that is still to come is one with its case folded. -/
theorem isFutureAddress_foldHost {host : List Char} (h : isFutureAddress host = true) : isFutureAddress (foldHost host) = true := by
  obtain ⟨version, address, rfl, hne, hhex, haddress⟩ := (isFutureAddress_iff host).1 h
  have hplain : ∀ c ∈ 'v' :: version ++ ['.'], c ≠ 'Σ' ∧ c ≠ 'İ' ∧ c ≠ '%' := by
    intro c hc
    simp only [List.cons_append, List.mem_cons, List.mem_append, List.not_mem_nil, or_false] at hc
    rcases hc with rfl | hc | rfl
    · decide
    · have hc := hhex c hc
      refine ⟨?_, ?_, ?_⟩ <;> (rintro rfl; exact absurd hc (by decide))
    · decide
  obtain ⟨folded, hfolded, hfold⟩ := foldHost_append hplain haddress
  rw [List.append_assoc] at hfold
  rw [isFutureAddress_iff, show 'v' :: version ++ '.' :: address = 'v' :: version ++ (['.'] ++ address) from rfl, hfold]
  refine ⟨version.map Text.lowerChar, folded, ?_, by simpa using hne, ?_, hfolded⟩
  · simp [show Text.lowerChar 'v' = 'v' from rfl, show Text.lowerChar '.' = '.' from rfl]
  · intro c hc
    obtain ⟨digit, hdigit, rfl⟩ := List.mem_map.1 hc
    rw [Address.isHex, Address.hexValue?_lowerChar (hhex digit hdigit)]
    exact hhex digit hdigit

/-- What a text with an address in groups is made of: the address and the zone, which is not empty, if there is one. -/
theorem ofChars?_eq_v6 {host : List Char} {n : Nat} : Address.ofChars? host = some (.v6 n) ↔
    '/' ∉ host ∧ Address.quad? host = none ∧ (∀ zone ∈ (Text.cutAt '%' host).2, zone ≠ [] ∧ '%' ∉ zone) ∧
      Address.groupsValue? (Text.cutAt '%' host).1 = some n := by
  unfold Address.ofChars? Address.dropZone?
  by_cases hslash : '/' ∈ host
  · simp [hslash]
  · cases Address.quad? host with
    | some m => simp [hslash]
    | none =>
      rcases Text.cutAt '%' host with ⟨address, - | zone⟩
      · simp [hslash]
      · by_cases hzone : zone = [] ∨ '%' ∈ zone
        · have hnot : ¬(zone ≠ [] ∧ '%' ∉ zone) := fun h => hzone.elim h.1 h.2
          simp [hslash, hzone, hnot]
        · simp [hslash, not_or.1 hzone]

/-- In lower case, an address in groups is the same address. -/
theorem ofChars?_foldHost {host : List Char} {n : Nat} (h : Address.ofChars? host = some (.v6 n)) :
    Address.ofChars? (foldHost host) = some (.v6 n) ∧ (foldHost host).head? ≠ some 'v' := by
  obtain ⟨hslash, -, hzone, hgroups⟩ := ofChars?_eq_v6.1 h
  have hlower := Address.groupsValue?_lower hgroups
  have hcolon : ':' ∈ foldHost host := List.mem_append_left _ (Address.colon_mem_of_groupsValue? hlower)
  constructor
  · rw [ofChars?_eq_v6, cutAt_foldHost]
    exact ⟨fun hmem => hslash (mem_of_mem_foldHost (isSolitary_of_isMark (by decide)) hmem), Address.quad?_eq_none_of_colon hcolon,
      hzone, hlower⟩
  · intro hfirst
    have hmem : 'v' ∈ Text.lowerFrom [] (Text.cutAt '%' host).1 := by
      cases hname : Text.lowerFrom [] (Text.cutAt '%' host).1 with
      | nil =>
        rw [hname] at hlower
        exact absurd (Address.colon_mem_of_groupsValue? hlower) (by simp)
      | cons c name =>
        rw [foldHost, hname, List.cons_append, List.head?_cons, Option.some.injEq] at hfirst
        exact hfirst ▸ List.mem_cons_self
    exact absurd (Address.plain_of_groupsValue? hlower _ hmem) (by decide)

/-- What the check of brackets lets pass, it lets pass in lower case. -/
theorem checkBracketed_foldHost {host : List Char} (h : checkBracketed host = .ok ()) : checkBracketed (foldHost host) = .ok () := by
  unfold checkBracketed at h
  split_ifs at h with hfirst hfuture
  · have hfold := isFutureAddress_foldHost hfuture
    obtain ⟨version, address, hparts, -⟩ := (isFutureAddress_iff _).1 hfold
    rw [checkBracketed, hfold, hparts]
    rfl
  · cases haddress : Address.ofChars? host with
    | none =>
      rw [haddress] at h
      cases h
    | some address =>
      cases address with
      | v4 n =>
        rw [haddress] at h
        cases h
      | v6 n =>
        obtain ⟨hfold, hfirst'⟩ := ofChars?_foldHost haddress
        rw [checkBracketed, if_neg (by simpa using hfirst'), hfold]

/-- Whether the user information of an authority, if there is one, holds no opening bracket. -/
def PlainInfo (authority : List Char) : Prop := ∀ info ∈ (Text.cutAtLast '@' authority).1, '[' ∉ info

/-- The first opening bracket of an authority stands in what follows such user information, then. -/
theorem PlainInfo.eq_append {authority : List Char} (h : PlainInfo authority) :
    ∃ front, authority = front ++ (Text.cutAtLast '@' authority).2 ∧ '[' ∉ front := by
  refine ⟨_, Text.cutAtLast_spec '@' authority, ?_⟩
  cases hinfo : (Text.cutAtLast '@' authority).1 with
  | none => simp
  | some info => simpa using h info hinfo

/-- The host of a checked authority without an opening bracket in its user information holds neither brackets nor a
colon, or it stood in brackets and passed their check. -/
theorem host_of_checkBrackets {authority : List Char} (h : checkBrackets authority = .ok ()) (hinfo : PlainInfo authority) :
    ('[' ∉ (hostAndPort authority).1 ∧ ']' ∉ (hostAndPort authority).1 ∧ ':' ∉ (hostAndPort authority).1) ∨
      (']' ∉ (hostAndPort authority).1 ∧ checkBracketed (hostAndPort authority).1 = .ok ()) := by
  obtain ⟨front, hfront, hopen⟩ := hinfo.eq_append
  unfold checkBrackets bracketed at h
  cases hcut : (Text.cutAt '[' (Text.cutAtLast '@' authority).2).2 with
  | none =>
    rw [hostAndPort_of_no_bracket hcut]
    have hopen' : '[' ∉ authority := by
      rw [hfront, List.mem_append]
      exact not_or.2 ⟨hopen, Text.not_mem_of_cutAt_snd hcut⟩
    have hclose' : ']' ∉ authority := by
      intro hmem
      simp [hopen', hmem] at h
    have hsub : ∀ c ∈ (Text.cutAt ':' (Text.cutAtLast '@' authority).2).1, c ∈ authority := fun c hc =>
      Text.mem_of_mem_cutAtLast_snd (Text.mem_of_mem_cutAt_fst hc)
    exact .inl ⟨fun hmem => hopen' (hsub _ hmem), fun hmem => hclose' (hsub _ hmem), Text.not_mem_cutAt_fst ':' _⟩
  | some inner =>
    rw [hostAndPort_of_bracket hcut]
    have hopen' : '[' ∈ authority := by
      rw [hfront, Text.eq_append_of_cutAt_snd hcut]
      simp
    have hsame : (Text.cutAt '[' authority).2 = some inner := by
      rw [hfront, Text.cutAt_append_left hopen, hcut]
    have hclose' : ']' ∈ authority := by
      by_contra hnot
      simp [hopen', hnot] at h
    exact .inr ⟨Text.not_mem_cutAt_fst ']' inner, by simpa [hopen', hclose', hsame] using h⟩

/-- A host read from an authority whose user information holds no opening bracket is writable, unless it holds an opening bracket
itself and has no colon for which it would be put in brackets again. -/
theorem writable_of_checkBrackets {authority : List Char} (h : checkBrackets authority = .ok ()) (hinfo : PlainInfo authority) :
    Writable (foldHost (hostAndPort authority).1) ↔
      ':' ∈ foldHost (hostAndPort authority).1 ∨ '[' ∉ foldHost (hostAndPort authority).1 := by
  have hmark {c : Char} (hc : isMark c = true) (hnot : c ∉ (hostAndPort authority).1) : c ∉ foldHost (hostAndPort authority).1 :=
    fun hmem => hnot (mem_of_mem_foldHost (isSolitary_of_isMark hc) hmem)
  unfold Writable
  rcases host_of_checkBrackets h hinfo with ⟨hopen, hclose, hcolon⟩ | ⟨hclose, hcheck⟩
  · rw [if_neg (hmark (by decide) hcolon)]
    exact iff_of_true ⟨hmark (by decide) hopen, hmark (by decide) hclose⟩ (.inr (hmark (by decide) hopen))
  · split_ifs with hcolon
    · exact iff_of_true (checkBracketed_foldHost hcheck) (.inl hcolon)
    · exact ⟨fun hw => .inr hw.1, fun hw => ⟨hw.resolve_left hcolon, hmark (by decide) hclose⟩⟩

/-! ## Ports -/

/-- A port that a URL has lies in the range of ports. -/
theorem port_le {u : Url} {port : Option Nat} (h : u.port = .ok port) : ∀ p ∈ port, p ≤ 65535 := by
  unfold Url.port at h
  simp only at h
  split_ifs at h with hempty hdigits hlong hrange
  · cases h
    simp
  · cases h
    intro p hp
    cases hp
    exact Nat.not_lt.1 hrange

/-- A written port is read as the same port. -/
theorem port_of_digits {u : Url} {port : Option Nat} (hle : ∀ p ∈ port, p ≤ 65535)
    (h : (hostAndPort u.authority.toList).2 = (port.map (Nat.toDigits 10)).getD []) : u.port = .ok port := by
  unfold Url.port
  simp only [h]
  cases port with
  | none => rfl
  | some p =>
    have hp : p ≤ 65535 := hle p rfl
    have hdigits : (Nat.toDigits 10 p).all Text.isAsciiDigit = true :=
      List.all_eq_true.2 fun c hc => Text.isAsciiDigit_of_mem_toDigits hc
    have hlength : (Nat.toDigits 10 p).length ≤ 5 := (Nat.length_toDigits_le_iff (by decide) (by decide)).2 (by omega)
    rw [Option.map_some, Option.getD_some, if_neg (by simp), hdigits, if_neg (by decide),
      if_neg (by unfold Text.maxDigits; omega), Text.natOfDigits_toDigits, if_neg (by omega)]

end SignedCall.Url
