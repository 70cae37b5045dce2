import SignedCall.Proofs.Configuration.Resolution
import SignedCall.Proofs.Json.Weight
import SignedCall.Signing.Policy

/-!
# What policies say

A policy is put together from texts that are taken as they are. It is a document with one statement, which says what the policy was
asked to say and nothing else, if and only if the resource has no control character and the range of addresses has nothing that JSON
escapes (`policies_tell`); it is not so for every policy (`policies_tell_always_false`).
-/

namespace SignedCall

/-! ## Seconds -/

theorem roundHalfEven_le (num den : Nat) : roundHalfEven num den ≤ num + 1 := by
  have := Nat.div_le_self num den
  unfold roundHalfEven
  split <;> omega

namespace Binary64

-- The exponents are bounded by variables, since powers of the bounds themselves would be worked out.
variable {k j : Nat}

/-- The mantissa and the exponent of a rounded quotient. -/
theorem bounds_of_ofRatio (hk : (-minExponent).toNat ≤ k) {negative sign : Bool} {num den m : Nat} {e : Int}
    (h : ofRatio negative num den = .finite sign m e) : m ≤ num * Nat.pow 2 k + 1 ∧ e ≤ maxExponent := by
  have hdown : (powRatio (exponentFor num den)).2 ≤ Nat.pow 2 k := by
    have hexponent : minExponent ≤ exponentFor num den := Int.le_max_right _ _
    have hle : (-exponentFor num den).toNat ≤ k := by omega
    exact Nat.pow_le_pow_right (by decide) hle
  have hround := roundHalfEven_le (num * (powRatio (exponentFor num den)).2) (den * (powRatio (exponentFor num den)).1)
  have hnum := Nat.mul_le_mul_left num hdown
  unfold ofRatio at h
  split at h
  · cases h
    exact ⟨Nat.zero_le _, by decide⟩
  · dsimp only at h
    split at h
    · next hfull =>
      split at h
      · cases h
      · next hmax =>
        cases h
        rw [hfull] at hround
        have hhalf : Nat.pow 2 52 ≤ Nat.pow 2 53 := by decide
        exact ⟨by dsimp only; omega, Int.not_lt.1 hmax⟩
    · split at h
      · cases h
      · next hmax =>
        cases h
        exact ⟨by dsimp only; omega, Int.not_lt.1 hmax⟩

/-- The whole part of a number is bounded by its mantissa and the largest exponent. -/
theorem natAbs_truncate?_le (hj : maxExponent.toNat ≤ j) {sign : Bool} {m : Nat} {e : Int} (he : e ≤ maxExponent) :
    ((truncate? (.finite sign m e)).getD 0).natAbs ≤ m * Nat.pow 2 j := by
  have hle : e.toNat ≤ j := by omega
  have hup : (powRatio e).1 ≤ Nat.pow 2 j := Nat.pow_le_pow_right (by decide) hle
  have habs : ((truncate? (.finite sign m e)).getD 0).natAbs = m * (powRatio e).1 / (powRatio e).2 := by
    cases sign
    · rfl
    · exact Int.natAbs_neg _
  calc ((truncate? (.finite sign m e)).getD 0).natAbs = m * (powRatio e).1 / (powRatio e).2 := habs
    _ ≤ m * (powRatio e).1 := Nat.div_le_self _ _
    _ ≤ m * Nat.pow 2 j := Nat.mul_le_mul_left m hup

/-- The whole seconds of a span have no more digits than the span and the exponents allow. -/
theorem natAbs_wholeSeconds_le (hk : (-minExponent).toNat ≤ k) (hj : maxExponent.toNat ≤ j) (micros : Int) :
    (wholeSeconds micros).natAbs ≤ (micros.natAbs * Nat.pow 2 k + 1) * Nat.pow 2 j := by
  unfold wholeSeconds secondsOf ofQuotient
  cases hseconds : ofRatio (micros < 0) micros.natAbs secondMicros with
  | finite sign m e =>
    obtain ⟨hm, he⟩ := bounds_of_ofRatio hk hseconds
    exact (natAbs_truncate?_le hj he).trans (Nat.mul_le_mul_right _ hm)
  | infinite sign => exact Nat.zero_le _
  | nan => exact Nat.zero_le _

/-- The seconds of a span of the calendar are a number of moderate size. -/
theorem natAbs_wholeSeconds_lt (hk : (-minExponent).toNat ≤ k) (hj : maxExponent.toNat ≤ j) {d : Nat} (hd : 61 + k + j < d)
    {micros : Int} (h : micros.natAbs ≤ timeLimit) : (wholeSeconds micros).natAbs < Nat.pow 10 d := by
  have hlimit : timeLimit < Nat.pow 2 61 := by decide
  have hone : micros.natAbs * Nat.pow 2 k + 1 ≤ Nat.pow 2 (61 + k) :=
    calc micros.natAbs * Nat.pow 2 k + 1 ≤ micros.natAbs * Nat.pow 2 k + Nat.pow 2 k :=
          Nat.add_le_add_left (Nat.pow_pos (by decide)) _
      _ = (micros.natAbs + 1) * Nat.pow 2 k := (Nat.succ_mul _ _).symm
      _ ≤ Nat.pow 2 61 * Nat.pow 2 k := Nat.mul_le_mul_right _ (by omega)
      _ = Nat.pow 2 (61 + k) := (Nat.pow_add 2 61 k).symm
  calc (wholeSeconds micros).natAbs ≤ (micros.natAbs * Nat.pow 2 k + 1) * Nat.pow 2 j := natAbs_wholeSeconds_le hk hj micros
    _ ≤ Nat.pow 2 (61 + k) * Nat.pow 2 j := Nat.mul_le_mul_right _ hone
    _ = Nat.pow 2 (61 + k + j) := (Nat.pow_add 2 _ j).symm
    _ ≤ Nat.pow 10 (61 + k + j) := Nat.pow_le_pow_left (by decide) _
    _ < Nat.pow 10 d := Nat.pow_lt_pow_right (by decide) hd

end Binary64

namespace Policy

/-- A count of seconds is short enough to be read back. -/
theorem tidy_epochSeconds {d : DateTime} {n : Int} (h : epochSeconds d = .ok n) : Json.Tidy (.number (.whole n)) := by
  unfold epochSeconds at h
  split at h
  · next t _ =>
    cases h
    have hlt := t.micros_lt
    have hepoch : epochMicros < timeLimit := by decide
    have hsmall := Binary64.natAbs_wholeSeconds_lt (Nat.le_refl _) (Nat.le_refl _) (show _ < Text.maxDigits by decide)
      (show ((t.micros : Int) - epochMicros).natAbs ≤ timeLimit by omega)
    exact .whole _ (Text.length_toDigits_le (by decide) hsmall)
  · cases h

/-! ## Documents -/

/-- The restriction of the time under a name. -/
def timeCondition (name : String) (seconds : Int) : String × Json :=
  (name, .object [("AWS:EpochTime", .number (.whole seconds))])

/-- The restriction of the address. -/
def addressCondition (range : String) : String × Json := ("IpAddress", .object [("AWS:SourceIp", .text range)])

/-- What a policy says: until when a resource may be fetched and, where that is restricted, from where and from when. -/
structure Terms where
  resource : String
  before : Int
  range : Option String
  after : Option Int

namespace Terms

/-- The restrictions of a policy. -/
def conditions (t : Terms) : List (String × Json) :=
  timeCondition "DateLessThan" t.before ::
    ((t.range.map addressCondition).toList ++ (t.after.map (timeCondition "DateGreaterThan")).toList)

/-- The document with one statement that says what a policy says. -/
def document (t : Terms) : Json :=
  .object [("Statement", .array [.object [("Resource", .text t.resource), ("Condition", .object t.conditions)]])]

/-- The texts that a policy is given. -/
def given (t : Terms) : List String := t.resource :: t.range.toList

/-- A restriction of the time is as tidy as its seconds. -/
theorem tidy_timeCondition (name : String) {seconds : Int} (h : Json.Tidy (.number (.whole seconds))) :
    Json.Tidy (timeCondition name seconds).2 :=
  .object _ (by simp) (by simpa using h)

/-- No two restrictions of a policy have the same name. -/
theorem nodup_conditions (t : Terms) : (t.conditions.map Prod.fst).Nodup := by
  obtain ⟨resource, before, range, after⟩ := t
  cases range <;> cases after <;> simp [conditions, timeCondition, addressCondition]

/-- The document of a policy is tidy if its seconds are. -/
theorem tidy_document {t : Terms} (hbefore : Json.Tidy (.number (.whole t.before)))
    (hafter : ∀ n ∈ t.after, Json.Tidy (.number (.whole n))) : Json.Tidy t.document := by
  have hconditions : ∀ condition ∈ t.conditions, Json.Tidy condition.2 := by
    intro condition hmem
    simp only [conditions, List.mem_cons, List.mem_append, Option.mem_toList, Option.map_eq_some_iff] at hmem
    rcases hmem with rfl | ⟨range, -, rfl⟩ | ⟨n, hn, rfl⟩
    · exact tidy_timeCondition _ hbefore
    · exact .object _ (by simp) (by simpa using .text range)
    · exact tidy_timeCondition _ (hafter n hn)
  have hstatement : Json.Tidy (.object [("Resource", .text t.resource), ("Condition", .object t.conditions)]) :=
    .object _ (by simp) (by simpa using ⟨.text t.resource, .object _ t.nodup_conditions hconditions⟩)
  exact .object _ (by simp) (by simpa using .array _ (by simpa using hstatement))

/-- The texts of the document need no escapes if those that the policy was given need none. -/
theorem texts_document (t : Terms) : (∀ s ∈ Json.texts t.document, Json.Plain s) ↔ ∀ s ∈ t.given, Json.Plain s := by
  have hnames : ∀ s ∈ ["Statement", "Resource", "Condition", "DateLessThan", "DateGreaterThan", "AWS:EpochTime", "IpAddress",
      "AWS:SourceIp"], Json.Plain s := by decide
  simp only [List.forall_mem_cons] at hnames
  obtain ⟨resource, before, range, after⟩ := t
  cases range <;> cases after <;>
    simp [document, conditions, timeCondition, addressCondition, given, Json.texts, Json.itemTexts, Json.fieldTexts, hnames]

end Terms

/-- The blank that custom policies have behind the name of the statement. -/
def customGap (name : String) : List Char := if name = "Statement" then [' '] else []

/-- The text of a canned policy is that of its document, without a blank. -/
theorem canned_eq_ok {resource text : String} {expiration : Option DateTime} (h : canned resource expiration = .ok text) :
    ∃ d before, expiration = some d ∧ checkResource resource = .ok () ∧ epochSeconds d = .ok before ∧
      text.toList = Json.bare (fun _ => []) (Terms.mk resource before none none).document := by
  unfold canned at h
  by_cases hempty : resource = ""
  · simp only [if_pos hempty] at h
    cases h
  · simp only [if_neg hempty] at h
    obtain ⟨_, hcheck, h⟩ := Except.bind_ok h
    cases expiration with
    | none => cases h
    | some d =>
      obtain ⟨before, hbefore, h⟩ := Except.bind_ok h
      cases h
      refine ⟨d, before, rfl, hcheck, hbefore, ?_⟩
      simp [Terms.document, Terms.conditions, timeCondition, Json.bare, Json.bareItems, Json.bareFields, Number.text]

/-- The part about the activation is one more restriction of the time, if there is one. -/
theorem activationPart_eq_ok {activation : Option DateTime} {part : String} (h : activationPart activation = .ok part) :
    ∃ after : Option Int, activation.mapM epochSeconds = .ok after ∧ part.toList =
      (after.map (timeCondition "DateGreaterThan")).toList.flatMap fun condition => ',' :: Json.bareFields customGap [condition] := by
  cases activation with
  | none =>
    cases h
    exact ⟨none, rfl, rfl⟩
  | some d =>
    obtain ⟨n, hn, h⟩ := Except.bind_ok h
    cases h
    refine ⟨some n, ?_, ?_⟩
    · rw [Option.mapM_some, hn]
      rfl
    · simp [timeCondition, customGap, Json.bare, Json.bareFields, Number.text]

/-- The text of a custom policy is that of its document, with one blank. -/
theorem custom_eq_ok {p : CustomPolicy} {text : String} (h : custom p = .ok text) :
    ∃ d before after, p.expiration = some d ∧ checkResource (p.resource.getD anyResource) = .ok () ∧ epochSeconds d = .ok before ∧
      p.activation.mapM epochSeconds = .ok after ∧ text.toList =
        Json.bare customGap (Terms.mk (p.resource.getD anyResource) before (some (p.ipRange.getD anyAddress)) after).document := by
  unfold custom at h
  split at h
  · cases h
  · next d hexpiration =>
    obtain ⟨_, hcheck, h⟩ := Except.bind_ok h
    obtain ⟨before, hbefore, h⟩ := Except.bind_ok h
    obtain ⟨part, hpart, h⟩ := Except.bind_ok h
    cases h
    obtain ⟨after, hafter, hlist⟩ := activationPart_eq_ok hpart
    refine ⟨d, before, after, hexpiration, hcheck, hbefore, hafter, ?_⟩
    cases after <;>
      simp [hlist, Terms.document, Terms.conditions, timeCondition, addressCondition, customGap, Json.bare, Json.bareItems,
        Json.bareFields, Number.text]

/-! ## Reading a policy -/

/-- The text of a policy is read as its document if what the policy was given needs no escapes, and only then. -/
theorem read?_iff {gap : String → List Char} (hgap : Json.Blanks gap) {t : Terms}
    (ht : Json.Tidy t.document) {text : String} (h : text.toList = Json.bare gap t.document) :
    Json.read? text = some t.document ↔ ∀ s ∈ t.given, Json.Plain s := by
  rw [← t.texts_document, ← Json.read?_bare_iff ht hgap, ← h, String.ofList_toList]

/-- A resource that was let through needs escapes only for its control characters. -/
theorem plain_iff_of_checkResource {resource : String} (h : checkResource resource = .ok ()) :
    Json.Plain resource ↔ ∀ c ∈ resource.toList, 0x20 ≤ c.toNat := by
  unfold checkResource at h
  split at h
  · cases h
  · next hmarks =>
    simp only [List.any_eq_true, Bool.or_eq_true, beq_iff_eq, not_exists, not_and, not_or] at hmarks
    simp only [Json.Plain, Json.isPlain, Bool.and_eq_true, bne_iff_ne, decide_eq_true_eq]
    exact forall₂_congr fun c hc => ⟨And.right, fun hlow => ⟨hmarks c hc, hlow⟩⟩

/-- A canned policy is read as its terms unless the resource has a control character. -/
theorem read?_canned {resource text : String} {expiration : Option DateTime} (h : canned resource expiration = .ok text) :
    ∃ d before, expiration = some d ∧ epochSeconds d = .ok before ∧
      (Json.read? text = some (Terms.mk resource before none none).document ↔ ∀ c ∈ resource.toList, 0x20 ≤ c.toNat) := by
  obtain ⟨d, before, hexpiration, hcheck, hbefore, hlist⟩ := canned_eq_ok h
  refine ⟨d, before, hexpiration, hbefore, ?_⟩
  rw [read?_iff (fun _ c hc => by cases hc) (Terms.tidy_document (tidy_epochSeconds hbefore) (by simp)) hlist,
    ← plain_iff_of_checkResource hcheck]
  simp [Terms.given]

/-- The count of an activation, if there is one, is short enough to be read back. -/
theorem tidy_of_mapM_epochSeconds {activation : Option DateTime} {after : Option Int} (h : activation.mapM epochSeconds = .ok after) :
    ∀ n ∈ after, Json.Tidy (.number (.whole n)) := by
  cases activation with
  | none =>
    cases h
    simp
  | some d =>
    rw [Option.mapM_some] at h
    cases hn : epochSeconds d with
    | error fault =>
      rw [hn] at h
      cases h
    | ok n =>
      rw [hn] at h
      cases h
      simpa using tidy_epochSeconds hn

/-- A custom policy is read as its terms unless the resource has a control character or the range something that is escaped. -/
theorem read?_custom {p : CustomPolicy} {text : String} (h : custom p = .ok text) :
    ∃ d before after, p.expiration = some d ∧ epochSeconds d = .ok before ∧ p.activation.mapM epochSeconds = .ok after ∧
      (Json.read? text = some (Terms.mk (p.resource.getD anyResource) before (some (p.ipRange.getD anyAddress)) after).document ↔
        (∀ c ∈ (p.resource.getD anyResource).toList, 0x20 ≤ c.toNat) ∧ Json.Plain (p.ipRange.getD anyAddress)) := by
  obtain ⟨d, before, after, hexpiration, hcheck, hbefore, hafter, hlist⟩ := custom_eq_ok h
  refine ⟨d, before, after, hexpiration, hbefore, hafter, ?_⟩
  have hgap : Json.Blanks customGap := by
    intro name c hc
    unfold customGap at hc
    split at hc
    · rw [List.mem_singleton.1 hc]
      rfl
    · cases hc
  rw [read?_iff hgap (Terms.tidy_document (tidy_epochSeconds hbefore) (tidy_of_mapM_epochSeconds hafter)) hlist,
    ← plain_iff_of_checkResource hcheck]
  simp [Terms.given]

/-- A policy that is written tells its terms: it is read as the document with one statement, which has the resource as it was given
(any resource if none was), the seconds of the expiration, of a custom policy the range (any address if none was given) and the
seconds of the activation if there is one, and nothing else. It does so if and only if the resource has no control character and the
range has none either, nor a quotation mark or a backslash. -/
theorem policies_tell (resource : String) (expiration : Option DateTime) (p : CustomPolicy) (text : String) :
    (canned resource expiration = .ok text → ∃ d before, expiration = some d ∧ epochSeconds d = .ok before ∧
      (Json.read? text = some (Terms.mk resource before none none).document ↔ ∀ c ∈ resource.toList, 0x20 ≤ c.toNat)) ∧
    (custom p = .ok text → ∃ d before after, p.expiration = some d ∧ epochSeconds d = .ok before ∧
      p.activation.mapM epochSeconds = .ok after ∧
      (Json.read? text = some (Terms.mk (p.resource.getD anyResource) before (some (p.ipRange.getD anyAddress)) after).document ↔
        (∀ c ∈ (p.resource.getD anyResource).toList, 0x20 ≤ c.toNat) ∧ Json.Plain (p.ipRange.getD anyAddress))) :=
  ⟨read?_canned, read?_custom⟩

/-- The first moment of 2030. -/
def year2030 : DateTime := ⟨64029052800000000, none, by decide⟩

theorem epochSeconds_year2030 : epochSeconds year2030 = .ok 1893456000 := rfl

/-- Two policies that tell their terms, one until 2030 and one from 2030 and until then. -/
theorem policies_tell_year2030 : ∃ cannedText customText, canned "a b" (some year2030) = .ok cannedText ∧
    Json.read? cannedText = some (Terms.mk "a b" 1893456000 none none).document ∧
    custom ⟨none, some year2030, some year2030, none⟩ = .ok customText ∧
    Json.read? customText = some (Terms.mk "*" 1893456000 (some "0.0.0.0/0") (some 1893456000)).document := by
  refine ⟨_, _, rfl, ?_, rfl, ?_⟩
  · obtain ⟨d, before, hd, hbefore, hread⟩ := (policies_tell "a b" (some year2030) ⟨none, none, none, none⟩ _).1 rfl
    cases hd
    cases epochSeconds_year2030.symm.trans hbefore
    exact hread.2 (by simp)
  · obtain ⟨d, before, after, hd, hbefore, hafter, hread⟩ :=
      (policies_tell "a b" none ⟨none, some year2030, some year2030, none⟩ _).2 rfl
    cases hd
    cases epochSeconds_year2030.symm.trans hbefore
    have hactivation : (some year2030).mapM epochSeconds = .ok (some 1893456000) := rfl
    cases hactivation.symm.trans hafter
    exact hread.2 ⟨by simp [anyResource], by decide⟩

/-- A range that closes its own restriction, and puts another expiration behind the one that was asked for. -/
def forgedRange : String := "1.2.3.4\"\x7d,\"DateLessThan\":\x7b\"AWS:EpochTime\":9999999999\x7d,\"x\":\x7b\"y\":\"z"

/-- Not every policy tells its terms: a canned one does not if the resource has a line feed, nor does a custom one with the forged
range. -/
theorem policies_tell_always_false :
    (¬∀ resource expiration text, canned resource expiration = .ok text → ∃ d before, expiration = some d ∧
      epochSeconds d = .ok before ∧ Json.read? text = some (Terms.mk resource before none none).document) ∧
    ¬∀ p text, custom p = .ok text → ∃ d before after, p.expiration = some d ∧ epochSeconds d = .ok before ∧
      p.activation.mapM epochSeconds = .ok after ∧
      Json.read? text = some (Terms.mk (p.resource.getD anyResource) before (some (p.ipRange.getD anyAddress)) after).document := by
  constructor
  · intro h
    obtain ⟨d, before, hd, hbefore, hread⟩ := h "a\nb" (some year2030) _ rfl
    obtain ⟨d', before', hd', hbefore', hiff⟩ := read?_canned (show canned "a\nb" (some year2030) = .ok _ from rfl)
    cases hd.symm.trans hd'
    cases hbefore.symm.trans hbefore'
    exact absurd (hiff.1 hread '\n' (by decide)) (by decide)
  · intro h
    obtain ⟨d, before, after, hd, hbefore, hafter, hread⟩ := h ⟨some "a", some year2030, none, some forgedRange⟩ _ rfl
    obtain ⟨d', before', after', hd', hbefore', hafter', hiff⟩ :=
      read?_custom (p := ⟨some "a", some year2030, none, some forgedRange⟩) rfl
    cases hd.symm.trans hd'
    cases hbefore.symm.trans hbefore'
    cases hafter.symm.trans hafter'
    exact absurd ((hiff.1 hread).2 '"' (by decide)) (by decide)

end Policy

end SignedCall
