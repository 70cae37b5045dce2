import Mathlib.Logic.Basic
import SignedCall.Credentials.Container
import SignedCall.Proofs.Text.Utf8

/-!
# Documents in answers

An answer has a document if its status is 200 and its body is a text in UTF-8 that writes the document (`Container.Has`). Else there is
one of five reasons why it has none (`Container.Lacks`). What is taken from an answer is the document that it has, or the failure for
the reason why it has none (`Container.documentIn_eq_ok_iff`, `Container.documentIn_eq_error_iff`).
-/

namespace SignedCall.Container

/-- Whether an answer has a document: its status is 200, and its body is a text in UTF-8 that writes the document in JSON. -/
def Has (a : Except Failure Response) (j : Json) : Prop :=
  ∃ r text, a = .ok r ∧ r.status = 200 ∧ r.body = Text.Utf8.encode text ∧ Json.read? text = some j

/-- Why an answer has no document. -/
inductive Lacks : Except Failure Response → Failure → Prop
  /-- There is no response. -/
  | unanswered (f : Failure) : Lacks (.error f) f
  /-- The response has another status, which the failure tells together with the body. -/
  | refused {r : Response} {text : String} : r.status ≠ 200 → r.body = Text.Utf8.encode text →
      Lacks (.ok r) (.stated .credentials ("Container metadata service returned " ++ toString r.status ++ ": " ++ text))
  /-- The response has another status, and its body is no text in UTF-8. -/
  | garbled {r : Response} {fault : Text.Utf8.Fault} : r.status ≠ 200 → Text.Utf8.decode r.body = .error fault →
      Lacks (.ok r) (.inner .decoding fault.message)
  /-- The body is no text in UTF-8. -/
  | undecodable {r : Response} {fault : Text.Utf8.Fault} : r.status = 200 → Text.Utf8.decode r.body = .error fault →
      Lacks (.ok r) (.causedBy .credentials ("Unable to parse JSON from container metadata: " ++ Text.Utf8.decodeLossy r.body)
        (.inner .decoding fault.message))
  /-- The body is a text that writes nothing in JSON. -/
  | unparsable {r : Response} {text : String} : r.status = 200 → r.body = Text.Utf8.encode text → Json.read? text = none →
      Lacks (.ok r) (.causedBy .credentials ("Unable to parse JSON from container metadata: " ++ text)
        (.inner .json "Expecting value"))

/-- The document in an answer, or why there is none. -/
def documentIn (a : Except Failure Response) : Except Failure Json := a >>= document

/-- Every answer has a document, or there is a reason why it has none. -/
theorem has_or_lacks (a : Except Failure Response) : (∃ j, Has a j) ∨ ∃ f, Lacks a f := by
  cases a with
  | error f => exact Or.inr ⟨f, .unanswered f⟩
  | ok r =>
    by_cases hstatus : r.status = 200
    · cases hdecode : Text.Utf8.decode r.body with
      | error fault => exact Or.inr ⟨_, .undecodable hstatus hdecode⟩
      | ok text =>
        have hbody := Text.Utf8.decode_eq_ok_iff.1 hdecode
        cases hread : Json.read? text with
        | some j => exact Or.inl ⟨j, r, text, rfl, hstatus, hbody, hread⟩
        | none => exact Or.inr ⟨_, .unparsable hstatus hbody hread⟩
    · cases hdecode : Text.Utf8.decode r.body with
      | error fault => exact Or.inr ⟨_, .garbled hstatus hdecode⟩
      | ok text => exact Or.inr ⟨_, .refused hstatus (Text.Utf8.decode_eq_ok_iff.1 hdecode)⟩

/-- A document that an answer has is taken from it. -/
theorem Has.documentIn_eq {a : Except Failure Response} {j : Json} (h : Has a j) : documentIn a = .ok j := by
  obtain ⟨r, text, rfl, hstatus, hbody, hread⟩ := h
  change document r = _
  simp only [document, if_neg (not_not.2 hstatus), hbody, Text.Utf8.decode_encode, hread]

/-- The reason why an answer has no document is what taking one from it fails with. -/
theorem Lacks.documentIn_eq {a : Except Failure Response} {f : Failure} (h : Lacks a f) : documentIn a = .error f := by
  cases h with
  | unanswered => rfl
  | @refused r text hstatus hbody =>
    change document r = _
    rw [document, if_pos hstatus, hbody, Text.Utf8.decode_encode]
    rfl
  | @garbled r fault hstatus hdecode =>
    change document r = _
    rw [document, if_pos hstatus, hdecode]
    rfl
  | @undecodable r fault hstatus hdecode =>
    change document r = _
    simp only [document, if_neg (not_not.2 hstatus), hdecode]
  | @unparsable r text hstatus hbody hread =>
    change document r = _
    simp only [document, if_neg (not_not.2 hstatus), hbody, Text.Utf8.decode_encode, Text.Utf8.decodeLossy_encode, hread]

/-- The document taken from an answer is the one that the answer has. -/
theorem documentIn_eq_ok_iff {a : Except Failure Response} {j : Json} : documentIn a = .ok j ↔ Has a j := by
  refine ⟨fun h => ?_, Has.documentIn_eq⟩
  rcases has_or_lacks a with ⟨j', hhas⟩ | ⟨f, hlacks⟩
  · rw [hhas.documentIn_eq] at h
    exact Except.ok.inj h ▸ hhas
  · rw [hlacks.documentIn_eq] at h
    cases h

/-- No document is taken from an answer for the reason that there is. -/
theorem documentIn_eq_error_iff {a : Except Failure Response} {f : Failure} : documentIn a = .error f ↔ Lacks a f := by
  refine ⟨fun h => ?_, Lacks.documentIn_eq⟩
  rcases has_or_lacks a with ⟨j, hhas⟩ | ⟨f', hlacks⟩
  · rw [hhas.documentIn_eq] at h
    cases h
  · rw [hlacks.documentIn_eq] at h
    exact Except.error.inj h ▸ hlacks

/-- An answer has one document at most. -/
theorem Has.eq {a : Except Failure Response} {j j' : Json} (h : Has a j) (h' : Has a j') : j = j' :=
  Except.ok.inj (h.documentIn_eq.symm.trans h'.documentIn_eq)

/-- An answer that has a document lacks none. -/
theorem Has.not_lacks {a : Except Failure Response} {j : Json} (h : Has a j) (f : Failure) : ¬Lacks a f := by
  intro hlacks
  have hsame := h.documentIn_eq.symm.trans hlacks.documentIn_eq
  cases hsame

end SignedCall.Container
