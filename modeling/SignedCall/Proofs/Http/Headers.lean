import Mathlib.Data.List.Basic
import SignedCall.Http.Request

/-!
# Setting a header field

A request with a header field set is the same but for that field, which it has once, whatever letter case its name had before
(`RequestBuilder.sets_setHeader`). So the field is found under its name in any letter case, and what is found under other names stays
(`Request.Sets.header?`).
-/

namespace SignedCall

/-- Texts are the same but for letter case if they are the same in lower case. -/
theorem Text.sameIgnoringCase_iff {s t : String} : Text.sameIgnoringCase s t = true ↔ Text.lower s = Text.lower t := beq_iff_eq

namespace Request

/-- A request that is another one but for a header field, which it has once. -/
structure Sets (name value : String) (before after : Request) : Prop where
  rest : { after with headers := before.headers } = before
  field : after.headers.entries.filter (fun e => Text.sameIgnoringCase e.1 name) = [(name, value)]
  others : after.headers.entries.filter (fun e => !Text.sameIgnoringCase e.1 name) =
    before.headers.entries.filter fun e => !Text.sameIgnoringCase e.1 name

/-- What is searched for is found among those that cannot be missed alone. -/
theorem find?_filter_of_imp {α : Type} {p q : α → Bool} (h : ∀ a, q a = true → p a = true) (xs : List α) :
    (xs.filter p).find? q = xs.find? q := by
  rw [List.find?_filter]
  congr 1
  funext a
  cases hq : q a with
  | false => simp
  | true => simp [h a hq]

/-- What is found of the header fields when one is set. -/
theorem Sets.header? {name value : String} {before after : Request} (h : Sets name value before after) (other : String) :
    after.header? other = if Text.sameIgnoringCase other name then some value else before.header? other := by
  unfold Request.header? Headers.find?
  split_ifs with hother
  · have hname : ∀ e : String × String, Text.sameIgnoringCase e.1 other = true → Text.sameIgnoringCase e.1 name = true := by
      intro e he
      exact Text.sameIgnoringCase_iff.2 ((Text.sameIgnoringCase_iff.1 he).trans (Text.sameIgnoringCase_iff.1 hother))
    have hfound : Text.sameIgnoringCase name other = true := Text.sameIgnoringCase_iff.2 (Text.sameIgnoringCase_iff.1 hother).symm
    rw [← find?_filter_of_imp hname, h.field, List.find?_singleton, if_pos hfound]
    rfl
  · have hname : ∀ e : String × String, Text.sameIgnoringCase e.1 other = true → (!Text.sameIgnoringCase e.1 name) = true := by
      intro e he
      rw [Bool.not_eq_true', ← Bool.not_eq_true]
      intro hsame
      exact hother (Text.sameIgnoringCase_iff.2 ((Text.sameIgnoringCase_iff.1 he).symm.trans (Text.sameIgnoringCase_iff.1 hsame)))
    rw [← find?_filter_of_imp hname, h.others, find?_filter_of_imp hname]

end Request

/-- A request that is taken apart and built again is the same. -/
theorem Request.build_toBuilder (r : Request) : r.toBuilder.build = r := by
  have hpath : pathOrRoot r.path = r.path := if_neg r.path_ne_empty
  cases r
  simpa [Request.toBuilder, RequestBuilder.build] using hpath

/-- A header field that is set goes to the end, and those whose names differ only in letter case are gone. -/
theorem RequestBuilder.entries_setHeader (b : RequestBuilder) (name value : String) : (b.setHeader name value).headers.entries =
    (b.headers.entries.filter fun e => !Text.sameIgnoringCase e.1 name) ++ [(name, value)] := by
  refine FieldMap.putEntry_of_not_mem (fun hmem => ?_) value
  obtain ⟨e, he, rfl⟩ := List.mem_map.1 hmem
  have hother := (List.mem_filter.1 he).2
  simp [Text.sameIgnoringCase] at hother

/-- Setting a header field makes a request that is the same but for the field. -/
theorem RequestBuilder.sets_setHeader (b : RequestBuilder) (name value : String) :
    Request.Sets name value b.build (b.setHeader name value).build := by
  refine ⟨rfl, ?_, ?_⟩
  · change (RequestBuilder.headers _).entries.filter _ = _
    rw [b.entries_setHeader, List.filter_append, List.filter_filter]
    simp [Text.sameIgnoringCase]
  · change (RequestBuilder.headers _).entries.filter _ = _
    rw [b.entries_setHeader, List.filter_append, List.filter_filter]
    simp [Text.sameIgnoringCase, RequestBuilder.build]

/-- A header field is found under its name when it was set. -/
theorem RequestBuilder.header?_setHeader (b : RequestBuilder) (name value : String) :
    (b.setHeader name value).build.header? name = some value := by
  rw [(b.sets_setHeader name value).header?, if_pos (Text.sameIgnoringCase_iff.2 rfl)]

end SignedCall
