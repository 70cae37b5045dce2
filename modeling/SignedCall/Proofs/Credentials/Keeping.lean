import SignedCall.Credentials.Document
import SignedCall.Credentials.Refreshing
import SignedCall.Proofs.Credentials.Answers

/-!
# Keeping the promise

A credentials document is taken at its word: `Sound` says which documents give what a resolver promises (`read_promised_iff`). A
resolver that keeps an identity looks back from the end of its time, which has to lie in the calendar (`Lasting`). Main statement:
`delivers_identity`, by which calls are as promised if every fetch is and nobody puts anything else in the place of what is kept
(`Keeping`).
-/

namespace SignedCall

namespace CredentialsDocument

/-- Whether one of the keys is missing. -/
def lacksKey (document : Json) : Bool := (document.getD "AccessKeyId").isNull || (document.getD "SecretAccessKey").isNull

/-- A date that is none. -/
def BadDate (j : Json) : Prop := ∃ s, j = .text s ∧ IsoDate.read? s = none

/-- No date, or one that lies in the calendar once it is moved to universal time. -/
def GoodDate (j : Json) : Prop := j = .null ∨ ∃ s d t, j = .text s ∧ IsoDate.read? s = some d ∧ d.utc? = some t

/-- A text that is not empty. -/
def FullText (j : Json) : Prop := ∃ s, j = .text s ∧ s ≠ ""

/-- A document that gives complete credentials, or is refused for a reason that callers are told: it is an object, and one of its
keys is missing, or its expiration is a text that is no date, or its keys are texts that are not empty and its expiration is in
order. -/
def Sound (document : Json) : Prop :=
  (∃ fields, document = .object fields) ∧
    (lacksKey document = true ∨ BadDate (document.getD "Expiration") ∨
      GoodDate (document.getD "Expiration") ∧ FullText (document.getD "AccessKeyId") ∧
        FullText (document.getD "SecretAccessKey"))

/-- The outcome of reading a document as an identity. -/
def identity (document : Json) (source : String) : Except Failure Identity :=
  ((read document source).mapError DocumentFault.failure).map Identity.credentials

/-- The expiration of a document: in order, or no date, or of a kind that no caller is told about. -/
theorem expiration_cases (document : Json) (source : String) :
    (GoodDate (document.getD "Expiration") ∧ ∃ t, expiration? document source = .ok t) ∨
      (BadDate (document.getD "Expiration") ∧ ∃ s, expiration? document source = .error (.badExpiration source s)) ∨
      (¬GoodDate (document.getD "Expiration") ∧ ¬BadDate (document.getD "Expiration") ∧
        ∃ fault, expiration? document source = .error fault ∧ fault.failure.kind ≠ .credentials) := by
  unfold expiration?
  cases hj : document.getD "Expiration" with
  | null => exact .inl ⟨.inl rfl, none, rfl⟩
  | text s =>
    cases hread : IsoDate.read? s with
    | none => exact .inr (.inl ⟨⟨s, rfl, hread⟩, s, by simp [hread]⟩)
    | some d =>
      cases hutc : d.utc? with
      | some t => exact .inl ⟨.inr ⟨s, d, t, rfl, hread, hutc⟩, some t, by simp [hread, hutc]⟩
      | none =>
        refine .inr (.inr ⟨?_, ?_, .expirationOutOfRange, by simp [hread, hutc], nofun⟩)
        · rintro (h | ⟨s', d', t, h, hread', hutc'⟩)
          · cases h
          · cases h
            cases hread.symm.trans hread'
            cases hutc.symm.trans hutc'
        · rintro ⟨s', h, hread'⟩
          cases h
          cases hread.symm.trans hread'
  | bool | number | array | object =>
    refine .inr (.inr ⟨?_, ?_, _, rfl, nofun⟩)
    · rintro (h | ⟨s, d, t, h, -⟩) <;> cases h
    · rintro ⟨s, h, -⟩
      cases h

/-- A date is not both in order and none. -/
theorem BadDate.not_goodDate {j : Json} (h : BadDate j) : ¬GoodDate j := by
  obtain ⟨s, rfl, hread⟩ := h
  rintro (h | ⟨s', d, t, h, hread', -⟩)
  · cases h
  · cases h
    cases hread.symm.trans hread'

/-- Credentials are complete if both keys are texts that are not empty. -/
theorem complete_iff (c : Credentials) :
    (Identity.credentials c).Complete ↔ FullText c.accessKeyId ∧ FullText c.secretAccessKey := by
  constructor
  · rintro ⟨c', key, secret, h, hkey, hkey', hsecret, hsecret'⟩
    cases h
    exact ⟨⟨key, hkey, hkey'⟩, secret, hsecret, hsecret'⟩
  · rintro ⟨⟨key, hkey, hkey'⟩, secret, hsecret, hsecret'⟩
    exact ⟨c, key, secret, rfl, hkey, hkey', hsecret, hsecret'⟩

/-- A document gives what is promised if and only if it is sound. -/
theorem read_promised_iff (document : Json) (source : String) : AsPromised (.of (identity document source)) ↔ Sound document := by
  cases document with
  | object fields =>
    have hobject : ∃ fields', Json.object fields = .object fields' := ⟨fields, rfl⟩
    cases hlacks : lacksKey (.object fields) with
    | true =>
      have hread : read (.object fields) source = .error (.missingKeys source) := by rw [read, ← lacksKey, hlacks, if_pos rfl]
      rw [identity, hread]
      exact ⟨fun _ => ⟨hobject, .inl hlacks⟩, fun _ => rfl⟩
    | false =>
      have hread : read (.object fields) source = (expiration? (.object fields) source).map fun expiration =>
          { accessKeyId := Json.getD "AccessKeyId" (.object fields)
            secretAccessKey := Json.getD "SecretAccessKey" (.object fields)
            sessionToken := Json.getD "Token" (.object fields)
            expiration
            accountId := Json.getD "AccountId" (.object fields) } := by
        rw [read, ← lacksKey, hlacks]
        cases expiration? (.object fields) source <;> rfl
      rw [identity, hread]
      rcases expiration_cases (.object fields) source with
        ⟨hgood, t, ht⟩ | ⟨hbad, text, htext⟩ | ⟨hgood, hbad, fault, hfault, hkind⟩
      · rw [ht]
        refine (complete_iff _).trans ⟨fun hfull => ⟨hobject, .inr (.inr ⟨hgood, hfull⟩)⟩, fun hsound => ?_⟩
        rcases hsound.2 with h | h | ⟨-, hfull⟩
        · cases hlacks.symm.trans h
        · exact absurd hgood h.not_goodDate
        · exact hfull
      · rw [htext]
        exact ⟨fun _ => ⟨hobject, .inr (.inl hbad)⟩, fun _ => rfl⟩
      · rw [hfault]
        refine ⟨fun h => absurd h hkind, fun hsound => ?_⟩
        rcases hsound.2 with h | h | ⟨h, -⟩
        · cases hlacks.symm.trans h
        · exact absurd h hbad
        · exact absurd h hgood
  | null | bool | number | text | array =>
    refine ⟨fun h => ?_, fun ⟨⟨fields, h⟩, _⟩ => ?_⟩
    · cases h
    · cases h

end CredentialsDocument

namespace Refreshing

variable {σ : Type} {r : Refreshing σ} {w : Surroundings σ} {I : σ → Prop}

/-- An identity that never expires, or so late that the calendar reaches back to where it is stale, and to where it is fetched ahead
of time if it ever is. -/
def Lasting (r : Refreshing σ) (i : Identity) : Prop :=
  ∀ t, i.expiration = some t →
    (t.add? (-r.staleTime)).isSome ∧ (r.prefetches = true → (t.add? (-r.prefetchTime)).isSome)

/-- What may be kept: a complete identity that lasts. -/
def Fit (r : Refreshing σ) (i : Identity) : Prop := i.Complete ∧ r.Lasting i

/-- A document that gives an identity fit to be kept, or is refused for a reason that callers are told. -/
def Welcomes (r : Refreshing σ) (source : String) (document : Json) : Prop :=
  CredentialsDocument.Sound document ∧ ∀ i, CredentialsDocument.identity document source = .ok i → r.Lasting i

/-- So it is fit, or the reason is a lack of credentials. -/
theorem Welcomes.meets {source : String} {document : Json} (h : r.Welcomes source document) :
    (Outcome.of (CredentialsDocument.identity document source)).Meets r.Fit Failure.IsLack := by
  have hsound := (CredentialsDocument.read_promised_iff document source).2 h.1
  cases hread : CredentialsDocument.identity document source with
  | ok i =>
    rw [hread] at hsound
    exact ⟨hsound, h.2 i hread⟩
  | error f =>
    rw [hread] at hsound
    exact hsound

/-- What comes of a welcome document at the end of a fetch. -/
theorem Welcomes.delivers {source : String} {document : Json} (h : r.Welcomes source document) :
    (do let c ← Program.ofExcept ((CredentialsDocument.read document source).mapError DocumentFault.failure)
        return Identity.credentials c : Program σ Identity).Delivers w I r.Fit Failure.IsLack := by
  have hmeets := h.meets
  unfold CredentialsDocument.identity at hmeets
  cases hread : CredentialsDocument.read document source with
  | ok c =>
    rw [hread] at hmeets
    exact Program.delivers_value hmeets
  | error fault =>
    rw [hread] at hmeets
    exact Program.delivers_failed hmeets

/-- In all states of a kind nothing but what is fit is kept. The others do not leave that kind, and neither does whoever keeps
something fit. -/
structure Keeping (r : Refreshing σ) (w : Surroundings σ) (I : σ → Prop) : Prop where
  fit : ∀ s i, I s → (r.slot.get s).cached = some i → r.Fit i
  set : ∀ x s, I s → (∀ i, x.cached = some i → r.Fit i) → I (r.slot.set x s)
  others : ∀ wait s, I s → I (w.during wait s)

/-- It can be told whether an identity is due if the calendar reaches back that far. -/
theorem expiresWithin_ok {window : Int} {i : Identity} (h : ∀ t, i.expiration = some t → (t.add? (-window)).isSome)
    (now : Instant) : ∃ due, expiresWithin window i now = .ok due := by
  unfold expiresWithin
  cases ht : i.expiration with
  | none => exact ⟨false, rfl⟩
  | some t =>
    obtain ⟨start, hstart⟩ := Option.isSome_iff_exists.1 (h t ht)
    exact ⟨decide (start.micros ≤ now.micros), by simp only [hstart]⟩

/-- Whether an identity is due is found out where the calendar reaches back far enough. -/
theorem delivers_isDue {window : Int} {i : Identity} (h : ∀ t, i.expiration = some t → (t.add? (-window)).isSome) :
    (r.isDue window i).Delivers w I (fun _ => True) Failure.IsLack := by
  refine (Program.delivers_read r.now).bind fun now _ => Program.delivers_ofExcept ?_
  obtain ⟨due, hdue⟩ := expiresWithin_ok h now
  rw [hdue]
  exact trivial

namespace Keeping

variable (h : r.Keeping w I) (hfetch : r.fetch.Delivers w I r.Fit Failure.IsLack)
include h

/-- What is read from the slot is fit. -/
theorem delivers_cached : r.cached.Delivers w I (fun x => ∀ i, x = some i → r.Fit i) Failure.IsLack :=
  (Program.delivers_read _).mono (fun _ ⟨s, hs, hx⟩ i hi => h.fit s i hs (hx.trans hi)) fun _ hf => hf

/-- A background task may be noted at any time. -/
theorem delivers_note (background : Option TaskId) :
    (Program.change (r.slot.modify fun state => { state with background })).Delivers w I (fun _ => True) Failure.IsLack :=
  Program.delivers_change fun s hs => h.set _ s hs fun i hi => h.fit s i hs hi

/-- Starting a background task comes to an end and keeps things as they should be. -/
theorem delivers_startBackground : r.startBackground.Delivers w I (fun _ => True) Failure.IsLack := by
  have hnew : (Program.start r.refreshInBackground >>= fun t =>
      Program.change (r.slot.modify fun state => { state with background := some t })).Delivers w I (fun _ => True)
        Failure.IsLack := by
    have hstart : (Program.start r.refreshInBackground).Delivers w I (fun _ => True) Failure.IsLack :=
      fun s hs => ⟨trivial, hs⟩
    exact hstart.bind fun t _ => h.delivers_note (some t)
  refine (Program.delivers_read _).bind fun background _ => ?_
  cases background with
  | none => exact hnew
  | some t =>
    have hatWork : ((!·) <$> Program.ended t : Program σ Bool).Delivers w I (fun _ => True) Failure.IsLack :=
      fun s hs => ⟨trivial, hs⟩
    refine hatWork.bind fun atWork _ => ?_
    cases atWork with
    | true => exact Program.delivers_value trivial
    | false => exact hnew

include hfetch

/-- A fetch gives an identity fit to be kept, or the lack of credentials. -/
theorem delivers_fetchAndKeep : r.fetchAndKeep.Delivers w I r.Fit Failure.IsLack := by
  refine hfetch.bind fun i hi => ?_
  have hkeep : (Program.change (r.slot.modify fun state => { state with cached := some i })).Delivers w I (fun _ => True)
      Failure.IsLack := Program.delivers_change fun s hs => h.set _ s hs fun j hj => Option.some.inj hj ▸ hi
  exact hkeep.bind fun _ _ => Program.delivers_value hi

/-- A fetch under the lock gives an identity fit to be handed out, or the lack of credentials. -/
theorem delivers_refresh : r.refresh.Delivers w I r.Fit Failure.IsLack := by
  refine Program.delivers_withLock h.others (h.delivers_cached.bind fun x hx => ?_)
  cases x with
  | none => exact h.delivers_fetchAndKeep hfetch
  | some i =>
    have hfit := hx i rfl
    refine (delivers_isDue fun t ht => (hfit.2 t ht).1).bind fun due _ => ?_
    cases due with
    | true => exact h.delivers_fetchAndKeep hfetch
    | false => exact Program.delivers_value hfit

/-- If every fetch ends as promised with an identity that is fit to be kept, then so does every call. -/
theorem delivers_identity : r.identity.Delivers w I r.Fit Failure.IsLack := by
  refine h.delivers_cached.bind fun x hx => ?_
  cases x with
  | none => exact h.delivers_refresh hfetch
  | some i =>
    have hfit := hx i rfl
    refine (delivers_isDue fun t ht => (hfit.2 t ht).1).bind fun due _ => ?_
    cases due with
    | true => exact h.delivers_refresh hfetch
    | false =>
      cases hpre : r.prefetches with
      | false => exact Program.delivers_value hfit
      | true =>
        refine (delivers_isDue fun t ht => (hfit.2 t ht).2 hpre).bind fun early _ => ?_
        cases early with
        | true => exact h.delivers_startBackground.bind fun _ _ => Program.delivers_value hfit
        | false => exact Program.delivers_value hfit

end Keeping

end Refreshing

end SignedCall
