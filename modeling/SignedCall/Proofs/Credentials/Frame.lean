import SignedCall.Credentials.Container
import SignedCall.Credentials.Instance
import SignedCall.Proofs.Task.Frame

/-!
# What the search for credentials leaves alone

A search for credentials changes what is kept for it, and beyond that only what its host changes. So a part of the state that the
host leaves alone (`Host.Leaves`), and that stands apart from the slots of a resolver, is the same after each of its steps. Main
statements: `Refreshing.identity_keeps`, `Container.fetch_keeps` and `Instance.fetch_keeps`.
-/

namespace SignedCall

variable {σ τ υ : Type} {part : σ → τ} {host : Host σ}

/-- A host whose requests, draws and sleeps leave a part of the state alone. -/
structure Host.Leaves (host : Host σ) (part : σ → τ) : Prop where
  draws : host.draws.Apart part
  send : ∀ request, (host.send request).Keeps part
  sendWithin : ∀ limit request, (host.sendWithin limit request).Keeps part
  sleep : ∀ delay, (host.sleep delay).Keeps part

/-- What a host leaves alone it leaves alone with all that is read from it. -/
theorem Host.Leaves.map (h : host.Leaves part) (f : τ → υ) : host.Leaves fun s => f (part s) where
  draws x s := congrArg f (h.draws x s)
  send request := (h.send request).map f
  sendWithin limit request := (h.sendWithin limit request).map f
  sleep delay := (h.sleep delay).map f

namespace Refreshing

variable {r : Refreshing σ}

theorem isDue_keeps (window : Int) (i : Identity) : (r.isDue window i).Keeps part :=
  (Program.keeps_read part _).bind fun _ => Program.keeps_ofExcept part _

/-- A call that waits leaves alone what a fetch whose identity is kept leaves alone. -/
theorem refresh_keeps_of (h : r.fetchAndKeep.Keeps part) : r.refresh.Keeps part := by
  refine Program.Keeps.withLock ((Program.keeps_read part _).bind fun found => ?_) r.lock
  cases found with
  | none => exact h
  | some i =>
    refine (isDue_keeps r.staleTime i).bind fun due => ?_
    cases due with
    | true => exact h
    | false => exact trivial

/-- And so does a background task. -/
theorem refreshInBackground_keeps_of (h : r.fetchAndKeep.Keeps part) : r.refreshInBackground.Keeps part :=
  (h.withLock r.lock).attempt.bind fun _ => trivial

variable (hslot : r.slot.Apart part) (hfetch : r.fetch.Keeps part)
include hslot hfetch

theorem fetchAndKeep_keeps : r.fetchAndKeep.Keeps part :=
  hfetch.bind fun _ => (Program.keeps_change fun s => hslot _ s).bind fun _ => trivial

/-- A fetch under the lock leaves alone what the fetch leaves alone. -/
theorem refresh_keeps : r.refresh.Keeps part := refresh_keeps_of (fetchAndKeep_keeps hslot hfetch)

/-- Starting a background task leaves alone what the task leaves alone. -/
theorem startBackground_keeps : r.startBackground.Keeps part := by
  have hbody : r.refreshInBackground.Keeps part := refreshInBackground_keeps_of (fetchAndKeep_keeps hslot hfetch)
  have hstart : (Program.start r.refreshInBackground).Keeps part := ⟨hbody, fun _ => trivial⟩
  have hnew : (Program.start r.refreshInBackground >>= fun t =>
      Program.change (r.slot.modify fun state => { state with background := some t })).Keeps part :=
    hstart.bind fun _ => Program.keeps_change fun s => hslot _ s
  refine (Program.keeps_read part _).bind fun background => ?_
  cases background with
  | none => exact hnew
  | some t =>
    have hatWork : ((!·) <$> Program.ended t : Program σ Bool).Keeps part := fun _ => trivial
    refine hatWork.bind fun atWork => ?_
    cases atWork with
    | true => exact trivial
    | false => exact hnew

/-- A call leaves alone what its fetch leaves alone and what stands apart from what is kept. -/
theorem identity_keeps : r.identity.Keeps part := by
  refine (Program.keeps_read part _).bind fun found => ?_
  cases found with
  | none => exact refresh_keeps hslot hfetch
  | some i =>
    refine (isDue_keeps r.staleTime i).bind fun stale => ?_
    cases stale with
    | true => exact refresh_keeps hslot hfetch
    | false =>
      cases r.prefetches with
      | false => exact trivial
      | true =>
        refine (isDue_keeps r.prefetchTime i).bind fun early => ?_
        cases early with
        | true => exact (startBackground_keeps hslot hfetch).bind fun _ => trivial
        | false => exact trivial

end Refreshing

namespace Container

variable (h : host.Leaves part)
include h

/-- Asking some times leaves alone what the host leaves alone. -/
theorem askUpTo_keeps (config : ContainerConfig) (request : Request) (n : Nat) (last : Option Failure) :
    (askUpTo host config request n last).Keeps part := by
  induction n generalizing last with
  | zero => exact trivial
  | succ n ih =>
    have hanswer : (do Program.ofExcept (document (← host.sendWithin config.timeout request)) : Program σ Json).Keeps part :=
      (h.sendWithin _ _).bind fun _ => Program.keeps_ofExcept part _
    refine hanswer.attempt.bind fun answer => ?_
    cases answer with
    | ok j => exact trivial
    | error f =>
      dsimp only
      split
      · exact ih (some f)
      · exact (h.sleep _).bind fun _ => ih (some f)

/-- A fetch leaves alone what its host leaves alone. -/
theorem fetch_keeps (config : ContainerConfig) : (fetch host config).Keeps part := by
  have htoken : ∀ environment, (token host environment).Keeps part := by
    intro environment
    unfold token
    split
    · exact (Program.keeps_onThread part _).bind fun _ => trivial
    · exact trivial
  have hask : ∀ request, (ask host config request).Keeps part := by
    intro request
    unfold ask
    split
    · exact askUpTo_keeps h config _ _ none
    · exact trivial
  refine (Program.keeps_read part _).bind fun environment => (Program.keeps_ofExcept part _).bind fun b => ?_
  refine (htoken environment).bind fun token => (hask _).bind fun j => ?_
  exact (Program.keeps_ofExcept part _).bind fun c => trivial

end Container

namespace MetadataClient

variable {client : MetadataClient σ} (h : client.host.Leaves part) (hslot : client.slot.Apart part)

/-- A request for metadata leaves alone what the host leaves alone. -/
theorem request_keeps (method path header value : String) : (client.request method path header value).Keeps part :=
  Program.keeps_ofExcept part _

include h hslot

/-- Getting a token leaves alone what the host leaves alone and what stands apart from the token. -/
theorem token_keeps : client.token.Keeps part := by
  have hfetch : client.fetchToken.Keeps part := by
    refine (request_keeps _ _ _ _).bind fun request => (h.send request).bind fun r => ?_
    split
    · exact trivial
    · refine (Program.keeps_ofExcept part _).bind fun value => (Program.keeps_read part _).bind fun now => ?_
      exact Program.keeps_change fun s => hslot _ s
  have hrenew : client.renewToken.Keeps part := by
    refine (Program.keeps_read part _).bind fun found => ?_
    split
    · exact hfetch
    · exact trivial
  have hfound : (do Program.ofExcept (found (← Program.read client.slot.get)) : Program σ SessionToken).Keeps part :=
    (Program.keeps_read part _).bind fun _ => Program.keeps_ofExcept part _
  refine (Program.keeps_read part _).bind fun found => ?_
  dsimp only
  split
  · exact (hrenew.withLock client.lock).bind fun _ => hfound
  · exact hfound

theorem readOnce_keeps (path : String) : (client.readOnce path).Keeps part := by
  have hinvalidate : (client.invalidate >>= fun _ => throw tokenRejected : Program σ String).Keeps part :=
    (Program.keeps_change fun s => hslot _ s).bind fun _ => trivial
  refine (token_keeps h hslot).bind fun token => (request_keeps _ _ _ _).bind fun request => (h.send request).bind fun r => ?_
  dsimp only
  split
  · exact hinvalidate
  · split
    · exact trivial
    · exact Program.keeps_ofExcept part _

/-- Reading again after a delay leaves alone what reading leaves alone. -/
theorem readAfterDelay_keeps (path : String) {again : Option (RetryToken → Program σ String)}
    (hagain : ∀ next, again = some next → ∀ token, (next token).Keeps part) (token : RetryToken) :
    (client.readAfterDelay path again token).Keeps part := by
  have hafter : ∀ f, (client.afterFailure again token f).Keeps part := by
    intro f
    refine (Program.keeps_read part _).bind fun draws => ?_
    split
    next next _ => exact (Program.keeps_change fun s => h.draws _ s).bind fun _ => hagain next rfl _
    next => exact trivial
    next => exact trivial
  have hattempt : ∀ {next : Except Failure String → Program σ String}, (∀ text, next (.ok text) = .done (.value text)) →
      (∀ f, next (.error f) = client.afterFailure again token f) → ((client.readOnce path).attempt >>= next).Keeps part := by
    intro next hok herror
    refine (readOnce_keeps h hslot path).attempt.bind fun answer => ?_
    cases answer with
    | ok text => rw [hok]; exact trivial
    | error f => rw [herror]; exact hafter f
  unfold readAfterDelay
  split
  · exact hattempt (fun _ => rfl) fun _ => rfl
  · exact (h.sleep _).bind fun _ => hattempt (fun _ => rfl) fun _ => rfl

/-- Reading leaves alone what the host leaves alone and what stands apart from the token. -/
theorem read_keeps (path : String) : (client.read path).Keeps part := by
  have hfrom : ∀ left token, (client.readFrom path left token).Keeps part := by
    intro left
    induction left with
    | zero => exact readAfterDelay_keeps h hslot path nofun
    | succ left ih =>
      refine readAfterDelay_keeps h hslot path fun next hnext => ?_
      cases hnext
      exact ih
  exact hfrom _ _

end MetadataClient

/-- A fetch leaves alone what reading leaves alone. -/
theorem Instance.fetch_keeps {client : MetadataClient σ} (h : client.host.Leaves part) (hslot : client.slot.Apart part) :
    (Instance.fetch client).Keeps part := by
  have hread : (Instance.readDocument client).Keeps part := by
    unfold Instance.readDocument
    cases client.config.profileName with
    | some profile => exact client.read_keeps h hslot _
    | none =>
      have hprofile : (Text.strip <$> client.read Instance.basePath : Program σ String).Keeps part :=
        (client.read_keeps h hslot _).bind fun _ => trivial
      exact hprofile.bind fun _ => client.read_keeps h hslot _
  refine (Program.keeps_read part _).bind fun environment => ?_
  split
  · exact trivial
  · refine hread.attempt.bind fun answer => ?_
    cases answer with
    | error f => exact trivial
    | ok text =>
      dsimp only
      split
      · exact trivial
      · exact (Program.keeps_ofExcept part _).bind fun c => trivial

end SignedCall
