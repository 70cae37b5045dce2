import SignedCall.Proofs.Container.Hosts
import SignedCall.Proofs.Container.Notes
import SignedCall.Proofs.Credentials.Pieces
import SignedCall.Proofs.Rehearsal
import SignedCall.Proofs.Task.Discipline
import SignedCall.Proofs.Task.Play
import SignedCall.Task.Session

/-!
# Where container credentials are asked for

Calls and closings of a resolver for container credentials may be interleaved and cancelled in any way, and the environment, the
files and the replies may be anything. Each request that is handed over goes to a host that may be asked, and its URL leads to that
host. A fetch that begins in an environment that names no such host hands over nothing and does not succeed
(`asks_only_trusted_hosts`). Every run without notes is such a run but for the notes (`exists_recorded`).
-/

namespace SignedCall.Container

variable {σ : Type} {host : Host σ} {config : ContainerConfig} {slot : Slot σ RefreshState} {lock : LockId} {prefetches : Bool}

/-- Whether a request goes to where an environment leads, which is a host that may be asked. -/
def LeadsTo (environment : FieldMap String) (request : Request) : Prop :=
  ∃ b, requestOf environment = .ok b ∧ Trusted b.host ∧ SameAuthority b.build request

/-- The notes of a fetch so far: where it began, and the requests that it has handed over, each to where the environment led then. -/
def InFetch (host : Host σ) (cur : List (ContainerNote σ)) (s : σ) : Prop :=
  ∃ sends, cur = (.began, s) :: sends ∧ ∀ e ∈ sends, ∃ request, e.1 = .sent request ∧ LeadsTo (host.environment s) request

/-- What may be noted of a fetch after its other notes. -/
def MayNote (host : Host σ) (cur : List (ContainerNote σ)) (e : ContainerNote σ) : Prop :=
  match e.1 with
  | .began => cur = []
  | .sent request => ∃ s, InFetch host cur s ∧ LeadsTo (host.environment s) request
  | .ended o => ∃ s, InFetch host cur s ∧ ∀ i, o = .value i → ∃ request, LeadsTo (host.environment s) request

/-- What the tasks keep to that fetch container credentials. -/
def discipline (host : Host σ) : Discipline σ Unit (ContainerNote σ) where
  part _ := ()
  rests _ _ := True
  ends e := e.1.isEnd
  may := MayNote host

/-- An environment that is refused leads nowhere. -/
theorem Refuses.not_leadsTo {environment : FieldMap String} (h : Refuses environment) (request : Request) :
    ¬LeadsTo environment request := by
  rintro ⟨b, hb, htrusted, -⟩
  exact h.not_trusted hb htrusted

/-- A fetch may hand over one more request that goes to where the environment leads. -/
theorem InFetch.concat {cur : List (ContainerNote σ)} {s₀ : σ} (h : InFetch host cur s₀) {request : Request}
    (hleads : LeadsTo (host.environment s₀) request) (s : σ) : InFetch host (cur ++ [(.sent request, s)]) s₀ := by
  obtain ⟨sends, rfl, hsends⟩ := h
  refine ⟨sends ++ [(.sent request, s)], rfl, fun e he => ?_⟩
  rcases List.mem_append.1 he with he | he
  · exact hsends e he
  · obtain rfl := List.mem_singleton.1 he
    exact ⟨request, rfl, hleads⟩

/-- A fetch that began in an environment that refuses has handed over nothing. -/
theorem InFetch.eq_singleton {cur : List (ContainerNote σ)} {s : σ} (h : InFetch host cur s)
    (hrefuses : Refuses (host.environment s)) : cur = [(.began, s)] := by
  obtain ⟨sends, rfl, hsends⟩ := h
  cases sends with
  | nil => rfl
  | cons e rest =>
    obtain ⟨request, -, hleads⟩ := hsends e List.mem_cons_self
    exact absurd hleads (hrefuses.not_leadsTo request)

/-! ## The parts of a fetch -/

/-- What leaves the journal alone adds nothing to the notes of the fetch. -/
theorem follows_beside {α : Type} {p : Program (σ × List (ContainerNote σ)) α} (hp : p.Keeps Prod.snd)
    (cur : List (ContainerNote σ)) (s : σ × List (ContainerNote σ)) :
    p.Follows (discipline host) (fun _ cur' _ => cur' = cur) cur s :=
  (Program.Follows.of_keeps (d := discipline host) (hp.map fun js => ((), js)) cur trivial).mono fun _ _ _ h => h.1

/-- All attempts hand over the same request. -/
theorem follows_askUpTo {s₀ : σ} {request : Request} (hleads : LeadsTo (host.environment s₀) request) (n : Nat)
    (last : Option Failure) {cur : List (ContainerNote σ)} (hcur : InFetch host cur s₀) (s : σ × List (ContainerNote σ)) :
    (askUpTo (notedHost host) config request n last).Follows (discipline host) (fun _ cur' _ => InFetch host cur' s₀) cur s := by
  induction n generalizing last cur s with
  | zero => exact hcur
  | succ n ih =>
    have hsent : ((notedHost host).sendWithin config.timeout request).Follows (discipline host)
        (fun _ cur' _ => InFetch host cur' s₀) cur s := by
      have hmay : MayNote host cur (.sent request, s.1) := ⟨s₀, hcur, hleads⟩
      refine Program.Follows.announced hmay ((follows_beside (Program.beside_keeps _) _ _).mono ?_)
      rintro _ _ _ rfl
      exact hcur.concat hleads s.1
    have hanswer : (do Program.ofExcept (document (← (notedHost host).sendWithin config.timeout request)) :
        Program (σ × List (ContainerNote σ)) Json).Follows (discipline host) (fun _ cur' _ => InFetch host cur' s₀) cur s := by
      refine hsent.bind (fun r cur s h => ?_) (fun _ _ _ h => h) (fun _ _ h => h)
      refine (follows_beside (Program.keeps_ofExcept _ _) cur s).mono ?_
      rintro _ _ _ rfl
      exact h
    refine hanswer.attempt (fun j _ _ h => h) (fun f cur s h => ?_) (fun _ _ h => h)
    dsimp only
    split
    · exact ih (some f) h s
    · refine (follows_beside (Program.beside_keeps (host.sleep config.retryDelay.toBinary64)) cur s).bind ?_ ?_ ?_
      · rintro _ _ s rfl
        exact ih (some f) h s
      · rintro _ _ _ rfl
        exact h
      · rintro _ _ rfl
        exact h

/-- What holds at the end of a fetch that began in a state, before its outcome is noted. -/
def Fetched (host : Host σ) (s₀ : σ) {α : Type} (o : Outcome α) (cur : List (ContainerNote σ)) (_ : σ × List (ContainerNote σ)) :
    Prop :=
  InFetch host cur s₀ ∧ ∀ a, o = .value a → ∃ request, LeadsTo (host.environment s₀) request

/-- Only a host that may be asked is asked. -/
theorem follows_ask {s₀ : σ} {b : RequestBuilder} (hb : requestOf (host.environment s₀) = .ok b) {request : Request}
    (hsame : SameAuthority b.build request) {cur : List (ContainerNote σ)} (hcur : InFetch host cur s₀)
    (s : σ × List (ContainerNote σ)) :
    (ask (notedHost host) config request).Follows (discipline host) (Fetched host s₀) cur s := by
  unfold ask
  by_cases hallowed : isAllowed request.host = true
  · have hhost : request.host = b.host := hsame.host
    have hleads : LeadsTo (host.environment s₀) (request.toBuilder.setHeader "Accept" "application/json").build :=
      ⟨b, hb, hhost ▸ (isAllowed_iff _).1 hallowed, hsame.scheme, hsame.host, hsame.port⟩
    rw [if_pos hallowed]
    exact (follows_askUpTo hleads config.retries.toNat none hcur s).mono fun o cur s h => ⟨h, fun _ _ => ⟨_, hleads⟩⟩
  · rw [if_neg hallowed]
    exact ⟨hcur, nofun⟩

/-- Finding the token of a request makes no notes. -/
theorem keeps_token (environment : FieldMap String) : (token (notedHost host) environment).Keeps Prod.snd := by
  unfold token
  split
  · exact (Program.keeps_onThread _ _).bind fun _ => trivial
  · exact trivial

/-- A fetch hands over nothing but requests to where the environment leads. -/
theorem follows_fetch {s : σ × List (ContainerNote σ)} {cur : List (ContainerNote σ)} (hcur : InFetch host cur s.1) :
    (fetch (notedHost host) config).Follows (discipline host) (Fetched host s.1) cur s := by
  refine Program.follows_read ?_
  change (Program.ofExcept (requestOf (host.environment s.1)) >>= _).Follows _ _ _ _
  cases hb : requestOf (host.environment s.1) with
  | error f => exact ⟨hcur, nofun⟩
  | ok b =>
    refine (follows_beside (keeps_token (host.environment s.1)) cur s).bind ?_ ?_ ?_
    · rintro x _ s' rfl
      have hsame : SameAuthority b.build (authorized b x).build := by cases x <;> exact ⟨rfl, rfl, rfl⟩
      refine (follows_ask hb hsame hcur s').bind (fun j cur s' h => ?_) (fun f cur s' h => ⟨h.1, nofun⟩) (fun cur s' h => ⟨h.1, nofun⟩)
      cases (CredentialsDocument.read j "container").mapError DocumentFault.failure with
      | error f => exact ⟨h.1, nofun⟩
      | ok c => exact ⟨h.1, fun _ _ => h.2 j rfl⟩
    · rintro f _ _ rfl
      exact ⟨hcur, nofun⟩
    · rintro _ _ rfl
      exact ⟨hcur, nofun⟩

/-- A fetch that makes notes keeps the discipline. -/
theorem follows_notedFetch (s : σ × List (ContainerNote σ)) :
    (notedFetch host config).Follows (discipline host) (discipline host).Ended [] s := by
  have hbegun : InFetch host [(.began, s.1)] s.1 := ⟨[], rfl, by simp⟩
  have hfetch : ((fetch (notedHost host) config).reported fun o s => (.ended o, s)).Follows (discipline host) (discipline host).Ended
      [(.began, s.1)] (inscribe (.began, ·) s) := by
    refine Program.Follows.reported (follows_fetch (s := inscribe (.began, ·) s) hbegun) ?_
    rintro o cur s' ⟨hcur, hvalue⟩
    exact ⟨⟨s.1, hcur, hvalue⟩, rfl, trivial⟩
  exact Program.Follows.announced (show MayNote host [] (.began, s.1) from rfl) hfetch

/-! ## Runs -/

/-- What a task may do with a resolver for container credentials: call, close, and anything that makes no notes. -/
inductive Use (host : Host σ) (config : ContainerConfig) (slot : Slot σ RefreshState) (lock : LockId) (prefetches : Bool) :
    ∀ α : Type, Program (σ × List (ContainerNote σ)) α → Prop
  | other {α : Type} {p : Program (σ × List (ContainerNote σ)) α} : p.Keeps (discipline host).view →
      Use host config slot lock prefetches α p
  | call : Use host config slot lock prefetches Identity (notedResolver host config slot lock prefetches).identity
  | close : Use host config slot lock prefetches Unit (notedResolver host config slot lock prefetches).close

/-- The points of runs that begin with nothing noted, with who made which note on the way. Tasks have their turns, are woken,
cancelled or made, and the state changes in any way. -/
def Recorded (host : Host σ) (config : ContainerConfig) (slot : Slot σ RefreshState) (lock : LockId) (prefetches : Bool) :
    Pool (σ × List (ContainerNote σ)) → Record (ContainerNote σ) → Prop :=
  Pool.Recorded (fun s => s.2 = []) (Move.Within (Use host config slot lock prefetches) (discipline host).view)

/-- Whatever a task may do with a resolver for container credentials keeps the discipline. -/
theorem follows_use {α : Type} {p : Program (σ × List (ContainerNote σ)) α} (hp : Use host config slot lock prefetches α p)
    (s : σ × List (ContainerNote σ)) : p.Follows (discipline host) (discipline host).Ended [] s := by
  have hslot : (notedResolver host config slot lock prefetches).slot.Apart Prod.snd := fun _ _ => rfl
  have hpiece : ∀ α p, (notedResolver host config slot lock prefetches).Piece α p → ∀ s, (discipline host).Rests s →
      p.Follows (discipline host) (discipline host).Ended [] s := by
    intro α p hp s _
    cases hp with
    | fetch => exact follows_notedFetch s
    | quiet hkeeps => exact (follows_beside hkeeps [] s).mono fun _ _ _ h => ⟨h, trivial⟩
  cases hp with
  | other hkeeps => exact Program.Follows.of_keeps hkeeps [] trivial
  | call => exact Program.follows_built hpiece (Refreshing.built_identity hslot) trivial
  | close => exact Program.follows_built hpiece (Refreshing.built_close hslot) trivial

variable {p : Pool (σ × List (ContainerNote σ))} {record : Record (ContainerNote σ)}

/-- In every run the notes of each task are proper. -/
theorem Recorded.proper (h : Recorded host config slot lock prefetches p record) :
    p.state.2 = record.journal ∧ ∀ t, Proper (fun e => e.1.isEnd) (MayNote host) (record.trail t) := by
  obtain ⟨hjournal, -, hproper⟩ := Pool.Recorded.disciplined (d := discipline host) (fun s hs => ⟨hs, trivial⟩)
    (fun _ => Pool.admits_of_within fun _ _ hp s _ => follows_use hp s) h
  exact ⟨hjournal, hproper⟩

/-- The notes of the fetch in hand, where a task has noted some. -/
theorem exists_of_inFetch {cur : List (ContainerNote σ)} {s₀ : σ} (h : InFetch host cur s₀) :
    ∃ sends, cur = (.began, s₀) :: sends ∧ (∀ e ∈ sends, e.1.isSent = true) ∧ (Refuses (host.environment s₀) → sends = []) := by
  have hrefuses := h.eq_singleton
  obtain ⟨sends, rfl, hsends⟩ := h
  refine ⟨sends, rfl, fun e he => ?_, fun hr => (List.cons.inj (hrefuses hr)).2⟩
  obtain ⟨request, hsent, -⟩ := hsends e he
  rw [hsent]
  rfl

/-- A host that may not be asked is refused before anything else happens. -/
theorem ask_of_not_trusted {request : Request} (h : ¬Trusted request.host) :
    ask host config request = throw (unsupportedHost request.host) := by
  unfold ask
  rw [if_neg fun hallowed => h ((isAllowed_iff _).1 hallowed)]
  rfl

/-- The token is there or cannot be read, unless the wait for its file is cancelled. -/
theorem play_token {environment : FieldMap String} {reactions : Nat → Reaction σ} {s : σ}
    (h : ((token host environment).play reactions s).1 = .cancelled) : (reactions 0).outcome = .cancelled := by
  unfold token at h
  split at h
  · next name _ =>
    change ((Program.andThen (.await .turn .done) _ |>.andThen _).play reactions s).1 = _ at h
    simp only [Program.andThen, Program.play] at h
    cases ho : (reactions 0).outcome with
    | value u =>
      rw [ho] at h
      change (((Program.ofExcept (tokenIn (host.files _) name)).andThen _).play _ _).1 = _ at h
      cases hread : tokenIn (host.files ((reactions 0).change s)) name with
      | ok x =>
        rw [hread] at h
        cases h
      | error f =>
        rw [hread] at h
        cases h
    | failed f =>
      rw [ho] at h
      cases h
    | cancelled => rfl
  · cases h

/-- Whatever it meets, a fetch that begins in an environment that refuses fails, unless it is cancelled while it waits. -/
theorem play_fetch_of_refuses {s : σ} (h : Refuses (host.environment s)) (reactions : Nat → Reaction σ) :
    (∃ f, ((fetch host config).play reactions s).1 = .failed f) ∨
      ((fetch host config).play reactions s).1 = .cancelled ∧ ∃ n, (reactions n).outcome = .cancelled := by
  unfold fetch
  change (∃ f, ((Program.ofExcept (requestOf (host.environment s)) >>= _).play reactions s).1 = .failed f) ∨
    ((Program.ofExcept (requestOf (host.environment s)) >>= _).play reactions s).1 = .cancelled ∧ _
  cases hb : requestOf (host.environment s) with
  | error f => exact .inl ⟨f, rfl⟩
  | ok b =>
    have hhost : ¬Trusted b.host := h.not_trusted hb
    obtain ⟨m, hm⟩ := Program.play_andThen (token host (host.environment s)) _ reactions s
    change (∃ f, (((token host (host.environment s)).andThen _).play reactions s).1 = .failed f) ∨
      (((token host (host.environment s)).andThen _).play reactions s).1 = .cancelled ∧ _
    rw [hm]
    cases ho : ((token host (host.environment s)).play reactions s).1 with
    | value x =>
      refine .inl ?_
      change ∃ f, ((ask host config _ >>= _).play _ _).1 = .failed f
      rw [ask_of_not_trusted]
      · exact ⟨_, rfl⟩
      · cases x <;> exact hhost
    | failed f => exact .inl ⟨f, rfl⟩
    | cancelled => exact .inr ⟨rfl, 0, play_token ho⟩

/-- Take any run in which calls, closings and other work are interleaved and cancelled, while the environment, the files and the
replies are anything. Each request that a fetch hands over goes to an address of the machine itself or to one of the listed hosts, its
URL is read as one for that host, and the environment in which the fetch began does not refuse. A fetch that began in an environment
that refuses has handed over nothing when it ends, and gives no identity: it fails unless it is cancelled. -/
theorem asks_only_trusted_hosts (h : Recorded host config slot lock prefetches p record) :
    p.state.2 = record.journal ∧
      (∀ t js request s ks, record.trail t = js ++ (.sent request, s) :: ks → Trusted request.host ∧
        (∀ method, ∃ b, RequestBuilder.ofUrl request.url method = .ok b ∧ b.host = request.host) ∧
        ∃ before s₀ sends, js = before ++ (.began, s₀) :: sends ∧ (∀ e ∈ sends, e.1.isSent = true) ∧
          ¬Refuses (host.environment s₀)) ∧
      (∀ t js o s ks, record.trail t = js ++ (.ended o, s) :: ks →
        ∃ before s₀ sends, js = before ++ (.began, s₀) :: sends ∧ (∀ e ∈ sends, e.1.isSent = true) ∧
          (Refuses (host.environment s₀) → sends = [] ∧ ∀ i, o ≠ .value i)) ∧
      ∀ s reactions, Refuses (host.environment s) → (∃ f, ((fetch host config).play reactions s).1 = .failed f) ∨
        ((fetch host config).play reactions s).1 = .cancelled ∧ ∃ n, (reactions n).outcome = .cancelled := by
  obtain ⟨hjournal, hproper⟩ := h.proper
  refine ⟨hjournal, fun t js request s ks hsplit => ?_, fun t js o s ks hsplit => ?_,
    fun s reactions hr => play_fetch_of_refuses hr reactions⟩
  · obtain ⟨before, cur, rfl, s₀, hcur, b, hb, htrusted, hsame⟩ := (hproper t).split hsplit
    obtain ⟨sends, rfl, hsends, -⟩ := exists_of_inFetch hcur
    have hhost : request.host = b.host := hsame.host
    exact ⟨hhost ▸ htrusted, ofUrl_of_requestOf hb htrusted hsame, before, s₀, sends, rfl, hsends,
      fun hr => hr.not_trusted hb htrusted⟩
  · obtain ⟨before, cur, rfl, s₀, hcur, hvalue⟩ := (hproper t).split hsplit
    obtain ⟨sends, rfl, hsends, hnone⟩ := exists_of_inFetch hcur
    refine ⟨before, s₀, sends, rfl, hsends, fun hr => ⟨hnone hr, fun i hi => ?_⟩⟩
    obtain ⟨request, hleads⟩ := hvalue i hi
    exact hr.not_leadsTo request hleads

/-! ## Runs without notes -/

/-- What a task may do, without notes: call, close, and anything else. -/
inductive PlainUse (host : Host σ) (config : ContainerConfig) (slot : Slot σ RefreshState) (lock : LockId) (prefetches : Bool) :
    ∀ α : Type, Program σ α → Prop
  | other {α : Type} (q : Program σ α) : PlainUse host config slot lock prefetches α q
  | call : PlainUse host config slot lock prefetches Identity (Refreshing.ofContainer host config slot lock prefetches).identity
  | close : PlainUse host config slot lock prefetches Unit (Refreshing.ofContainer host config slot lock prefetches).close

/-- What a task may do without notes it may do with notes, too. -/
theorem PlainUse.noting {α : Type} {q : Program σ α} (hq : PlainUse host config slot lock prefetches α q) :
    ∃ p, Use host config slot lock prefetches α p ∧ p.Noting q := by
  cases hq with
  | other => exact ⟨q.beside, .other ((Program.beside_keeps q).map fun js => ((), js)), Program.noting_beside q⟩
  | call => exact ⟨_, .call, identity_noting⟩
  | close => exact ⟨_, .close, close_noting⟩

/-- Every run of tasks that call and close is one with notes, but for the notes. -/
theorem exists_recorded {q : Pool σ}
    (hq : Pool.Reached (fun _ => True) (Move.Within (PlainUse host config slot lock prefetches) fun _ => ()) q) :
    ∃ p record, Recorded host config slot lock prefetches p record ∧ p.Noting q := by
  obtain ⟨p, record, hrecord, hnoting⟩ := hq.exists_recorded_noting fun _ _ hq => hq.noting
  simp only [true_and] at hrecord
  exact ⟨p, record, hrecord, hnoting⟩

/-! ## A rehearsal -/

/-- What a rehearsal takes place in: what is kept, and all else. -/
abbrev Stage := RefreshState × Rehearsal

/-- A host for rehearsals. -/
def rehearsed : Host Stage := Rehearsal.host Slot.snd

/-- A task that calls once. -/
def caller : Program (Stage × List (ContainerNote Stage)) Unit :=
  (notedResolver rehearsed {} Slot.fst 0 false).identity.andThen fun o => .done o.withoutValue

/-- The URL has an address of the machine itself in front of its host. -/
def opening : Stage :=
  ({}, { now := Rehearsal.start, environment := ⟨[(urlVariable, "http://127.0.0.1@example.com/")], by decide⟩ })

/-- The path looks like a host after user information. -/
def redirected : FieldMap String := ⟨[(pathVariable, "@example.com/")], by decide⟩

/-- A caller before the environment changes, and one after. -/
def twoCallers : List (Move (Stage × List (ContainerNote Stage))) :=
  [.start caller, .turn 0, .change fun s => ((s.1.1, { s.1.2 with environment := redirected }), s.2), .start caller, .turn 1]

/-- Both callers do what a task may do, and the environment may change between them. -/
theorem within_twoCallers : ∀ m ∈ twoCallers, m.Within (Use rehearsed {} Slot.fst 0 false) (discipline rehearsed).view := by
  have hcaller : caller.Built (Use rehearsed {} Slot.fst 0 false) := .andThen (.piece .call) fun _ => .piece (.other trivial)
  simp [twoCallers, Move.Within, hcaller, Discipline.view, discipline]

/-- The first caller hands over nothing. The request of the second one goes to the default host, and so does its URL. -/
theorem asks_only_trusted_hosts_twoCallers :
    let p := Pool.steps { state := (opening, []) } twoCallers
    ∃ record, Recorded rehearsed {} Slot.fst 0 false p record ∧ Refuses (rehearsed.environment opening) ∧
      (∃ s o s', record.trail 0 = [(.began, s), (.ended o, s')] ∧ ∀ i, o ≠ .value i) ∧
      ∃ s request s', record.trail 1 = [(.began, s), (.sent request, s')] ∧ request.path = "@example.com/" ∧
        ∃ b, RequestBuilder.ofUrl request.url "GET" = .ok b ∧ b.host = defaultHost := by
  intro p
  have hstart : Recorded rehearsed {} Slot.fst 0 false { state := (opening, []) } [] := .start rfl
  have hrecorded : Recorded rehearsed {} Slot.fst 0 false p (Pool.recordedAll { state := (opening, []) } twoCallers) :=
    Pool.Recorded.steps hstart within_twoCallers
  have hrefuses : Refuses (rehearsed.environment opening) := by
    refine ⟨rfl, fun url hurl b hb htrusted => ?_⟩
    obtain rfl : "http://127.0.0.1@example.com/" = url := Option.some.inj hurl
    have hread : RequestBuilder.ofUrl "http://127.0.0.1@example.com/" "GET" = .ok { host := "example.com", scheme := "http" } := by
      decide +kernel
    obtain rfl := Except.ok.inj (hread.symm.trans hb)
    exact absurd ((isAllowed_iff _).2 htrusted) (by decide +kernel)
  have hfirst : ∃ o s', Record.trail (Pool.recordedAll { state := (opening, []) } twoCallers) 0 =
      [(.began, opening), (.ended o, s')] := ⟨_, _, rfl⟩
  have hsecond : ∃ s request s', Record.trail (Pool.recordedAll { state := (opening, []) } twoCallers) 1 =
      [(.began, s), (.sent request, s')] ∧ request.path = "@example.com/" ∧ request.host = defaultHost :=
    ⟨_, _, _, rfl, rfl, rfl⟩
  generalize Pool.recordedAll { state := (opening, []) } twoCallers = record at *
  obtain ⟨-, hsent, hended, -⟩ := asks_only_trusted_hosts hrecorded
  obtain ⟨o, s', hfirst⟩ := hfirst
  obtain ⟨s, request, s'', hsecond, hpath, hhost⟩ := hsecond
  refine ⟨record, hrecorded, hrefuses, ⟨opening, o, s', hfirst, ?_⟩, s, request, s'', hsecond, hpath, ?_⟩
  · obtain ⟨before, s₀, sends, hjs, -, hnone⟩ := hended 0 [(.began, opening)] o s' [] hfirst
    obtain ⟨-, hs₀⟩ := List.append_eq_singleton_iff.1 hjs.symm |>.resolve_right (by simp)
    obtain rfl : s₀ = opening := congrArg (fun js => js.head?.map Prod.snd) hs₀ |> Option.some.inj
    exact (hnone hrefuses).2
  · obtain ⟨-, hread, -⟩ := hsent 1 [(.began, s)] request s'' [] hsecond
    obtain ⟨b, hb, hbhost⟩ := hread "GET"
    exact ⟨b, hb, hbhost.trans hhost⟩

end SignedCall.Container
