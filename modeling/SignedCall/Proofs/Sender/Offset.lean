import SignedCall.Proofs.Rehearsal
import SignedCall.Proofs.Sender.Course
import SignedCall.Proofs.Task.Shadow
import SignedCall.Task.Session

/-!
# Signing by the latest offset

Any number of calls of one sender may be interleaved, and cancelled, with each other and with anything that leaves the offset alone.
Their notes carry the unsigned request that the call was made for. At every point of every run the offset is what the latest refused
time made it, and every request that was sent is the unsigned one of its call, signed for the identity given just before, by the
clock and the offset of that moment (`signed_afresh`). Every run without notes is such a run but for the notes (`exists_reached`).
-/

namespace SignedCall.Sender

variable {σ : Type} {sender : Sender σ} {request : Request} {properties : Properties}

/-- Notes with the unsigned request that the call was made for. -/
abbrev CallNote (σ : Type) := Request × SendNote σ

/-- What leaves the offset alone: the host, the resolver, and the use of draws. -/
structure OffsetApart (sender : Sender σ) : Prop where
  send : ∀ request, (sender.host.send request).Keeps sender.offset.get
  sleep : ∀ delay, (sender.host.sleep delay).Keeps sender.offset.get
  identity : ∀ properties, (sender.resolver.identity properties).Keeps sender.offset.get
  draws : sender.host.draws.Apart sender.offset.get

/-- The offset that a failure asks for: one that refuses the time of a signature does if it gives the time of the service. -/
def correction? (sender : Sender σ) (f : Failure) (s : σ) : Option Int :=
  if Retry.isClockSkew (some f) then
    (f.info.serverTime.bind DateTime.utc?).map fun server => timeOffset server (sender.host.now s)
  else none

/-- The offset that a note asks for. -/
def asks? (sender : Sender σ) (e : CallNote σ) : Option Int :=
  match e.2 with
  | .answered o s => match judged o with
    | .failed f => sender.correction? f s
    | _ => none
  | _ => none

/-- The offset that was asked for last, or none at all. -/
def offsetOf (sender : Sender σ) (journal : List (CallNote σ)) : Int := ((journal.filterMap sender.asks?).getLast?).getD 0

/-- Whether each request that was sent is the one of its call, signed then and there for the identity given just before. -/
def Honest (sender : Sender σ) (journal : List (CallNote σ)) : Prop :=
  ∀ js request signed s ks, journal = js ++ (request, .sent signed s) :: ks →
    ∃ js' i, js = js' ++ [(request, .identified (.value i) s)] ∧
      QuerySigner.sign (sender.host.now s) (sender.offset.get s) i request = .ok signed ∧ sender.offset.get s = sender.offsetOf js

/-- The offset that was asked for last is that of the last note, if it asks for one. -/
theorem offsetOf_append (journal : List (CallNote σ)) (e : CallNote σ) :
    sender.offsetOf (journal ++ [e]) = (sender.asks? e).getD (sender.offsetOf journal) := by
  unfold offsetOf
  rw [List.filterMap_append]
  cases h : sender.asks? e with
  | none => simp [h]
  | some offset => simp [h]

/-- A note of anything but a request that was sent keeps a journal honest. -/
theorem Honest.append {journal : List (CallNote σ)} (h : sender.Honest journal) {e : CallNote σ} (he : ∀ signed s, e.2 ≠ .sent signed s) :
    sender.Honest (journal ++ [e]) := by
  intro js request signed s ks hjs
  rcases append_singleton_cases hjs with ⟨-, hx, -⟩ | ⟨ks', -, hjs⟩
  · exact absurd (congrArg Prod.snd hx).symm (he signed s)
  · exact h js request signed s ks' hjs

/-- So does a request that is signed for the identity just given. -/
theorem Honest.sent {js : List (CallNote σ)} {i : Identity} {signed : Request} {s : σ}
    (h : sender.Honest (js ++ [(request, .identified (.value i) s)])) (hsign : sender.sign request i s = .ok signed)
    (hoffset : sender.offset.get s = sender.offsetOf (js ++ [(request, .identified (.value i) s)])) :
    sender.Honest (js ++ [(request, .identified (.value i) s)] ++ [(request, .sent signed s)]) := by
  intro js' request' signed' s' ks hjs
  rcases append_singleton_cases hjs with ⟨-, hx, rfl⟩ | ⟨ks', -, hjs⟩
  · simp only [Prod.mk.injEq, SendNote.sent.injEq] at hx
    obtain ⟨rfl, rfl, rfl⟩ := hx
    refine ⟨js, i, rfl, ?_, hoffset⟩
    unfold sign at hsign
    cases hq : QuerySigner.sign (sender.host.now s') (sender.offset.get s') i request' with
    | ok signed =>
      rw [hq] at hsign
      exact congrArg _ (Except.ok.inj hsign)
    | error fault =>
      rw [hq] at hsign
      cases hsign
  · exact h js' request' signed' s' ks' hjs

/-- The offset and the journal. -/
def view (sender : Sender σ) (s : σ × List (CallNote σ)) : Int × List (CallNote σ) := (sender.offset.get s.1, s.2)

/-- The offset is the one that was asked for last, and the journal is honest. -/
def Sound (sender : Sender σ) (x : Int × List (CallNote σ)) : Prop := x.1 = sender.offsetOf x.2 ∧ sender.Honest x.2

/-- What a task may do with a sender: send, and anything that leaves the offset and the journal alone. -/
inductive Use (sender : Sender σ) : ∀ α : Type, Program (σ × List (CallNote σ)) α → Prop
  | other {α : Type} {p : Program (σ × List (CallNote σ)) α} : p.Keeps sender.view → Use sender α p
  | send (request : Request) (properties : Properties) : Use sender Response ((sender.noted (request, ·)).send request properties)

/-- What may happen: tasks have their turns, are woken, cancelled or made, and the rest of the state changes. -/
def Permits (sender : Sender σ) : Move (σ × List (CallNote σ)) → Prop := Move.Within sender.Use sender.view

/-- The points of runs that begin with an offset of zero, and nothing noted. -/
def Reached (sender : Sender σ) : Pool (σ × List (CallNote σ)) → Prop :=
  Pool.Reached (fun s => sender.offset.get s.1 = 0 ∧ s.2 = []) sender.Permits

/-! ## The parts of a round -/

/-- In each of its turns a task that sends leaves things sound, if they were. -/
def conduct (sender : Sender σ) : Conduct (σ × List (CallNote σ)) where
  turn s₀ s := sender.Sound (sender.view s₀) → sender.Sound (sender.view s)
  child body := body.Built sender.Use

/-- Things are sound once the offset is the one that a failure asks for. -/
def Due (sender : Sender σ) (f : Failure) (s : σ × List (CallNote σ)) : Prop :=
  sender.Sound ((sender.correction? f s.1).getD (sender.offset.get s.1), s.2)

/-- How an attempt leaves things: sound once the offset is the one that its failure asks for, or sound already. -/
def DueAfter (sender : Sender σ) (o : Outcome Response) (s : σ × List (CallNote σ)) : Prop :=
  match o with
  | .failed f => sender.Due f s
  | _ => sender.Sound (sender.view s)

/-- Things are sound before the first note. -/
theorem sound_nil : sender.Sound (0, []) := by
  refine ⟨rfl, fun js request signed s ks hjs => ?_⟩
  simp at hjs

/-- A note of anything but a request that was sent keeps things sound, with the offset that it asks for. -/
theorem Sound.append {x : Int} {js : List (CallNote σ)} (h : sender.Sound (x, js)) {e : CallNote σ}
    (he : ∀ signed s, e.2 ≠ .sent signed s) : sender.Sound ((sender.asks? e).getD x, js ++ [e]) := by
  refine ⟨?_, h.2.append he⟩
  have hx : x = sender.offsetOf js := h.1
  rw [offsetOf_append, hx]

/-- What leaves the offset and the notes alone leaves things sound. -/
theorem sound_of_keeps {α : Type} {p : Program (σ × List (CallNote σ)) α} (hp : p.Keeps sender.view)
    {s₀ s : σ × List (CallNote σ)} (h : sender.conduct.turn s₀ s) : p.Turns sender.conduct (fun _ => sender.conduct.turn) s₀ s :=
  Program.Turns.of_keeps (K := fun s₀ x => sender.Sound (sender.view s₀) → sender.Sound x) hp (fun _ _ _ _ _ hs' => hs')
    (fun _ _ hs => hs) (fun _ hbody => Program.Built.piece (.other hbody)) (fun _ _ _ hs => hs) h

/-- Something that leaves the offset alone, and whose end is noted. -/
theorem sound_noted {α : Type} {p : Program σ α} (hp : p.Keeps sender.offset.get) (e : Outcome α → σ → CallNote σ)
    {s₀ s : σ × List (CallNote σ)} (h : sender.conduct.turn s₀ s) :
    (p.beside.reported e).Turns sender.conduct
      (fun o s₀ s => sender.Sound (sender.view s₀) → ∃ js, s.2 = js ++ [e o s.1] ∧ sender.Sound (sender.offset.get s.1, js)) s₀ s := by
  refine (sound_of_keeps hp.beside h).andThen fun o s₀ s hs hsound => ?_
  exact ⟨s.2, rfl, hs hsound⟩

/-- Where a note asks for no offset, things are sound again. -/
theorem turn_of_noted {e : CallNote σ} (hnone : sender.asks? e = none) (hsent : ∀ signed s, e.2 ≠ .sent signed s)
    {s₀ s : σ × List (CallNote σ)}
    (h : sender.Sound (sender.view s₀) → ∃ js, s.2 = js ++ [e] ∧ sender.Sound (sender.offset.get s.1, js)) :
    sender.conduct.turn s₀ s := by
  intro hsound
  obtain ⟨js, hjs, hs⟩ := h hsound
  have happended := hs.append hsent
  rw [hnone, ← hjs] at happended
  exact happended

/-- An attempt signs for the identity given just before, by the clock and the offset of that moment. -/
theorem sound_attempt (ha : sender.OffsetApart) {i : Identity} {s₀ s : σ × List (CallNote σ)}
    (h : sender.Sound (sender.view s₀) →
      ∃ js, s.2 = js ++ [(request, .identified (.value i) s.1)] ∧ sender.Sound (sender.view s)) :
    ((sender.noted (request, ·)).attempt request i).Turns sender.conduct
      (fun o s₀ s => sender.Sound (sender.view s₀) → sender.DueAfter o s) s₀ s := by
  refine Program.turns_read ?_
  change (Program.ofExcept (sender.sign request i s.1) >>= fun signed =>
    (sender.noted (request, ·)).host.send signed >>= fun r => Program.ofExcept (check r)).Turns sender.conduct _ s₀ s
  cases hsign : sender.sign request i s.1 with
  | error f =>
    intro hsound
    obtain ⟨js, -, hs⟩ := h hsound
    have hnone : sender.correction? f s.1 = none := by simp [correction?, sign_serverTime hsign]
    change sender.Sound ((sender.correction? f s.1).getD (sender.offset.get s.1), s.2)
    rw [hnone]
    exact hs
  | ok signed =>
    have hsent : sender.conduct.turn s₀ (inscribe (fun s => (request, .sent signed s)) s) := by
      intro hsound
      obtain ⟨js, hjs, hoffset, hhonest⟩ := h hsound
      simp only [view, hjs] at hoffset hhonest
      simp only [view, inscribe, hjs]
      exact ⟨(offsetOf_append _ _).symm ▸ hoffset, hhonest.sent hsign hoffset⟩
    refine (sound_noted (ha.send signed) (fun o s => (request, .answered o s)) hsent).andThen fun o s₀ s hanswered => ?_
    have hjudged : sender.Sound (sender.view s₀) → sender.DueAfter (judged o) s := by
      intro hsound
      obtain ⟨js, hjs, hs⟩ := hanswered hsound
      have happended := hs.append (e := (request, .answered o s.1)) (by simp)
      rw [← hjs] at happended
      cases hj : judged o <;> simpa [asks?, hj, DueAfter, Due, view] using happended
    cases o with
    | failed f => exact hjudged
    | cancelled => exact hjudged
    | value r =>
      change (Program.ofExcept (check r)).Turns sender.conduct _ s₀ s
      unfold judged at hjudged
      cases hcheck : check r with
      | ok r' =>
        simp only [hcheck] at hjudged
        exact hjudged
      | error f =>
        simp only [hcheck] at hjudged
        exact hjudged

/-- A failure that asks for no offset leaves things sound. -/
theorem Due.sound {f : Failure} {s : σ × List (CallNote σ)} (h : sender.Due f s) (hnone : sender.correction? f s.1 = none) :
    sender.Sound (sender.view s) := by
  unfold Due at h
  rw [hnone] at h
  exact h

/-- Taking over the clock of the service does what the failure asks for. -/
theorem sound_correctOffset {f : Failure} (hskew : Retry.isClockSkew (some f) = true) {s₀ s : σ × List (CallNote σ)}
    (h : sender.Sound (sender.view s₀) → sender.Due f s) :
    ((sender.noted (request, ·)).correctOffset f).Turns sender.conduct (fun _ => sender.conduct.turn) s₀ s := by
  unfold correctOffset
  split
  · next htime => exact fun hsound => (h hsound).sound (by simp [correction?, htime])
  · next t htime =>
    split
    · next hutc => exact fun hsound => (h hsound).sound (by simp [correction?, htime, hutc])
    · next server hutc =>
      intro hsound
      have hdue := h hsound
      have hasked : sender.correction? f s.1 = some (timeOffset server (sender.host.now s.1)) := by
        simp [correction?, hskew, htime, hutc]
      unfold Due at hdue
      rw [hasked] at hdue
      have hput : sender.offset.get (sender.offset.set (timeOffset server (sender.host.now s.1)) s.1) =
          timeOffset server (sender.host.now s.1) := sender.offset.get_set _ _
      change sender.Sound (sender.offset.get (sender.offset.set (timeOffset server (sender.host.now s.1)) s.1), s.2)
      rw [hput]
      exact hdue

/-- Whether another attempt leaves things sound in each of its turns, if there is one. -/
def GoesOn (sender : Sender σ) (again : Option (RetryToken → Program (σ × List (CallNote σ)) Response)) : Prop :=
  ∀ next, again = some next → ∀ token s₀ s, sender.conduct.turn s₀ s →
    (next token).Turns sender.conduct (fun _ => sender.conduct.turn) s₀ s

/-- Another attempt leaves things sound. -/
theorem sound_tryAgain (ha : sender.OffsetApart) {token : RetryToken} {f : Failure}
    {again : Option (RetryToken → Program (σ × List (CallNote σ)) Response)} (hagain : sender.GoesOn again)
    {s₀ s : σ × List (CallNote σ)} (h : sender.conduct.turn s₀ s) :
    ((sender.noted (request, ·)).tryAgain again token f).Turns sender.conduct (fun _ => sender.conduct.turn) s₀ s := by
  refine Program.turns_read ?_
  split
  · next _ _ token' draws another _ =>
    refine hagain another rfl token' s₀ _ fun hsound => ?_
    have hview : sender.view (Slot.set (sender.noted (request, ·)).host.draws draws s) = sender.view s :=
      Prod.ext (ha.draws draws s.1) rfl
    rw [hview]
    exact h hsound
  · exact h
  · exact h

/-- The offset is corrected after a failed attempt, before anything else is done. -/
theorem sound_afterFailure (ha : sender.OffsetApart) {token : RetryToken} {f : Failure}
    {again : Option (RetryToken → Program (σ × List (CallNote σ)) Response)} (hagain : sender.GoesOn again)
    {s₀ s : σ × List (CallNote σ)} (h : sender.Sound (sender.view s₀) → sender.Due f s) :
    ((sender.noted (request, ·)).afterFailure again token f).Turns sender.conduct (fun _ => sender.conduct.turn) s₀ s := by
  unfold afterFailure
  split
  · next hskew =>
    refine (sound_correctOffset hskew h).andThen fun o s₀ s hs => ?_
    cases o with
    | value u => exact sound_tryAgain ha hagain hs
    | failed f => exact hs
    | cancelled => exact hs
  · next hskew => exact sound_tryAgain ha hagain fun hsound => (h hsound).sound (by simp [correction?, hskew])

/-- An attempt whose failure is handed over as a value. -/
theorem sound_attempt_attempt (ha : sender.OffsetApart) {i : Identity} {s₀ s : σ × List (CallNote σ)}
    (h : sender.Sound (sender.view s₀) →
      ∃ js, s.2 = js ++ [(request, .identified (.value i) s.1)] ∧ sender.Sound (sender.view s)) :
    ((sender.noted (request, ·)).attempt request i).attempt.Turns sender.conduct
      (fun o s₀ s => sender.Sound (sender.view s₀) → match o with
        | .value (.error f) => sender.Due f s
        | _ => sender.Sound (sender.view s)) s₀ s := by
  refine (sound_attempt ha h).andThen fun o s₀ s hs => ?_
  cases o with
  | value r => exact hs
  | failed f => exact hs
  | cancelled => exact hs

/-- An attempt, and what follows it, leave things sound. -/
theorem sound_attemptAnew (ha : sender.OffsetApart) {token : RetryToken}
    {again : Option (RetryToken → Program (σ × List (CallNote σ)) Response)} (hagain : sender.GoesOn again)
    {s₀ s : σ × List (CallNote σ)} (h : sender.conduct.turn s₀ s) :
    ((sender.noted (request, ·)).attemptAnew request properties again token).Turns sender.conduct
      (fun _ => sender.conduct.turn) s₀ s := by
  refine (sound_noted (ha.identity properties) (fun o s => (request, .identified o s)) h).andThen fun o s₀ s hidentified => ?_
  have hturn : sender.conduct.turn s₀ s := turn_of_noted rfl (by simp) hidentified
  cases o with
  | failed f => exact hturn
  | cancelled => exact hturn
  | value i =>
    have hjust : sender.Sound (sender.view s₀) →
        ∃ js, s.2 = js ++ [(request, .identified (.value i) s.1)] ∧ sender.Sound (sender.view s) := by
      intro hsound
      obtain ⟨js, hjs, -⟩ := hidentified hsound
      exact ⟨js, hjs, hturn hsound⟩
    refine (sound_attempt_attempt ha hjust).andThen fun o s₀ s hs => ?_
    cases o with
    | failed f => exact hs
    | cancelled => exact hs
    | value result =>
      cases result with
      | ok r => exact hs
      | error f => exact sound_afterFailure ha hagain hs

/-- A round leaves things sound. -/
theorem sound_round (ha : sender.OffsetApart) {token : RetryToken}
    {again : Option (RetryToken → Program (σ × List (CallNote σ)) Response)} (hagain : sender.GoesOn again)
    {s₀ s : σ × List (CallNote σ)} (h : sender.conduct.turn s₀ s) :
    ((sender.noted (request, ·)).round request properties again token).Turns sender.conduct (fun _ => sender.conduct.turn) s₀ s := by
  change (if token.delay.isZero then _ else _ : Program (σ × List (CallNote σ)) Response).Turns sender.conduct _ s₀ s
  split
  · exact sound_attemptAnew ha hagain h
  · refine (sound_noted (ha.sleep token.delay) (fun o _ => (request, .slept token.delay o)) h).andThen fun o s₀ s hslept => ?_
    have hturn : sender.conduct.turn s₀ s := turn_of_noted rfl (by simp) hslept
    cases o with
    | value u => exact sound_attemptAnew ha hagain hturn
    | failed f => exact hturn
    | cancelled => exact hturn

/-- A call leaves things sound from any round on. -/
theorem sound_sendFrom (ha : sender.OffsetApart) (left : Nat) {token : RetryToken} {s₀ s : σ × List (CallNote σ)}
    (h : sender.conduct.turn s₀ s) :
    ((sender.noted (request, ·)).sendFrom request properties left token).Turns sender.conduct
      (fun _ => sender.conduct.turn) s₀ s := by
  induction left generalizing token s₀ s with
  | zero =>
    refine sound_round ha (fun next hnext => ?_) h
    cases hnext
  | succ left ih =>
    refine sound_round ha (fun next hnext token s₀ s hs => ?_) h
    obtain rfl := Option.some.inj hnext
    exact ih hs

/-- Whatever a task does with a sender, it leaves things sound in each of its turns. -/
theorem sound_built (ha : sender.OffsetApart) {α : Type} {p : Program (σ × List (CallNote σ)) α} (hp : p.Built sender.Use)
    {s₀ s : σ × List (CallNote σ)} (h : sender.conduct.turn s₀ s) : p.Turns sender.conduct (fun _ => sender.conduct.turn) s₀ s := by
  induction hp generalizing s₀ s with
  | piece hp =>
    cases hp with
    | other hkeeps => exact sound_of_keeps hkeeps h
    | send request properties => exact sound_sendFrom ha sender.policy.retries h
  | start hbody _ _ hnext => exact ⟨hbody, fun t => hnext t h⟩
  | andThen _ _ hp hnext => exact (hp h).andThen fun o s₀ s hs => hnext o hs

/-! ## Runs -/

variable {p : Pool (σ × List (CallNote σ))}

/-- At every point of every run things are sound. -/
theorem Reached.sound (ha : sender.OffsetApart) (hp : sender.Reached p) :
    (∀ t, Pool.Conducts sender.conduct p t) ∧ sender.Sound (sender.view p.state) := by
  have hrefl : ∀ s, sender.conduct.turn s s := fun s hs => hs
  have hchild : ∀ body : Program (σ × List (CallNote σ)) Unit, body.Built sender.Use →
      ∀ s, body.Turns sender.conduct (Program.LastTurn sender.conduct) s s :=
    fun body hbody s => sound_built ha hbody (hrefl s)
  induction hp with
  | @start s hs =>
    refine ⟨fun t => nofun, ?_⟩
    rw [show sender.view s = (0, []) from Prod.ext hs.1 hs.2]
    exact sound_nil
  | @step p m _ hm ih =>
    obtain ⟨hconducts, hsound⟩ := ih
    have hstart : ∀ body, m = .start body → body.Built sender.Use := by
      rintro body rfl
      exact hm
    refine ⟨Pool.conducts_step (fun _ _ => trivial) hrefl hchild hconducts hstart, ?_⟩
    cases m with
    | turn t =>
      rcases (hconducts t).resume fun _ _ => trivial with hturn | hsame
      · exact hturn hsound
      · rw [Pool.step, hsame]
        exact hsound
    | arrival t =>
      rw [Pool.step, (Pool.arrive_alike p t).state]
      exact hsound
    | cancel t =>
      rw [Pool.step, (Pool.cancel_alike p t).state]
      exact hsound
    | start body => exact hsound
    | change f =>
      have hview : sender.view (f p.state) = sender.view p.state := hm p.state
      exact hview ▸ hsound

/-- Take any run in which calls of one sender, cancellations and other work are interleaved. The offset is the one that the last
failure asked for which refused the time of a signature and gave that of the service, and zero before there is one. Each request
that was sent is the unsigned request of its call, signed for the identity that the resolver had given just before, with the clock
and the offset of that moment. -/
theorem signed_afresh (ha : sender.OffsetApart) (hp : sender.Reached p) :
    sender.offset.get p.state.1 = sender.offsetOf p.state.2 ∧
      ∀ js request signed s ks, p.state.2 = js ++ (request, .sent signed s) :: ks →
        ∃ js' i, js = js' ++ [(request, .identified (.value i) s)] ∧
          QuerySigner.sign (sender.host.now s) (sender.offset.get s) i request = .ok signed ∧
          sender.offset.get s = sender.offsetOf js := by
  obtain ⟨-, hoffset, hhonest⟩ := hp.sound ha
  exact ⟨hoffset, hhonest⟩

/-! ## Runs without notes -/

/-- What a task may do with a sender, without notes. -/
inductive PlainUse (sender : Sender σ) : ∀ α : Type, Program σ α → Prop
  | other {α : Type} {q : Program σ α} : q.Keeps sender.offset.get → PlainUse sender α q
  | send (request : Request) (properties : Properties) : PlainUse sender Response (sender.send request properties)

/-- What a task may do without notes it may do with notes, too. -/
theorem PlainUse.noting {α : Type} {q : Program σ α} (hq : sender.PlainUse α q) : ∃ p, sender.Use α p ∧ p.Noting q := by
  cases hq with
  | other hkeeps => exact ⟨q.beside, .other hkeeps.beside, Program.noting_beside q⟩
  | send request properties => exact ⟨_, .send request properties, send_noting sender (request, ·) request properties⟩

/-- Every run of tasks that send is one with notes, but for the notes. -/
theorem exists_reached {q : Pool σ}
    (hq : Pool.Reached (fun s => sender.offset.get s = 0) (Move.Within sender.PlainUse sender.offset.get) q) :
    ∃ p, sender.Reached p ∧ p.Noting q :=
  Pool.Reached.noting (fun _ _ hq => hq.noting) hq

/-! ## A rehearsal -/

/-- What the rehearsing sender works with leaves the offset alone. -/
theorem rehearsed_offsetApart : rehearsed.OffsetApart where
  send request := ScriptedService.send_keeps (fun _ _ => rfl) request
  sleep _ := Rehearsal.sleep_keeps fun _ => rfl
  identity _ := trivial
  draws _ _ := rfl

/-- A task that sends once. -/
def caller (sender : Sender σ) (request : Request) (properties : Properties) : Program (σ × List (CallNote σ)) Unit :=
  ((sender.noted (request, ·)).send request properties).andThen fun o => .done o.withoutValue

/-- A task that sends once does what a task may do. -/
theorem built_caller : (sender.caller request properties).Built sender.Use :=
  .andThen (.piece (.send request properties)) fun _ => .piece (.other trivial)

/-- Two callers: the first one's signature is refused for its time, and both go by the clock of the service from then on. -/
theorem signed_afresh_twoCallers :
    let p := Pool.steps { state := (stage 0 [] 0, []) }
      [.start (rehearsed.caller plain FieldMap.empty), .start (rehearsed.caller plain FieldMap.empty), .turn 0, .turn 1, .turn 0]
    rehearsed.OffsetApart ∧ rehearsed.Reached p ∧ rehearsed.offset.get p.state.1 = 90 ∧
      rehearsed.offset.get p.state.1 = rehearsed.offsetOf p.state.2 := by
  have hreached : rehearsed.Reached (Pool.steps { state := (stage 0 [] 0, []) }
      [.start (rehearsed.caller plain FieldMap.empty), .start (rehearsed.caller plain FieldMap.empty), .turn 0, .turn 1,
        .turn 0]) :=
    Pool.Reached.steps (.start ⟨rfl, rfl⟩) (by simp [Permits, Move.Within, built_caller])
  exact ⟨rehearsed_offsetApart, hreached, rfl, (signed_afresh rehearsed_offsetApart hreached).1⟩

end SignedCall.Sender
