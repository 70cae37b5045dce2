import SignedCall.Proofs.Task.Journal
import SignedCall.Rehearsal
import SignedCall.Sender

/-!
# Notes of a sender

A sender that notes what it does and in which state: how its sleeps and its questions for an identity end, which requests it sends
and what comes back. The notes may carry a mark that tells whose they are. A call is the same with the notes and without them
(`send_noting`).
-/

namespace SignedCall

/-- What is noted of a call: how a sleep and a question for an identity ended, the signed request that was sent, and what came back. -/
inductive SendNote (σ : Type) where
  | slept (delay : Binary64) (o : Outcome Unit)
  | identified (o : Outcome Identity) (s : σ)
  | sent (signed : Request) (s : σ)
  | answered (o : Outcome Response) (s : σ)

variable {σ ν : Type}

/-- A host that notes what is asked of it. -/
def Host.noted (host : Host σ) (mark : SendNote σ → ν) : Host (σ × List ν) where
  now s := host.now s.1
  environment s := host.environment s.1
  files s := host.files s.1
  draws := Slot.fst.comp host.draws
  send request :=
    ((host.send request).beside.reported fun o s => mark (.answered o s)).announced fun s => mark (.sent request s)
  sendWithin limit request := (host.sendWithin limit request).beside
  sleep delay := (host.sleep delay).beside.reported fun o _ => mark (.slept delay o)

/-- A resolver that notes the identities that it gives. -/
def Resolver.noted (resolver : Resolver σ) (mark : SendNote σ → ν) : Resolver (σ × List ν) where
  name := resolver.name
  identity properties := (resolver.identity properties).beside.reported fun o s => mark (.identified o s)
  close := resolver.close.map Program.beside

namespace Sender

/-- A sender that notes what it does. -/
def noted (sender : Sender σ) (mark : SendNote σ → ν) : Sender (σ × List ν) where
  host := sender.host.noted mark
  resolver := sender.resolver.noted mark
  policy := sender.policy
  offset := Slot.fst.comp sender.offset

/-! ## What the notes leave as it is -/

variable {sender : Sender σ} {mark : SendNote σ → ν} {request : Request} {properties : Properties}

/-- An attempt is the same with notes and without. -/
theorem attempt_noting (i : Identity) : ((sender.noted mark).attempt request i).Noting (sender.attempt request i) := by
  refine (Program.noting_read (g := sender.sign request i) fun _ => rfl).bind fun result => ?_
  refine (Program.noting_ofExcept result).bind fun signed => ?_
  have hsend : ((sender.noted mark).host.send signed).Noting (sender.host.send signed) :=
    .note _ ((Program.noting_beside _).reported _)
  exact hsend.bind fun r => Program.noting_ofExcept (check r)

/-- The offset is corrected alike with notes and without. -/
theorem correctOffset_noting (f : Failure) : ((sender.noted mark).correctOffset f).Noting (sender.correctOffset f) := by
  unfold correctOffset
  split
  · exact .done _
  · split
    · exact .done _
    · exact (Program.noting_read (g := sender.host.now) fun _ => rfl).bind fun now => Program.noting_change fun _ => rfl

/-- Another attempt, if there is one, that makes notes. -/
def AgainNoting (again : Option (RetryToken → Program (σ × List ν) Response)) (again' : Option (RetryToken → Program σ Response)) :
    Prop :=
  Option.Rel (fun next next' => ∀ token, (next token).Noting (next' token)) again again'

/-- Another attempt is granted or refused alike with notes and without. -/
theorem tryAgain_noting {again : Option (RetryToken → Program (σ × List ν) Response)}
    {again' : Option (RetryToken → Program σ Response)} (h : AgainNoting again again') (token : RetryToken) (f : Failure) :
    ((sender.noted mark).tryAgain again token f).Noting (sender.tryAgain again' token f) := by
  refine (Program.noting_read (g := sender.host.draws.get) fun _ => rfl).bind fun draws => ?_
  have hpolicy : (sender.noted mark).policy = sender.policy := rfl
  rw [hpolicy]
  cases sender.policy.renew token (some f) draws with
  | error e =>
    cases e <;> cases h <;> exact .done _
  | ok renewed =>
    cases h with
    | none => exact .done _
    | some hnext => exact (Program.noting_change fun _ => rfl).bind fun _ => hnext _

/-- What follows a failed attempt is the same with notes and without. -/
theorem afterFailure_noting {again : Option (RetryToken → Program (σ × List ν) Response)}
    {again' : Option (RetryToken → Program σ Response)} (h : AgainNoting again again') (token : RetryToken) (f : Failure) :
    ((sender.noted mark).afterFailure again token f).Noting (sender.afterFailure again' token f) := by
  unfold afterFailure
  split
  · exact (correctOffset_noting f).bind fun _ => tryAgain_noting h token f
  · exact tryAgain_noting h token f

/-- An attempt with an identity that is asked for anew is the same with notes and without. -/
theorem attemptAnew_noting {again : Option (RetryToken → Program (σ × List ν) Response)}
    {again' : Option (RetryToken → Program σ Response)} (h : AgainNoting again again') (token : RetryToken) :
    ((sender.noted mark).attemptAnew request properties again token).Noting
      (sender.attemptAnew request properties again' token) := by
  refine ((Program.noting_beside _).reported _).bind fun i => (attempt_noting i).attempt.bind fun result => ?_
  cases result with
  | ok r => exact .done _
  | error f => exact afterFailure_noting h token f

/-- A round is the same with notes and without. -/
theorem round_noting {again : Option (RetryToken → Program (σ × List ν) Response)}
    {again' : Option (RetryToken → Program σ Response)} (h : AgainNoting again again') (token : RetryToken) :
    ((sender.noted mark).round request properties again token).Noting (sender.round request properties again' token) := by
  unfold round
  split
  · exact attemptAnew_noting h token
  · exact ((Program.noting_beside _).reported _).bind fun _ => attemptAnew_noting h token

/-- A call is the same with notes and without, from any round on. -/
theorem sendFrom_noting (left : Nat) (token : RetryToken) :
    ((sender.noted mark).sendFrom request properties left token).Noting (sender.sendFrom request properties left token) := by
  induction left generalizing token with
  | zero => exact round_noting .none token
  | succ left ih => exact round_noting (.some ih) token

/-- A call of the sender that makes notes is a call of the sender but for the notes. -/
theorem send_noting (sender : Sender σ) (mark : SendNote σ → ν) (request : Request) (properties : Properties) :
    ((sender.noted mark).send request properties).Noting (sender.send request properties) :=
  sendFrom_noting _ _

/-! ## A rehearsal -/

/-- A delay of a second. -/
def second : Binary64 := .finite false 1 0

/-- A sender for rehearsals, which sends for nobody in particular and tries at most twice. -/
def rehearsed : Sender (Rehearsal × Int) where
  host := Rehearsal.host Slot.fst
  resolver := { name := "nobody", identity := fun _ => pure (.anonymous none) }
  policy := { retries := 1, backoff := fun _ draws => .ok (second, draws), throttlingBackoff := fun _ draws => .ok (second, draws) }
  offset := Slot.snd

/-- A request without anything special. -/
def plain : Request := RequestBuilder.build { host := "localhost" }

/-- A service refuses the time of a signature; its own clock is at the beginning of the calendar. -/
def tooSkewed : Failure :=
  { kind := .service, text := "", info := { errorCode := some "RequestTimeTooSkewed", serverTime := DateTime.ofMicros? 0 none } }

/-- A rehearsal after some requests and sleeps, the first of which is refused for its time and the second one answered. -/
def stage (requests : Nat) (sleeps : List Binary64) (offset : Int) : Rehearsal × Int :=
  ({ now := ⟨90 * secondMicros, by decide⟩
     service :=
       { replies := [.failure tooSkewed, .response {}].drop requests, calls := requests, requests := List.replicate requests plain }
     sleeps }, offset)

/-- What is noted of a call in the rehearsal: after the refusal it sleeps, and then it goes by the clock of the service. -/
def rehearsedNotes : List (SendNote (Rehearsal × Int)) :=
  [.identified (.value (.anonymous none)) (stage 0 [] 0), .sent plain (stage 0 [] 0), .answered (.failed tooSkewed) (stage 1 [] 0),
    .slept second (.value ()), .identified (.value (.anonymous none)) (stage 1 [second] 90), .sent plain (stage 1 [second] 90),
    .answered (.value {}) (stage 2 [second] 90)]

end Sender

end SignedCall
