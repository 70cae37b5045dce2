import SignedCall.Host
import SignedCall.Proofs.Task.Play
import SignedCall.Proofs.Task.Surroundings

/-!
# Notes of what is asked of a host

A host that notes which requests are handed over to it, how they are answered and how its sleeps end, each with the state as it is then
(`Host.logged`). In a run where nobody else touches a part of the state and the notes, what is asked of the host adds just those notes,
and leaves the part alone if the host does (`Host.comesTo_send`, `Host.comesTo_sendWithin`, `Host.comesTo_sleep`).
-/

namespace SignedCall

/-- What is asked of a host, and what comes of it. -/
inductive HostEvent where
  | sent (request : Request)
  | answered (request : Request) (o : Outcome Response)
  | slept (delay : Binary64) (o : Outcome Unit)

/-- What is noted of a host, and in which state. -/
abbrev HostNote (σ : Type) := HostEvent × σ

variable {σ τ ν : Type}

/-- A computation without waits comes to its outcome at once. -/
theorem Program.comesTo_ofExcept {α : Type} {w : Company σ} {e : Except Failure α} {post : Outcome α → σ → Prop} {s : σ}
    (h : post (.of e) s) : (Program.ofExcept e).ComesTo w post s := by
  cases e <;> exact comesTo_done h

namespace Host

/-- A host that is another one but for the notes that its requests and sleeps make. -/
structure Noting (host' : Host (σ × List ν)) (host : Host σ) : Prop where
  now : ∀ s, host'.now s = host.now s.1
  draws : host'.draws = Slot.fst.comp host.draws
  send : ∀ request, (host'.send request).Noting (host.send request)
  sendWithin : ∀ limit request, (host'.sendWithin limit request).Noting (host.sendWithin limit request)
  sleep : ∀ delay, (host'.sleep delay).Noting (host.sleep delay)

/-- A host that notes what is asked of it. -/
def logged (host : Host σ) : Host (σ × List (HostNote σ)) where
  now s := host.now s.1
  environment s := host.environment s.1
  files s := host.files s.1
  draws := Slot.fst.comp host.draws
  send request := ((host.send request).beside.reported fun o s => (.answered request o, s)).announced (.sent request, ·)
  sendWithin limit request :=
    ((host.sendWithin limit request).beside.reported fun o s => (.answered request o, s)).announced (.sent request, ·)
  sleep delay := (host.sleep delay).beside.reported fun o s => (.slept delay o, s)

/-- Such a host is the same but for the notes. -/
theorem logged_noting (host : Host σ) : host.logged.Noting host where
  now _ := rfl
  draws := rfl
  send _ := .note _ ((Program.noting_beside _).reported _)
  sendWithin _ _ := .note _ ((Program.noting_beside _).reported _)
  sleep _ := (Program.noting_beside _).reported _

/-! ## What is noted -/

/-- The others leave alone a part of the state, and the notes. The waits end in some ways. -/
def besides (ends : Outcome Unit → Prop) (part : σ → τ) : Company (σ × List (HostNote σ)) where
  ends := ends
  others s s' := (part s'.1, s'.2) = (part s.1, s.2)

variable {ends : Outcome Unit → Prop} {host : Host σ} {part : σ → τ} {s : σ × List (HostNote σ)}

/-- Work on a host that leaves a part alone, and notes how it ended, adds that note only. -/
theorem comesTo_reported {α : Type} {p : Program σ α} (hp : p.Keeps part) (e : Outcome α → σ → HostNote σ) :
    (p.beside.reported e).ComesTo (besides ends part) (fun o s' => part s'.1 = part s.1 ∧ s'.2 = s.2 ++ [e o s'.1]) s := by
  have hkept : p.beside.ComesTo (besides ends part) (fun _ s' => (part s'.1, s'.2) = (part s.1, s.2)) s :=
    hp.beside.comesTo (fun _ _ h => h) s
  refine hkept.andThen fun o s' hs' _ _ => ?_
  obtain ⟨hpart, hnotes⟩ := Prod.mk.inj hs'
  exact ⟨hpart, congrArg (· ++ [e o s'.1]) hnotes⟩

/-- A request that is handed over, and its answer. -/
theorem comesTo_answered {p : Program σ Response} (hp : p.Keeps part) (request : Request) :
    ((p.beside.reported fun o s => ((.answered request o, s) : HostNote σ)).announced (.sent request, ·)).ComesTo (besides ends part)
      (fun o s' => part s'.1 = part s.1 ∧ s'.2 = s.2 ++ [(.sent request, s.1), (.answered request o, s'.1)]) s := by
  refine Program.ComesTo.announced ((comesTo_reported hp _).mono ?_)
  rintro o s' ⟨hpart, hnotes⟩
  exact ⟨hpart, by simpa [inscribe] using hnotes⟩

/-- A request that is sent adds the notes that it was handed over and how it was answered. -/
theorem comesTo_send {request : Request} (hp : (host.send request).Keeps part) :
    (host.logged.send request).ComesTo (besides ends part)
      (fun o s' => part s'.1 = part s.1 ∧ s'.2 = s.2 ++ [(.sent request, s.1), (.answered request o, s'.1)]) s :=
  comesTo_answered hp request

/-- A request that is sent with a limit of time adds the same notes. -/
theorem comesTo_sendWithin {limit : Option Number} {request : Request} (hp : (host.sendWithin limit request).Keeps part) :
    (host.logged.sendWithin limit request).ComesTo (besides ends part)
      (fun o s' => part s'.1 = part s.1 ∧ s'.2 = s.2 ++ [(.sent request, s.1), (.answered request o, s'.1)]) s :=
  comesTo_answered hp request

/-- A sleep adds the note of how it ended. -/
theorem comesTo_sleep {delay : Binary64} (hp : (host.sleep delay).Keeps part) :
    (host.logged.sleep delay).ComesTo (besides ends part)
      (fun o s' => part s'.1 = part s.1 ∧ s'.2 = s.2 ++ [(.slept delay o, s'.1)]) s :=
  comesTo_reported hp _

end Host

end SignedCall
