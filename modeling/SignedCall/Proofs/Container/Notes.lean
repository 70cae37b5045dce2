import SignedCall.Credentials.Container
import SignedCall.Proofs.Credentials.Notes
import SignedCall.Proofs.Host

/-!
# Notes of container credentials

A fetch of container credentials notes that it begins, each request as it is handed over, and how it ended, each with the state as it
is then. The fetches, and so the calls of the resolver, are the same with the notes and without them (`Container.fetch_noting`,
`Container.identity_noting`).
-/

namespace SignedCall

/-- What happens in a fetch of container credentials. -/
inductive ContainerEvent where
  | began
  | sent (request : Request)
  | ended (o : Outcome Identity)

/-- What is noted of a fetch, and in which state. -/
abbrev ContainerNote (σ : Type) := ContainerEvent × σ

namespace ContainerEvent

/-- Whether a request is handed over. -/
def isSent : ContainerEvent → Bool
  | .sent _ => true
  | _ => false

/-- Whether a fetch ends. -/
def isEnd : ContainerEvent → Bool
  | .ended _ => true
  | _ => false

end ContainerEvent

namespace Container

variable {σ : Type}

/-- A host that notes which requests are handed over to be answered in time. -/
def notedHost (host : Host σ) : Host (σ × List (ContainerNote σ)) where
  now s := host.now s.1
  environment s := host.environment s.1
  files s := host.files s.1
  draws := Slot.fst.comp host.draws
  send request := (host.send request).beside
  sendWithin limit request := (host.sendWithin limit request).beside.announced (.sent request, ·)
  sleep delay := (host.sleep delay).beside

/-- A fetch that makes notes. -/
def notedFetch (host : Host σ) (config : ContainerConfig) : Program (σ × List (ContainerNote σ)) Identity :=
  ((fetch (notedHost host) config).reported fun o s => (.ended o, s)).announced (.began, ·)

/-! ## What the notes leave as it is -/

variable {host : Host σ} {config : ContainerConfig}

/-- Asking some times is the same with a host that makes notes. -/
theorem askUpTo_noting {ν : Type} {host' : Host (σ × List ν)} (h : host'.Noting host) (request : Request) (n : Nat)
    (last : Option Failure) : (askUpTo host' config request n last).Noting (askUpTo host config request n last) := by
  induction n generalizing last with
  | zero => exact .done _
  | succ n ih =>
    refine ((h.sendWithin _ _).bind fun r => Program.noting_ofExcept (document r)).attempt.bind fun answer => ?_
    cases answer with
    | ok j => exact .done _
    | error f =>
      dsimp only
      split
      · exact ih (some f)
      · exact (h.sleep _).bind fun _ => ih (some f)

/-- Asking a host that makes notes is asking the host but for the notes. -/
theorem ask_noting {ν : Type} {host' : Host (σ × List ν)} (h : host'.Noting host) (request : Request) :
    (ask host' config request).Noting (ask host config request) := by
  unfold ask
  dsimp only
  split
  · exact askUpTo_noting h _ _ _
  · exact .done _

/-- A host that makes notes does what it did without. -/
theorem notedHost_noting (host : Host σ) : (notedHost host).Noting host where
  now _ := rfl
  draws := rfl
  send _ := Program.noting_beside _
  sendWithin _ _ := .note _ (Program.noting_beside _)
  sleep _ := Program.noting_beside _

/-- The token of a request is found alike with notes and without. -/
theorem token_noting (environment : FieldMap String) : (token (notedHost host) environment).Noting (token host environment) := by
  unfold token
  split
  · next name _ => exact (Program.noting_onThread (g := fun s => tokenIn (host.files s) name) fun _ => rfl).bind fun _ => .done _
  · exact .done _

/-- A fetch that makes notes is a fetch but for the notes. -/
theorem fetch_noting : (notedFetch host config).Noting (fetch host config) := by
  have hfetch : (fetch (notedHost host) config).Noting (fetch host config) := by
    refine (Program.noting_read (g := host.environment) fun _ => rfl).bind fun environment => ?_
    refine (Program.noting_ofExcept (requestOf environment)).bind fun b => (token_noting environment).bind fun x => ?_
    exact (ask_noting (notedHost_noting host) _).bind fun j => (Program.noting_ofExcept _).bind fun c => .done _
  exact .note _ (hfetch.reported _)

variable {slot : Slot σ RefreshState} {lock : LockId} {prefetches : Bool}

/-- A resolver whose fetches make notes. -/
def notedResolver (host : Host σ) (config : ContainerConfig) (slot : Slot σ RefreshState) (lock : LockId) (prefetches : Bool) :
    Refreshing (σ × List (ContainerNote σ)) :=
  (Refreshing.ofContainer host config slot lock prefetches).beside (notedFetch host config)

/-- A call that makes notes is a call but for the notes. -/
theorem identity_noting : (notedResolver host config slot lock prefetches).identity.Noting
    (Refreshing.ofContainer host config slot lock prefetches).identity := Refreshing.identity_noting fetch_noting

/-- A resolver whose fetches make notes is closed like one whose fetches make none. -/
theorem close_noting : (notedResolver host config slot lock prefetches).close.Noting
    (Refreshing.ofContainer host config slot lock prefetches).close := Refreshing.closing_noting

end Container

end SignedCall
