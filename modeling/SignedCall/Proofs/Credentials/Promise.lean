import Mathlib
import SignedCall.Credentials.DefaultChain
import SignedCall.Proofs.Container.Answers
import SignedCall.Proofs.Metadata.Answers
import SignedCall.Proofs.Rehearsal
import SignedCall.Proofs.Sender.Course

/-!
# Credentials or the lack of them

Whoever asks for credentials gets some with a key and a secret, or the failure that there are none. `calls_as_promised` says so of
the resolvers of the environment, of a profile, of a container and of a machine: of the first without any condition, of the second
exactly if its file can be named and is text, and of the others as long as documents are welcome, the token file is a file if it is
there, and what the machine answers is text. Where these conditions fail there are other failures, and keys that are empty or no texts
(`shared_asPromised_always_false`).
-/

namespace SignedCall

variable {σ : Type}

/-- What the resolvers answer to calls one after the other, in surroundings where no wait is broken off. -/
theorem calls_as_promised (w : Surroundings σ) (host : Host σ) :
    (∀ properties s, AsPromised (((Resolver.environment host).identity properties).runIn w s).1) ∧
    (∀ profile file properties s, AsPromised (((Resolver.shared host profile file).identity properties).runIn w s).1 ↔
      ∃ path, SharedResolver.path file (host.environment s) = .ok path ∧ ∀ content fault,
        (host.files (w.during .turn s)).content? path = some content → Ini.read content ≠ .error (.undecodable fault)) ∧
    (∀ config slot lock prefetches (I : σ → Prop),
      Container.Grounds host (Refreshing.ofContainer host config slot lock prefetches) w I →
      (Refreshing.ofContainer host config slot lock prefetches).Keeping w I →
      ∀ calls s, (∀ call ∈ calls, ∀ s, I s → I (call.before s)) → I s →
        ∀ o ∈ ((Resolver.ofContainer host config slot lock prefetches).answers w calls s).1, AsPromised o) ∧
    (∀ (client : MetadataClient σ) slot lock prefetches (I : σ → Prop),
      client.Grounds (Refreshing.ofInstance client slot lock prefetches) w I →
      (Refreshing.ofInstance client slot lock prefetches).Keeping w I →
      ∀ calls s, (∀ call ∈ calls, ∀ s, I s → I (call.before s)) → I s →
        ∀ o ∈ ((Resolver.ofInstance client slot lock prefetches).answers w calls s).1, AsPromised o) := by
  have hkept : ∀ (r : Refreshing σ) (name : String) (I : σ → Prop), r.Keeping w I → r.fetch.Delivers w I r.Fit Failure.IsLack →
      ∀ calls s, (∀ call ∈ calls, ∀ s, I s → I (call.before s)) → I s →
        ∀ o ∈ ((r.resolver name).answers w calls s).1, AsPromised o := by
    intro r name I hkeeping hfetch calls s hbefore hs o ho
    have hall := (Resolver.answers_of_delivers (r := r.resolver name) (fun _ => hkeeping.delivers_identity hfetch) hbefore hs).1
    exact (hall o ho).mono (fun _ hfit => hfit.1) fun _ hf => hf
  refine ⟨environment_asPromised host, shared_asPromised_iff host, ?_, ?_⟩
  · intro config slot lock prefetches I hgrounds hkeeping
    exact hkept _ _ I hkeeping hgrounds.delivers_fetch
  · intro client slot lock prefetches I hgrounds hkeeping
    exact hkept _ _ I hkeeping (Instance.delivers_fetch hgrounds)

/-! ## A host that stands still -/

/-- What a host that stands still works on: its draws, and what resolvers keep. -/
abbrev Standing := Draws × DefaultChain.State

namespace Standing

/-- A host whose clock, environment and files stay as they are, and that answers each request in the same way. -/
def host (environment : FieldMap String) (files : Files) (answer : Request → Except Failure Response) : Host Standing where
  now _ := Rehearsal.start
  environment _ := environment
  files _ := files
  draws := Slot.fst
  send request := Program.ofExcept (answer request)
  sendWithin _ request := Program.ofExcept (answer request)
  sleep _ := Program.pause

variable {environment : FieldMap String} {files : Files} {answer : Request → Except Failure Response}

/-- What keeps the credentials of a container there. -/
def container (environment : FieldMap String) (files : Files) (answer : Request → Except Failure Response) :
    Refreshing Standing :=
  Refreshing.ofContainer (host environment files answer) {} (Slot.snd.comp DefaultChain.containerSlot) 0 true

/-- What reads metadata there, with no delay between attempts. -/
def client (environment : FieldMap String) (files : Files) (answer : Request → Except Failure Response) :
    MetadataClient Standing where
  host := host environment files answer
  config :=
    { MetadataConfig.standard with
      policy :=
        { retries := 2
          backoff := (BackoffStrategy.fixed (.whole 0)).rule
          throttlingBackoff := (BackoffStrategy.fixed (.whole 0)).rule } }
  slot := Slot.snd.comp DefaultChain.tokenSlot
  lock := 1

/-- What keeps the credentials of a machine there. -/
def machine (environment : FieldMap String) (files : Files) (answer : Request → Except Failure Response) :
    Refreshing Standing :=
  Refreshing.ofInstance (client environment files answer) (Slot.snd.comp DefaultChain.machineSlot) 2 true

/-- Only what is fit is kept of a container. -/
def KeepsFit (r : Refreshing Standing) (s : Standing) : Prop := ∀ i, (r.slot.get s).cached = some i → r.Fit i

/-- On a host that stands still nobody but the resolver changes what it keeps. -/
theorem keeping (r : Refreshing Standing) : r.Keeping Surroundings.quiet (KeepsFit r) where
  fit _ i hs hi := hs i hi
  set x s _ hx i hi := hx i (by rwa [r.slot.get_set] at hi)
  others _ _ hs := hs

/-- A container is well served there if the file with its token is none that cannot be opened and its documents are welcome. -/
theorem container_grounds
    (hfile : ∀ name, environment.get? Container.tokenFileVariable = some name →
      files.statusOfText name ≠ .directory ∧ files.statusOfText name ≠ .behindFile)
    (hanswer : ∀ request response, answer request = .ok response → ∀ j, Container.document response = .ok j →
      (container environment files answer).Welcomes "container" j) :
    Container.Grounds (host environment files answer) (container environment files answer) Surroundings.quiet
      (KeepsFit (container environment files answer)) where
  others _ _ hs := hs
  sends _ request := Program.delivers_ofExcept (by
    cases h : answer request with
    | ok response => exact hanswer request response h
    | error f => exact trivial)
  sleeps _ := Program.delivers_wait (fun _ _ hs => hs) .turn
  tokenFile _ _ name _ _ hname := hfile name hname

/-- The endpoint that is used unless another is named is a URL. -/
theorem standard_endpoint (method : String) : ∃ b, RequestBuilder.ofUrl MetadataConfig.standard.endpoint method = .ok b := by
  have h : ∃ b, RequestBuilder.ofUrl "http://169.254.169.254:80" method = .ok b := ⟨_, rfl⟩
  exact h

/-- A machine is well served there if it is answered by text and by failures of the operating system. -/
theorem client_grounds
    (hanswer : ∀ request, (Outcome.of (answer request)).Meets
      (MetadataClient.Readable (machine environment files answer) request.path) fun f => f.kind.isSystem = true) :
    (client environment files answer).Grounds (machine environment files answer) Surroundings.quiet
      (KeepsFit (machine environment files answer)) where
  others _ _ hs := hs
  endpoint := standard_endpoint
  sends request := Program.delivers_ofExcept (hanswer request)
  sleeps _ := Program.delivers_wait (fun _ _ hs => hs) .turn
  token _ _ hs := hs
  delays c s hs := by
    have hdelays : (client environment files answer).config.policy.Delays := fun _ _ => ⟨⟨_, rfl⟩, _, rfl⟩
    obtain ⟨delay, draws, h⟩ := hdelays.delay c s.1
    exact ⟨delay, draws, h, hs⟩

/-- A document with both keys. -/
def document : Json := .object [("AccessKeyId", .text "key"), ("SecretAccessKey", .text "secret")]

/-- The same document as a text. -/
def documentText : String := "\x7b\"AccessKeyId\": \"key\", \"SecretAccessKey\": \"secret\"\x7d"

/-- A reply with the document. -/
def reply : Response := { body := Text.Utf8.encode documentText }

/-- An environment that leads to a container. -/
def leading : FieldMap String := FieldMap.ofList [(Container.pathVariable, "/role")]

/-- The body of the reply is the text of the document. -/
theorem textOf_reply : MetadataClient.textOf reply.body = .ok documentText := by cbv

/-- The reply has the document. -/
theorem document_reply : Container.document reply = .ok document := by cbv

/-- The text is read as the document. -/
theorem read_documentText : Json.read? documentText = some document := by cbv

/-- The document is welcome everywhere. -/
theorem document_welcome (r : Refreshing Standing) (source : String) : r.Welcomes source document := by
  refine ⟨⟨⟨_, rfl⟩, .inr (.inr ⟨.inl rfl, ⟨"key", rfl, by decide⟩, "secret", rfl, by decide⟩)⟩, fun i hi t ht => ?_⟩
  cases hi
  cases ht

/-- Two calls of a container and two of a machine, all answered with the document, are as promised. -/
theorem calls_as_promised_standing :
    (∀ o ∈ (((container leading FieldMap.empty fun _ => .ok reply).resolver "ContainerCredentialsResolver").answers
        Surroundings.quiet [{}, {}] (⟨[], 0⟩, {})).1, AsPromised o) ∧
    ∀ o ∈ (((machine leading FieldMap.empty fun _ => .ok reply).resolver "IMDSCredentialsResolver").answers
        Surroundings.quiet [{}, {}] (⟨[], 0⟩, {})).1, AsPromised o := by
  obtain ⟨-, -, hcontainer, hmachine⟩ := calls_as_promised Surroundings.quiet (host leading FieldMap.empty fun _ => .ok reply)
  have hcalls : ∀ (I : Standing → Prop), ∀ call ∈ [({} : Asking Standing), {}], ∀ s, I s → I (call.before s) := by
    intro I call hcall s hs
    rcases List.mem_cons.1 hcall with rfl | hcall
    · exact hs
    · cases List.mem_singleton.1 hcall
      exact hs
  refine ⟨hcontainer {} _ 0 true _ (container_grounds ?_ ?_) (keeping _) _ _ (hcalls _) nofun,
    hmachine _ _ 2 true _ (client_grounds fun request => ?_) (keeping _) _ _ (hcalls _) nofun⟩
  · intro name hname
    cases hname
  · intro request response hresponse j hj
    cases hresponse
    cases document_reply.symm.trans hj
    exact document_welcome _ _
  · intro _
    refine ⟨documentText, textOf_reply, fun _ j hj => ?_⟩
    cases read_documentText.symm.trans hj
    exact document_welcome _ _

end Standing

/-! ## A file that is no text -/

/-- A home directory whose credentials file is no text. -/
def garbled : Rehearsal where
  now := Rehearsal.start
  environment := FieldMap.ofList [(Profile.homeVariable, "home")]
  files := Files.write FieldMap.empty "home/.aws/credentials" (.file [0xff])

/-- A profile in a file that is no text is no lack of credentials to callers. -/
theorem shared_asPromised_always_false :
    ¬∀ (host : Host Rehearsal) (profile file : Option String) (properties : Properties) (s : Rehearsal),
        AsPromised (((Resolver.shared host profile file).identity properties).runIn Surroundings.quiet s).1 := by
  intro hall
  obtain ⟨path, hpath, htext⟩ := (shared_asPromised_iff _ _ _ _ _).1
    (hall (Rehearsal.host Slot.whole) none none FieldMap.empty garbled)
  cases hpath
  exact htext [0xff] ⟨.invalidStart, 0, [0xff]⟩ rfl rfl

end SignedCall
