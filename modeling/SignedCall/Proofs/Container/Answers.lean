import SignedCall.Credentials.Container
import SignedCall.Proofs.Credentials.Keeping

/-!
# What a container answers

`Grounds` says what a container has to find for its answers to be as promised: the file with its token, if one is named, is no
directory and no name behind a file, and documents are welcome. It matters neither how requests fail nor what the variables hold:
addresses that cannot be read, hosts that may not be asked, tokens that are no text and replies that are errors or no JSON all end
in a failure that callers are told about. Main statement: `delivers_fetch`.
-/

namespace SignedCall.Container

variable {σ : Type} {w : Surroundings σ} {I : σ → Prop} {host : Host σ} {config : ContainerConfig} {r : Refreshing σ}

/-- What a container finds: sleeps come to their end, documents are welcome, and the file with the token can be opened or is
missing. -/
structure Grounds (host : Host σ) (r : Refreshing σ) (w : Surroundings σ) (I : σ → Prop) : Prop where
  others : ∀ wait s, I s → I (w.during wait s)
  sends : ∀ limit request, (host.sendWithin limit request).Delivers w I
    (fun response => ∀ j, document response = .ok j → r.Welcomes "container" j) fun _ => True
  sleeps : ∀ delay, (host.sleep delay).Delivers w I (fun _ => True) fun _ => False
  tokenFile : ∀ s s' name, I s → I s' → (host.environment s).get? tokenFileVariable = some name →
    (host.files s').statusOfText name ≠ .directory ∧ (host.files s').statusOfText name ≠ .behindFile

/-- An environment that names no request, or none that can be made, is a lack of credentials. -/
theorem requestOf_meets (environment : FieldMap String) :
    (Outcome.of (requestOf environment)).Meets (fun _ => True) Failure.IsLack := by
  unfold requestOf
  split
  next => exact trivial
  next url _ _ =>
    cases RequestBuilder.ofUrl url "GET" with
    | ok b => exact trivial
    | error fault => exact rfl
  next => exact rfl

/-- So is a token file that is missing or no text. -/
theorem tokenIn_meets {files : Files} {name : String} (hdirectory : files.statusOfText name ≠ .directory)
    (hbehind : files.statusOfText name ≠ .behindFile) :
    (Outcome.of (tokenIn files name)).Meets (fun _ => True) Failure.IsLack := by
  unfold tokenIn
  cases hstatus : files.statusOfText name with
  | file content =>
    dsimp only
    cases Text.Utf8.decode content with
    | ok s => exact trivial
    | error fault => exact rfl
  | directory => exact absurd hstatus hdirectory
  | missing => exact rfl
  | behindFile => exact absurd hstatus hbehind

namespace Grounds

variable (h : Grounds host r w I)
include h

/-- The token of a request is found, or its lack is told. -/
theorem delivers_token {s : σ} (hs : I s) :
    (token host (host.environment s)).Delivers w I (fun _ => True) Failure.IsLack := by
  unfold token
  split
  next name hname =>
    have hfile : (Program.onThread fun s => tokenIn (host.files s) name).Delivers w I (fun _ => True) Failure.IsLack :=
      Program.delivers_onThread h.others fun s' hs' =>
        tokenIn_meets (h.tokenFile s s' name hs hs' hname).1 (h.tokenFile s s' name hs hs' hname).2
    exact hfile.bind fun _ _ => Program.delivers_value trivial
  next => exact Program.delivers_value trivial

/-- One attempt gives a welcome document or fails in whatever way. -/
theorem delivers_attempt (request : Request) :
    (do Program.ofExcept (document (← host.sendWithin config.timeout request)) : Program σ Json).Delivers w I
      (r.Welcomes "container") fun _ => True := by
  refine (h.sends config.timeout request).bind fun response hresponse => Program.delivers_ofExcept ?_
  cases hdocument : document response with
  | ok j => exact hresponse j hdocument
  | error f => exact trivial

/-- Asking some times gives a document that is welcome, or the lack of credentials. -/
theorem delivers_askUpTo (request : Request) (n : Nat) (last : Option Failure) :
    (askUpTo host config request n last).Delivers w I (r.Welcomes "container") Failure.IsLack := by
  induction n generalizing last with
  | zero => exact Program.delivers_failed rfl
  | succ n ih =>
    refine (h.delivers_attempt request).attempt.bind fun answer hanswer => ?_
    cases answer with
    | ok j => exact Program.delivers_value hanswer
    | error f =>
      dsimp only
      split
      next => exact ih (some f)
      next => exact ((h.sleeps _).mono (fun _ _ => trivial) fun _ hf => hf.elim).bind fun _ _ => ih (some f)

/-- Asking gives a document that is welcome, or the lack of credentials. -/
theorem delivers_ask (request : Request) :
    (ask host config request).Delivers w I (r.Welcomes "container") Failure.IsLack := by
  unfold ask
  cases isAllowed request.host with
  | true => exact h.delivers_askUpTo _ _ none
  | false => exact Program.delivers_failed rfl

/-- A fetch ends with an identity that is fit to be kept, or with a lack of credentials. -/
theorem delivers_fetch : (fetch host config).Delivers w I r.Fit Failure.IsLack := by
  refine (Program.delivers_read host.environment).bind fun environment ⟨s, hs, henvironment⟩ => ?_
  subst henvironment
  refine (Program.delivers_ofExcept (requestOf_meets _)).bind fun b _ => ?_
  refine (h.delivers_token hs).bind fun token _ => (h.delivers_ask _).bind fun j hj => hj.delivers

end Grounds

end SignedCall.Container
