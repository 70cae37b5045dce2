import SignedCall.Credentials.Environment
import SignedCall.Credentials.Shared
import SignedCall.Proofs.Task.Surroundings

/-!
# What a resolver answers

A resolver promises credentials with a key and a secret, or a failure that says that there are none: `AsPromised`. `answers` asks
a resolver time and again. The resolvers of the environment and of a profile keep nothing between calls. Main statements:
`environment_asPromised` (the environment's answer is always as promised) and `shared_asPromised_iff` (that of a profile is, exactly if its
file can be named and is text).
-/

namespace SignedCall

/-- An identity with a key and a secret: both are texts, and neither is empty. -/
def Identity.Complete (i : Identity) : Prop :=
  ∃ c key secret, i = .credentials c ∧ c.accessKeyId = .text key ∧ key ≠ "" ∧ c.secretAccessKey = .text secret ∧ secret ≠ ""

/-- A failure to find credentials. -/
def Failure.IsLack (f : Failure) : Prop := f.kind = .credentials

/-- A call that ends with credentials with a key and a secret, or with the failure to find any. -/
def AsPromised (o : Outcome Identity) : Prop := o.Meets Identity.Complete Failure.IsLack

/-- Texts that are not empty make a complete identity. -/
theorem Credentials.ofTexts_complete {key secret : String} (hkey : key ≠ "") (hsecret : secret ≠ "")
    (token account : Option String) : (Identity.credentials (ofTexts key secret token account)).Complete :=
  ⟨_, key, secret, rfl, rfl, hkey, rfl, hsecret⟩

/-- A variable that counts as set is not empty. -/
theorem ne_of_nonempty? {s : Option String} {x : String} (h : nonempty? s = some x) : x ≠ "" := by
  have := (Option.filter_eq_some_iff.1 h).2
  simpa using this

/-! ## Calls one after the other -/

/-- A call of a resolver: what the caller says, and what has happened to the state since the call before. -/
structure Asking (σ : Type) where
  properties : Properties := FieldMap.empty
  before : σ → σ := id

namespace Resolver

variable {σ : Type} {w : Surroundings σ} {r : Resolver σ}

/-- The outcomes of calls one after the other, and the state after them. -/
def answers (w : Surroundings σ) (r : Resolver σ) : List (Asking σ) → σ → List (Outcome Identity) × σ
  | [], s => ([], s)
  | first :: rest, s =>
    let (o, s) := (r.identity first.properties).runIn w (first.before s)
    let (os, s) := answers w r rest s
    (o :: os, s)

/-- What holds at the end of every call holds of all calls, if it holds of the state all along. -/
theorem answers_of_delivers {I : σ → Prop} {good : Identity → Prop} {fails : Failure → Prop}
    (h : ∀ properties, (r.identity properties).Delivers w I good fails) {calls : List (Asking σ)}
    (hbefore : ∀ call ∈ calls, ∀ s, I s → I (call.before s)) {s : σ} (hs : I s) :
    (∀ o ∈ (r.answers w calls s).1, o.Meets good fails) ∧ I (r.answers w calls s).2 := by
  induction calls generalizing s with
  | nil => exact ⟨fun o ho => absurd ho List.not_mem_nil, hs⟩
  | cons first rest ih =>
    obtain ⟨hfirst, hkept⟩ := h first.properties _ (hbefore first List.mem_cons_self s hs)
    obtain ⟨hrest, hend⟩ := ih (fun call hcall => hbefore call (List.mem_cons_of_mem _ hcall)) hkept
    refine ⟨fun o ho => ?_, hend⟩
    rcases List.mem_cons.1 ho with rfl | ho
    · exact hfirst
    · exact hrest o ho

end Resolver

/-! ## The environment -/

namespace EnvironmentResolver

/-- Whatever the variables hold, they give both keys, or that is what is missing. -/
theorem resolve_promised (environment : FieldMap String) : AsPromised (.of ((resolve environment).map Identity.credentials)) := by
  unfold resolve
  dsimp only
  split
  next key secret hkey hsecret =>
    have hsecret : secret ≠ "" := by
      rcases Option.or_eq_some_iff.1 hsecret with h | ⟨-, h⟩ <;> exact ne_of_nonempty? h
    exact Credentials.ofTexts_complete (ne_of_nonempty? hkey) hsecret _ _
  next => rfl

end EnvironmentResolver

variable {σ : Type} {w : Surroundings σ}

/-- The environment's answer is that of its variables. -/
theorem environment_runIn (host : Host σ) (properties : Properties) (s : σ) :
    ((Resolver.environment host).identity properties).runIn w s =
      (.of ((EnvironmentResolver.resolve (host.environment s)).map Identity.credentials), s) :=
  Program.runIn_ofExcept _ s

/-- So it is always as promised. -/
theorem environment_asPromised (host : Host σ) (properties : Properties) (s : σ) :
    AsPromised (((Resolver.environment host).identity properties).runIn w s).1 := by
  rw [environment_runIn]
  exact EnvironmentResolver.resolve_promised (host.environment s)

/-! ## Profiles -/

namespace SharedResolver

/-- The options of a profile give both keys, or that is what is missing. -/
theorem ofOptions_promised (profile : String) (path : FilePath) (found : Option (FieldMap String)) :
    AsPromised (.of ((ofOptions profile path found).map Identity.credentials)) := by
  unfold ofOptions
  cases found with
  | none => rfl
  | some options =>
    dsimp only
    split
    next key secret hkey hsecret =>
      exact Credentials.ofTexts_complete (ne_of_nonempty? hkey) (ne_of_nonempty? hsecret) _ _
    next => rfl

/-- The credentials of a profile in files. -/
def resolve (files : Files) (profile : String) (path : FilePath) : Except Failure Identity :=
  (Profile.read? files path profile).bind fun found => (ofOptions profile path found).map Identity.credentials

/-- What is read is as promised unless the file is no text. -/
theorem resolve_promised_iff (files : Files) (profile : String) (path : FilePath) :
    AsPromised (.of (resolve files profile path)) ↔
      ∀ content fault, files.content? path = some content → Ini.read content ≠ .error (.undecodable fault) := by
  unfold resolve Profile.read?
  cases hcontent : files.content? path with
  | none => exact ⟨fun _ _ _ h => (nomatch h), fun _ => ofOptions_promised profile path none⟩
  | some content =>
    dsimp only
    cases hread : Ini.read content with
    | ok ini =>
      refine ⟨fun _ content' fault h => ?_, fun _ => ofOptions_promised profile path (ini.options? profile)⟩
      cases h
      rw [hread]
      exact nofun
    | error fault =>
      cases fault with
      | undecodable fault =>
        exact ⟨fun h => absurd h (by simp [AsPromised, Outcome.Meets, Outcome.of, Failure.IsLack, Except.bind, Profile.unparsable, Ini.Fault.failure, Failure.inner]),
          fun h => absurd hread (h content fault rfl)⟩
      | missingSection | duplicateSection | duplicateOption | badLine =>
        refine ⟨fun _ content' fault' h => ?_, fun _ => rfl⟩
        cases h
        rw [hread]
        exact nofun

end SharedResolver

/-- A call for a profile names the file in the state where it begins, and reads it after a turn of the others. -/
theorem shared_runIn (host : Host σ) (profile file : Option String) (properties : Properties) (s : σ) :
    ((Resolver.shared host profile file).identity properties).runIn w s =
      match SharedResolver.path file (host.environment s) with
      | .ok path => (.of (SharedResolver.resolve (host.files (w.during .turn s))
          (SharedResolver.profileName profile (host.environment s)) path), w.during .turn s)
      | .error f => (.failed f, s) := by
  have hread : ((Resolver.shared host profile file).identity properties).runIn w s =
      (Program.ofExcept (SharedResolver.path file (host.environment s)) >>= fun path =>
        Program.onThread (fun s' => Profile.read? (host.files s') path
          (SharedResolver.profileName profile (host.environment s))) >>= fun found =>
        Program.ofExcept ((SharedResolver.ofOptions (SharedResolver.profileName profile (host.environment s)) path
          found).map Identity.credentials)).runIn w s := rfl
  rw [hread, Program.runIn_bind, Program.runIn_ofExcept]
  cases SharedResolver.path file (host.environment s) with
  | error f => rfl
  | ok path =>
    refine (Program.runIn_bind _ _ s).trans ?_
    rw [Program.runIn_onThread]
    dsimp only [SharedResolver.resolve]
    cases Profile.read? (host.files (w.during .turn s)) path (SharedResolver.profileName profile (host.environment s)) with
    | error f => rfl
    | ok found => exact Program.runIn_ofExcept _ _

/-- No home directory is no failure to find credentials. -/
theorem SharedResolver.path_error {file : Option String} {environment : FieldMap String} {f : Failure}
    (h : SharedResolver.path file environment = .error f) : f.kind ≠ .credentials := by
  unfold SharedResolver.path Profile.expand Profile.belowHome at h
  split at h <;> split at h <;> cases h <;> exact nofun

/-- The answer of a profile is as promised exactly if its file can be named and is text. -/
theorem shared_asPromised_iff (host : Host σ) (profile file : Option String) (properties : Properties) (s : σ) :
    AsPromised (((Resolver.shared host profile file).identity properties).runIn w s).1 ↔
      ∃ path, SharedResolver.path file (host.environment s) = .ok path ∧ ∀ content fault,
        (host.files (w.during .turn s)).content? path = some content → Ini.read content ≠ .error (.undecodable fault) := by
  rw [shared_runIn]
  cases hpath : SharedResolver.path file (host.environment s) with
  | error f => exact ⟨fun h => absurd h (SharedResolver.path_error hpath), fun ⟨_, h, _⟩ => nomatch h⟩
  | ok path =>
    rw [SharedResolver.resolve_promised_iff]
    exact ⟨fun h => ⟨path, rfl, h⟩, fun ⟨_, hok, h⟩ => Except.ok.inj hok ▸ h⟩

end SignedCall
