import SignedCall.Proofs.Container.Documents
import SignedCall.Proofs.Container.Notes
import SignedCall.Proofs.Host
import SignedCall.Proofs.Http.Headers
import SignedCall.Proofs.Json.Bare
import SignedCall.Proofs.Rehearsal

/-!
# Asking for a document again and again

A container's metadata service is asked until an answer has a document, at most as often as the settings say, with a delay between two
requests (`Container.transcript`). `Runs` says how it ends with which answers; every run that nothing cuts short is of this kind
(`Container.comesTo_askUpTo`), whatever it meets. So the answers alone decide how many requests there are and what comes of them
(`Container.asks_again`).
-/

namespace SignedCall.Container

variable {σ : Type} {host : Host σ} {config : ContainerConfig}

/-! ## How asking goes -/

/-- What happens when a request is answered some times, with a delay between two of them. -/
def transcript (request : Request) (delay : Binary64) : List (Except Failure Response) → List HostEvent
  | [] => []
  | a :: rest =>
    .sent request :: .answered request (.of a) ::
      if rest.isEmpty then [] else .slept delay (.value ()) :: transcript request delay rest

/-- How asking at most a number of times, after a failure of the last attempt, ends with which answers. -/
inductive Runs (config : ContainerConfig) : Nat → Option Failure → List (Except Failure Response) → Outcome Json → Prop
  | spent {last : Option Failure} : Runs config 0 last [] (.failed (exhausted config last))
  | found {n : Nat} {last : Option Failure} {a : Except Failure Response} {j : Json} :
      Has a j → Runs config (n + 1) last [a] (.value j)
  | again {n : Nat} {last : Option Failure} {a : Except Failure Response} {f : Failure} {rest : List (Except Failure Response)}
      {o : Outcome Json} :
      Lacks a f → Runs config n (some f) rest o → Runs config (n + 1) last (a :: rest) o

/-- Whether nothing is cut short: no request is given up from outside, and all sleeps come to their ends. -/
def Undisturbed (events : List HostEvent) : Prop :=
  (∀ request, HostEvent.answered request .cancelled ∉ events) ∧ ∀ delay o, HostEvent.slept delay o ∈ events → o = .value ()

/-- How asking ends, if some things were noted before. -/
def Ends (config : ContainerConfig) (request : Request) (n : Nat) (last : Option Failure) (js : List (HostNote σ)) (o : Outcome Json)
    (s : σ × List (HostNote σ)) : Prop :=
  ∃ notes, s.2 = js ++ notes ∧ (Undisturbed (notes.map Prod.fst) →
    ∃ answers, notes.map Prod.fst = transcript request config.retryDelay.toBinary64 answers ∧ Runs config n last answers o)

/-- There are no answers only if nothing may be asked. -/
theorem Runs.isEmpty {n : Nat} {last : Option Failure} {answers : List (Except Failure Response)} {o : Outcome Json}
    (h : Runs config n last answers o) : answers.isEmpty = decide (n = 0) := by
  cases h <;> simp

/-- After an attempt that has no document, and the delay unless it was the last one, asking ends as it does from there on. -/
theorem Ends.again {request : Request} {n : Nat} {last : Option Failure} {js : List (HostNote σ)} {a : Except Failure Response}
    {f : Failure} {s₁ s₂ : σ} {o : Outcome Json} {s : σ × List (HostNote σ)} (pause : List (HostNote σ)) (hf : Lacks a f)
    (hpause : pause.map Prod.fst = if n = 0 then [] else [.slept config.retryDelay.toBinary64 (.value ())])
    (h : Ends config request n (some f) (js ++ ((.sent request, s₁) :: (.answered request (.of a), s₂) :: pause)) o s) :
    Ends config request (n + 1) last js o s := by
  obtain ⟨notes, hnotes, hends⟩ := h
  refine ⟨_, hnotes.trans (List.append_assoc _ _ _), fun hundisturbed => ?_⟩
  obtain ⟨answers, htranscript, hruns⟩ := hends
    ⟨fun request hmem => hundisturbed.1 request (by simp [hmem]), fun delay o hmem => hundisturbed.2 delay o (by simp [hmem])⟩
  refine ⟨a :: answers, ?_, .again hf hruns⟩
  rw [transcript, hruns.isEmpty]
  by_cases hn : n = 0
  · have hnone : answers = [] := by simpa [hn] using hruns.isEmpty
    simp [hpause, hn, htranscript, hnone, transcript]
  · simp [hpause, hn, htranscript]

/-- One attempt: the request is handed over and answered, and the answer has a document or gives the failure. -/
theorem comesTo_attempt (request : Request) {s : σ × List (HostNote σ)} :
    (do Program.ofExcept (document (← host.logged.sendWithin config.timeout request)) :
        Program (σ × List (HostNote σ)) Json).ComesTo (Host.besides (fun _ => True) fun _ => ())
      (fun o s' => ∃ x s₁ s₂, s'.2 = s.2 ++ [(.sent request, s₁), (.answered request x, s₂)] ∧
        ((∃ a, x = .of a ∧ o = .of (documentIn a)) ∨ (x = .cancelled ∧ o = .cancelled))) s := by
  refine (Host.comesTo_sendWithin (Program.keeps_const (host.sendWithin config.timeout request) ())).bind ?_ ?_ ?_
  · rintro r s' ⟨-, hnotes⟩
    exact Program.comesTo_ofExcept ⟨_, _, _, hnotes, Or.inl ⟨.ok r, rfl, rfl⟩⟩
  · rintro f s' ⟨-, hnotes⟩
    exact ⟨_, _, _, hnotes, Or.inl ⟨.error f, rfl, rfl⟩⟩
  · rintro s' ⟨-, hnotes⟩
    exact ⟨_, _, _, hnotes, Or.inr ⟨rfl, rfl⟩⟩

/-- Asking a number of times ends as its answers say, whatever it meets. The induction is on the number of requests that are left. -/
theorem comesTo_askUpTo (request : Request) (n : Nat) (last : Option Failure) {js : List (HostNote σ)}
    {s : σ × List (HostNote σ)} (hs : s.2 = js) :
    (askUpTo host.logged config request n last).ComesTo (Host.besides (fun _ => True) fun _ => ()) (Ends config request n last js) s := by
  induction n generalizing last js s with
  | zero => exact Program.comesTo_done ⟨[], by rw [hs, List.append_nil], fun _ => ⟨[], rfl, .spent⟩⟩
  | succ n ih =>
    refine (comesTo_attempt request).attempt ?_ ?_ ?_
    · rintro j s' ⟨x, s₁, s₂, hnotes, ⟨a, rfl, ha⟩ | ⟨-, hcancelled⟩⟩
      · have hj : Has a j := documentIn_eq_ok_iff.1 (Outcome.of_eq_value ha.symm)
        exact Program.comesTo_done ⟨_, hs ▸ hnotes, fun _ => ⟨[a], rfl, .found hj⟩⟩
      · cases hcancelled
    · rintro f s' ⟨x, s₁, s₂, hnotes, ⟨a, rfl, ha⟩ | ⟨-, hcancelled⟩⟩
      · have hf : Lacks a f := documentIn_eq_error_iff.1 (Outcome.of_eq_failed ha.symm)
        rw [hs] at hnotes
        change (if n = 0 then _ else _ : Program (σ × List (HostNote σ)) Json).ComesTo _ _ s'
        split
        · next hn => exact (ih (some f) hnotes).mono fun o s' h => h.again [] hf (by simp [hn])
        · next hn =>
          refine (Host.comesTo_sleep (Program.keeps_const (host.sleep config.retryDelay.toBinary64) ())).andThen ?_
          rintro o s'' ⟨-, hslept⟩
          rw [hnotes, List.append_assoc] at hslept
          have hcut : o ≠ .value () → ∀ o', Ends config request (n + 1) last js o' s'' := by
            intro ho o'
            refine ⟨_, hslept, fun hundisturbed => absurd (hundisturbed.2 config.retryDelay.toBinary64 o ?_) ho⟩
            simp
          cases o with
          | value u => exact (ih (some f) hslept).mono fun o s' h => h.again [_] hf (by simp [hn])
          | failed f => exact Program.comesTo_done (hcut nofun _)
          | cancelled => exact Program.comesTo_done (hcut nofun _)
      · cases hcancelled
    · rintro s' ⟨x, s₁, s₂, hnotes, ⟨a, -, ha⟩ | ⟨rfl, -⟩⟩
      · exact absurd ha.symm Outcome.of_ne_cancelled
      · exact ⟨_, hs ▸ hnotes, fun hundisturbed => absurd (hundisturbed.1 request) (by simp)⟩

/-! ## Asking in a rehearsal -/

/-- The answer that a scripted reply gives in time, or the failure to. -/
def answerTo : Reply → Except Failure Response
  | .response r => .ok r
  | .failure f => .error f
  | .silence => .error ScriptedService.noAnswerInTime

/-- A rehearsal after one more request. -/
def asked (q : Request) (r : Rehearsal) : Rehearsal :=
  { r with service := { r.service with calls := r.service.calls + 1 }.arrive q }

/-- A rehearsal without delays of its own, in which no sleep is cancelled. -/
structure Smooth (r : Rehearsal) : Prop where
  turns : r.service.turns = []
  cancelledSleep : r.cancelledSleep = none

section Rehearsed

variable {q : Request} {r : Rehearsal} {js : List (HostNote Rehearsal)}

/-- A program that is followed by another one, if all that they meet is the same. -/
theorem play_bind_const {α β : Type} (p : Program σ α) (next : α → Program σ β) (e : Reaction σ) (s : σ) :
    (p >>= next).play (fun _ => e) s =
      (Program.onValue next (p.play (fun _ => e) s).1).play (fun _ => e) (p.play (fun _ => e) s).2 := by
  obtain ⟨m, hm⟩ := Program.play_andThen p (Program.onValue next) (fun _ => e) s
  exact hm

/-- A request that is sent in a rehearsal gets the next reply. -/
theorem play_sendWithin (h : Smooth r) {reply : Reply} {more : List Reply} (hreplies : r.service.replies = reply :: more) :
    ((Rehearsal.host Slot.whole).logged.sendWithin (some (.whole 2)) q).play (fun _ => Reaction.beside {}) (r, js) =
      (.of (answerTo reply), asked q r, js ++ [(.sent q, r)] ++ [(.answered q (.of (answerTo reply)), asked q r)]) := by
  obtain ⟨now, environment, files, draws, ⟨replies, turns, calls, requests⟩, sleeps, cancelledSleep⟩ := r
  obtain ⟨rfl, rfl⟩ := h
  obtain rfl := hreplies
  cases reply <;> rfl

/-- A sleep in a rehearsal is over at once. -/
theorem play_sleep (h : Smooth r) (delay : Binary64) :
    ((Rehearsal.host Slot.whole).logged.sleep delay).play (fun _ => Reaction.beside {}) (r, js) =
      (.value (), r.recordSleep delay, js ++ [(.slept delay (.value ()), r.recordSleep delay)]) := by
  obtain ⟨now, environment, files, draws, service, sleeps, cancelledSleep⟩ := r
  obtain ⟨-, rfl⟩ := h
  rfl

/-- A request leaves a rehearsal smooth. -/
theorem Smooth.asked (h : Smooth r) : Smooth (asked q r) := ⟨h.turns, h.cancelledSleep⟩

/-- A sleep leaves a rehearsal smooth. -/
theorem Smooth.recordSleep (h : Smooth r) (delay : Binary64) : Smooth (r.recordSleep delay) :=
  ⟨h.turns, by rw [Rehearsal.recordSleep, h.cancelledSleep]; rfl⟩

/-- One attempt in a rehearsal takes the document from the next reply, or fails for the reason why there is none. -/
theorem play_attempt (h : Smooth r) {reply : Reply} {more : List Reply} (hreplies : r.service.replies = reply :: more) :
    (do Program.ofExcept (document (← (Rehearsal.host Slot.whole).logged.sendWithin (some (.whole 2)) q)) :
        Program (Rehearsal × List (HostNote Rehearsal)) Json).attempt.play (fun _ => Reaction.beside {}) (r, js) =
      (.value (documentIn (answerTo reply)), asked q r,
        js ++ [(.sent q, r)] ++ [(.answered q (.of (answerTo reply)), asked q r)]) := by
  have hattempt : ∀ {p : Program (Rehearsal × List (HostNote Rehearsal)) Json} {e : Except Failure Json} {s s'},
      p.play (fun _ => Reaction.beside {}) s = (.of e, s') → p.attempt.play (fun _ => Reaction.beside {}) s = (.value e, s') := by
    intro p e s s' hp
    obtain ⟨m, hm⟩ := Program.play_andThen p _ (fun _ => Reaction.beside {}) s
    refine hm.trans ?_
    rw [hp]
    cases e <;> rfl
  refine hattempt ?_
  rw [play_bind_const, play_sendWithin h hreplies]
  cases answerTo reply with
  | error f => rfl
  | ok r =>
    change (Program.ofExcept (document r)).play _ _ = (Outcome.of (document r), _)
    generalize document r = e
    cases e <;> rfl

/-- As long as the replies before the last one have no document, every one of them is asked for. -/
theorem events_askUpTo (hlimit : config.timeout = some (.whole 2)) (replies : List Reply) (last : Option Failure)
    (notes : List (HostNote Rehearsal)) (h : Smooth r) (hreplies : r.service.replies = replies)
    (hlacks : ∀ reply ∈ replies.dropLast, ∃ f, Lacks (answerTo reply) f) :
    ((askUpTo (Rehearsal.host Slot.whole).logged config q replies.length last).play (fun _ => Reaction.beside {})
        (r, notes)).2.2.map Prod.fst =
      notes.map Prod.fst ++ transcript q config.retryDelay.toBinary64 (replies.map answerTo) := by
  induction replies generalizing last r notes with
  | nil => exact (List.append_nil _).symm
  | cons reply replies ih =>
    rw [List.length_cons, askUpTo, play_bind_const, hlimit, play_attempt h hreplies]
    cases replies with
    | nil =>
      -- Whether the last reply has a document or not, nothing is asked for after it.
      cases documentIn (answerTo reply) <;> simp [transcript, Program.onValue, askUpTo, Program.play, pure, throw]
    | cons next replies =>
      obtain ⟨f, hf⟩ := hlacks reply (by simp)
      have hnext := ih (r := (asked q r).recordSleep config.retryDelay.toBinary64) (some f)
        (notes ++ [(.sent q, r)] ++ [(.answered q (.of (answerTo reply)), asked q r)] ++
          [(.slept config.retryDelay.toBinary64 (.value ()), (asked q r).recordSleep config.retryDelay.toBinary64)])
        (h.asked.recordSleep _) (congrArg List.tail hreplies) fun reply hmem => hlacks reply (List.mem_cons_of_mem _ hmem)
      rw [hf.documentIn_eq, Program.onValue]
      dsimp only
      rw [if_neg (by simp), play_bind_const, play_sleep h.asked, Program.onValue]
      refine hnext.trans ?_
      simp [transcript]

end Rehearsed

/-! ## What the answers decide -/

/-- The first document in a sequence of answers, and its place. -/
def FirstDocument (a : Nat → Except Failure Response) (k : Nat) (j : Json) : Prop := Has (a k) j ∧ ∀ i < k, ∀ j', ¬Has (a i) j'

/-- The failure of the last of some attempts: why its answer has no document, or what was there before if there is no attempt. -/
inductive LastFailure (a : Nat → Except Failure Response) (last : Option Failure) : Nat → Option Failure → Prop
  | before : LastFailure a last 0 last
  | attempt {n : Nat} {f : Failure} : Lacks (a n) f → LastFailure a last (n + 1) (some f)

/-- The last failure after a first attempt is the last one of the attempts that follow, or its own if none does. -/
theorem LastFailure.shift {a : Nat → Except Failure Response} {f : Failure} {n : Nat} {cause : Option Failure}
    (h : LastFailure (fun i => a (i + 1)) (some f) n cause) (hf : Lacks (a 0) f) (last : Option Failure) :
    LastFailure a last (n + 1) cause := by
  cases h with
  | before => exact .attempt hf
  | attempt hlast => exact .attempt hlast

/-- After an answer without a document, the first document is the first one of the answers that follow. -/
theorem firstDocument_succ_iff {a : Nat → Except Failure Response} {f : Failure} (hf : Lacks (a 0) f) (k : Nat) (j : Json) :
    FirstDocument a (k + 1) j ↔ FirstDocument (fun i => a (i + 1)) k j := by
  constructor
  · rintro ⟨hj, hbefore⟩
    exact ⟨hj, fun i hi => hbefore (i + 1) (Nat.succ_lt_succ hi)⟩
  · rintro ⟨hj, hbefore⟩
    refine ⟨hj, fun i hi j' hj' => ?_⟩
    cases i with
    | zero => exact hj'.not_lacks f hf
    | succ i => exact hbefore i (Nat.lt_of_succ_lt_succ hi) j' hj'

/-- What comes of asking is decided by the first of the answers that has a document. -/
theorem Runs.decided {n : Nat} {last : Option Failure} {answers : List (Except Failure Response)} {o : Outcome Json}
    (h : Runs config n last answers o) {a : Nat → Except Failure Response} (ha : ∀ i x, answers[i]? = some x → x = a i) :
    answers = (List.range answers.length).map a ∧
      (∀ k j, FirstDocument a k j → answers.length = min n (k + 1) ∧ (k < n → o = .value j)) ∧
      ((∀ k j, FirstDocument a k j → n ≤ k) →
        answers.length = n ∧ ∃ cause, o = .failed (exhausted config cause) ∧ LastFailure a last n cause) := by
  induction h generalizing a with
  | spent => exact ⟨rfl, fun k j _ => ⟨(Nat.zero_min _).symm, nofun⟩, fun _ => ⟨rfl, _, rfl, .before⟩⟩
  | @found n last x j hj =>
    obtain rfl : x = a 0 := ha 0 x rfl
    refine ⟨rfl, fun k j' hfirst => ?_, fun hnone => absurd (hnone 0 j ⟨hj, nofun⟩) (Nat.not_succ_le_zero n)⟩
    cases k with
    | zero => exact ⟨by simp, fun _ => congrArg _ (hj.eq hfirst.1)⟩
    | succ k => exact absurd hj (hfirst.2 0 (Nat.succ_pos k) j)
  | @again n last x f rest o hf _ ih =>
    obtain rfl : x = a 0 := ha 0 x rfl
    obtain ⟨hrest, hfound, hnone⟩ := ih (a := fun i => a (i + 1)) fun i x hx => ha (i + 1) x hx
    refine ⟨?_, fun k j hfirst => ?_, fun hlater => ?_⟩
    · rw [List.length_cons, List.range_succ_eq_map, List.map_cons, List.map_map]
      exact congrArg _ hrest
    · cases k with
      | zero => exact absurd hf (hfirst.1.not_lacks f)
      | succ k =>
        obtain ⟨hlength, ho⟩ := hfound k j ((firstDocument_succ_iff hf k j).1 hfirst)
        rw [List.length_cons]
        exact ⟨by omega, fun hk => ho (Nat.lt_of_succ_lt_succ hk)⟩
    · obtain ⟨hlength, cause, ho, hcause⟩ :=
        hnone fun k j hfirst => Nat.le_of_succ_le_succ (hlater (k + 1) j ((firstDocument_succ_iff hf k j).2 hfirst))
      rw [List.length_cons, hlength]
      exact ⟨rfl, cause, ho, hcause.shift hf last⟩

/-- How requests were answered, in order. -/
def answersIn (events : List HostEvent) : List (Outcome Response) :=
  events.filterMap fun
    | .answered _ o => some o
    | _ => none

/-- The answers in a transcript are those that it is made of. -/
theorem answersIn_transcript (request : Request) (delay : Binary64) (answers : List (Except Failure Response)) :
    answersIn (transcript request delay answers) = answers.map .of := by
  induction answers with
  | nil => rfl
  | cons a rest ih =>
    unfold transcript
    split
    · next hrest =>
      obtain rfl := List.isEmpty_iff.1 hrest
      rfl
    · exact congrArg (Outcome.of a :: ·) ih

/-- The sleeps in a transcript come to their ends. -/
theorem slept_transcript {request : Request} {delay : Binary64} {answers : List (Except Failure Response)} {delay' : Binary64}
    {x : Outcome Unit} (h : HostEvent.slept delay' x ∈ transcript request delay answers) : x = .value () := by
  induction answers with
  | nil => cases h
  | cons a rest ih =>
    unfold transcript at h
    split at h
    · simp at h
    · simp only [List.mem_cons, reduceCtorEq, HostEvent.slept.injEq, false_or] at h
      rcases h with ⟨-, hx⟩ | h
      · exact hx
      · exact ih h

/-- Take a host that may be asked, and any sequence of answers: responses of any kind, failures, or a request that is not answered in
time. The notes do not change how the asking ends, and in which state. The request that is sent is the one given with its `Accept` field
set, each time. There are as many requests as the settings allow, or fewer if an answer before has a document: if its status is 200,
and its body is a text in UTF-8 that writes the document in JSON. Between two requests is the delay, and after the last one there is
none. The first document is what comes of it if it is among these answers; else there is a failure that is caused by that of the last
request. -/
theorem asks_again {request : Request} (hallowed : isAllowed request.host = true) (env : Nat → Reaction σ) (s : σ) {o : Outcome Json}
    {s' : σ} {notes : List (HostNote σ)}
    (hrun : (ask host.logged config request).play (fun n => (env n).beside) (s, []) = (o, s', notes))
    {a : Nat → Except Failure Response} (hanswers : ∀ i x, (answersIn (notes.map Prod.fst))[i]? = some x → x = Outcome.of (a i))
    (hsleeps : ∀ delay x, HostEvent.slept delay x ∈ notes.map Prod.fst → x = .value ()) :
    (ask host config request).play env s = (o, s') ∧
      ∃ q, Request.Sets "Accept" "application/json" request q ∧
        ∃ m, notes.map Prod.fst = transcript q config.retryDelay.toBinary64 ((List.range m).map a) ∧
          (∀ k j, FirstDocument a k j → m = min config.retries.toNat (k + 1) ∧ (k < config.retries.toNat → o = .value j)) ∧
          ((∀ k j, FirstDocument a k j → config.retries.toNat ≤ k) → m = config.retries.toNat ∧
            ∃ f, o = .failed f ∧ f.kind = .credentials ∧
              f.text = "Failed to retrieve container metadata after " ++ toString config.retries ++ " attempt(s)" ∧
              LastFailure a none config.retries.toNat f.cause) := by
  have hcomes : (ask host.logged config request).ComesTo (Host.besides (fun _ => True) fun _ => ())
      (Ends config (request.toBuilder.setHeader "Accept" "application/json").build config.retries.toNat none []) (s, []) := by
    unfold ask
    rw [if_pos hallowed]
    exact comesTo_askUpTo _ _ none rfl
  have hnoting : (ask host.logged config request).Noting (ask host config request) := ask_noting host.logged_noting request
  have hends := hcomes (fun n => (env n).beside) fun _ => ⟨trivial, fun _ => rfl⟩
  obtain ⟨_, hsame⟩ := hnoting.play env s []
  rw [hrun] at hends hsame
  obtain ⟨notes', hnotes, hends⟩ := hends
  obtain rfl : notes = notes' := hnotes
  have hundisturbed : Undisturbed (notes.map Prod.fst) := by
    refine ⟨fun q hmem => ?_, hsleeps⟩
    have hcancelled : Outcome.cancelled ∈ answersIn (notes.map Prod.fst) := List.mem_filterMap.2 ⟨_, hmem, rfl⟩
    obtain ⟨i, hi⟩ := List.mem_iff_getElem?.1 hcancelled
    exact Outcome.of_ne_cancelled (hanswers i _ hi).symm
  obtain ⟨answers, htranscript, hruns⟩ := hends hundisturbed
  have ha : ∀ i x, answers[i]? = some x → x = a i := by
    intro i x hx
    refine Outcome.of_injective (hanswers i _ ?_)
    rw [htranscript, answersIn_transcript, List.getElem?_map, hx]
    rfl
  obtain ⟨hrange, hfound, hnone⟩ := hruns.decided ha
  have hplain : (ask host config request).play env s = (o, s') := by
    simp only [Prod.mk.injEq] at hsame
    exact Prod.ext hsame.1.symm hsame.2.1.symm
  have hsets : Request.Sets "Accept" "application/json" request (request.toBuilder.setHeader "Accept" "application/json").build := by
    have hset := request.toBuilder.sets_setHeader "Accept" "application/json"
    rwa [request.build_toBuilder] at hset
  refine ⟨hplain, _, hsets, answers.length, hrange ▸ htranscript, hfound, fun hlater => ?_⟩
  obtain ⟨hlength, cause, ho, hcause⟩ := hnone hlater
  exact ⟨hlength, _, ho, rfl, rfl, hcause⟩

/-- A request to the machine itself that asks for something else. -/
def forText : Request := RequestBuilder.build { host := "localhost", headers := FieldMap.ofList [("accept", "text/plain")] }

/-- What a service does that is not available at first, then does not answer in time, then has bytes that are no text, then a text that
writes nothing, and at last a token. -/
def lateReplies : List Reply :=
  [.response { status := 503, body := Text.Utf8.encode "busy" }, .silence, .response { body := [0xff] },
    .response { body := Text.Utf8.encode "soon" }, .response { body := Text.Utf8.encode "\x7b\"Token\": \"t\"\x7d" }]

/-- The answers that such a service gives. -/
def lateAnswers (i : Nat) : Except Failure Response := (lateReplies[i]?.map answerTo).getD (.error ScriptedService.unanswered)

/-- A rehearsal with some replies. -/
def lateService (replies : List Reply) : Rehearsal := { now := Rehearsal.start, service := { replies } }

/-- The document that is there at last. -/
def lateDocument : Json := .object [("Token", .text "t")]

/-- The last reply writes this document. -/
theorem read?_lateDocument : Json.read? "\x7b\"Token\": \"t\"\x7d" = some lateDocument := by
  have htext : String.ofList (Json.bare (fun _ => [' ']) lateDocument) = "\x7b\"Token\": \"t\"\x7d" := by decide +kernel
  have htidy : Json.Tidy lateDocument := by
    refine .object _ (by decide) fun field hfield => ?_
    obtain rfl := List.mem_singleton.1 hfield
    exact .text "t"
  have hgap : Json.Blanks fun _ => [' '] := fun _ => List.forall_mem_singleton.2 rfl
  rw [← htext]
  exact Json.read?_bare htidy hgap (by decide +kernel)

/-- No reply before the last one has a document, each for another reason. -/
theorem lacks_lateReplies : ∀ reply ∈ lateReplies.dropLast, ∃ f, Lacks (answerTo reply) f := by
  have hsoon : Json.read? "soon" = none := by decide +kernel
  simp only [lateReplies, List.dropLast_cons_cons, List.dropLast_singleton, List.forall_mem_cons]
  exact ⟨⟨_, .refused (by decide) rfl⟩, ⟨_, .unanswered _⟩, ⟨_, .undecodable rfl rfl⟩, ⟨_, .unparsable rfl rfl hsoon⟩,
    nofun⟩

/-- The answers are those to the replies, as far as there are replies. -/
theorem lateAnswers_eq {replies : List Reply} (h : replies <+: lateReplies) {i : Nat} {reply : Reply}
    (hi : replies[i]? = some reply) : lateAnswers i = answerTo reply := by
  have hreply : lateReplies[i]? = some reply := by
    obtain ⟨more, hmore⟩ := h
    rw [← hmore, List.getElem?_append_left (List.getElem?_eq_some_iff.1 hi).1, hi]
  rw [lateAnswers, hreply]
  rfl

/-- The first document of the service comes with its fifth answer. -/
theorem firstDocument_lateAnswers : FirstDocument lateAnswers 4 lateDocument := by
  refine ⟨⟨_, _, rfl, rfl, rfl, read?_lateDocument⟩, fun i hi j hj => ?_⟩
  have hlength : i < lateReplies.dropLast.length := hi
  have hbegins : lateReplies.dropLast <+: lateReplies := List.dropLast_prefix _
  obtain ⟨f, hf⟩ := lacks_lateReplies _ (List.getElem_mem hlength)
  rw [← lateAnswers_eq hbegins (List.getElem?_eq_getElem hlength)] at hf
  exact hj.not_lacks f hf

/-- What happens when a service is asked as often as it has replies, the last of which may have a document. -/
theorem events_ask {replies : List Reply} (hlacks : ∀ reply ∈ replies.dropLast, ∃ f, Lacks (answerTo reply) f) :
    ((ask (Rehearsal.host Slot.whole).logged { retries := replies.length } forText).play (fun _ => Reaction.beside {})
        (lateService replies, [])).2.2.map Prod.fst =
      transcript (forText.toBuilder.setHeader "Accept" "application/json").build (Number.whole 1).toBinary64 (replies.map answerTo) := by
  have hallowed : isAllowed forText.host = true := by decide +kernel
  unfold ask
  rw [if_pos hallowed]
  exact events_askUpTo rfl replies none [] ⟨rfl, rfl⟩ rfl hlacks

/-- Asked five times such a service gives its document; asked four times, the text that writes nothing is the cause of the failure. -/
theorem asks_again_late :
    let run (replies : List Reply) := (ask (Rehearsal.host Slot.whole).logged { retries := replies.length } forText).play
      (fun _ => Reaction.beside {}) (lateService replies, [])
    isAllowed forText.host = true ∧
      ((run lateReplies).1 = .value lateDocument ∧
        ∃ q, q.header? "ACCEPT" = some "application/json" ∧
          (run lateReplies).2.2.map Prod.fst = transcript q (Number.whole 1).toBinary64 ((List.range 5).map lateAnswers)) ∧
      ∃ f cause, (run lateReplies.dropLast).1 = .failed f ∧
        f.text = "Failed to retrieve container metadata after 4 attempt(s)" ∧ f.cause = some cause ∧
        Lacks (.ok { body := Text.Utf8.encode "soon" }) cause := by
  intro run
  have hallowed : isAllowed forText.host = true := by decide +kernel
  have hanswers : ∀ {replies : List Reply}, replies <+: lateReplies →
      (∀ reply ∈ replies.dropLast, ∃ f, Lacks (answerTo reply) f) →
      ∀ i x, (answersIn ((run replies).2.2.map Prod.fst))[i]? = some x → x = Outcome.of (lateAnswers i) := by
    intro replies hbegins hlacks i x hx
    rw [events_ask hlacks, answersIn_transcript, List.getElem?_map, Option.map_eq_some_iff] at hx
    obtain ⟨a, ha, rfl⟩ := hx
    rw [List.getElem?_map, Option.map_eq_some_iff] at ha
    obtain ⟨reply, hreply, rfl⟩ := ha
    rw [lateAnswers_eq hbegins hreply]
  have hsleeps : ∀ {replies : List Reply}, (∀ reply ∈ replies.dropLast, ∃ f, Lacks (answerTo reply) f) →
      ∀ delay x, HostEvent.slept delay x ∈ (run replies).2.2.map Prod.fst → x = .value () := by
    intro replies hlacks delay x hx
    rw [events_ask hlacks] at hx
    exact slept_transcript hx
  have hrun : ∀ replies, run replies = ((run replies).1, (run replies).2.1, (run replies).2.2) := fun _ => rfl
  have hbegins : lateReplies.dropLast <+: lateReplies := List.dropLast_prefix _
  have hfour : ∀ reply ∈ lateReplies.dropLast.dropLast, ∃ f, Lacks (answerTo reply) f :=
    fun reply hmem => lacks_lateReplies reply (List.dropLast_subset _ hmem)
  obtain ⟨-, q, hsets, m, htranscript, hfound, -⟩ := asks_again hallowed (fun _ => {}) (lateService lateReplies) (hrun _)
    (hanswers (List.prefix_refl _) lacks_lateReplies) (hsleeps lacks_lateReplies)
  obtain ⟨rfl, hvalue⟩ := hfound 4 lateDocument firstDocument_lateAnswers
  obtain ⟨-, -, -, m', -, -, hnone⟩ := asks_again hallowed (fun _ => {}) (lateService lateReplies.dropLast) (hrun _)
    (hanswers hbegins hfour) (hsleeps hfour)
  have hlater : ∀ k j, FirstDocument lateAnswers k j → 4 ≤ k :=
    fun k j hfirst => Nat.le_of_not_lt fun hk => firstDocument_lateAnswers.2 k hk j hfirst.1
  obtain ⟨-, f, hf, -, htext, hcause⟩ := hnone hlater
  have hlast : ∀ {cause}, LastFailure lateAnswers none 4 cause →
      ∃ f', cause = some f' ∧ Lacks (.ok { body := Text.Utf8.encode "soon" }) f' := by
    rintro _ (_ | hlacks)
    exact ⟨_, rfl, hlacks⟩
  obtain ⟨f', hcause, hlacks⟩ := hlast hcause
  refine ⟨hallowed, ⟨hvalue (by decide), q, ?_, htranscript⟩, f, f', hf, htext, hcause, hlacks⟩
  rw [hsets.header?]
  exact if_pos (by decide +kernel)

end SignedCall.Container
