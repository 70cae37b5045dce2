import SignedCall.Proofs.Credentials.Fetches
import SignedCall.Proofs.Credentials.Frame
import SignedCall.Proofs.Task.Discipline
import SignedCall.Proofs.Task.Ended

/-!
# Background tasks and closings

Calls, background tasks and closings of one resolver may be interleaved and cancelled in any way. It is noted when a background task
is started, when a closing takes over the one that is kept, and when the closing is over. When a closing is over, every background
task that was started before the closing began has ended, and never has a turn again, except one that another closing had taken over
and still waits for (`close_outlasts_background`). So closings that do not overlap leave no background task behind, and of those that
do the later one may be over while the task is still at work (`close_outlasts_background_always_false`). Every run without notes is
such a run but for the notes (`exists_backgroundRecorded`).
-/

namespace SignedCall

/-- What happens to background tasks: one is started, where another one may have been kept before; a closing takes over the one that is
kept, if any; the closing is over. -/
inductive BackgroundEvent where
  | started (t : TaskId) (before : Option TaskId)
  | closing (taken : Option TaskId)
  | closed (taken : Option TaskId)
  deriving DecidableEq, Repr

namespace BackgroundEvent

/-- The task that has ended when an event is noted: a new task is started only after the one that was kept before has ended, and a
closing is over when the task that it took over has ended. -/
def ended? : BackgroundEvent → Option TaskId
  | .started _ before => before
  | .closing _ => none
  | .closed taken => taken

/-- Whether an event leaves nothing to be done. -/
def isLast : BackgroundEvent → Bool
  | .closing _ => false
  | _ => true

/-- What a task may note after its notes of the same piece of work: the end of a closing stands after its beginning, and anything else
stands alone. -/
def MayFollow (cur : List BackgroundEvent) : BackgroundEvent → Prop
  | .closed taken => cur = [.closing taken]
  | _ => cur = []

/-- The background task that is kept after what a journal tells. -/
inductive Leads : List BackgroundEvent → Option TaskId → Prop
  | nil : Leads [] none
  | started {js : List BackgroundEvent} {x : Option TaskId} (t : TaskId) : Leads js x → Leads (js ++ [.started t x]) (some t)
  | closing {js : List BackgroundEvent} {x : Option TaskId} : Leads js x → Leads (js ++ [.closing x]) none
  | closed {js : List BackgroundEvent} {x : Option TaskId} (y : Option TaskId) : Leads js x → Leads (js ++ [.closed y]) x

/-- Where a background task is accounted for: it is kept, it has ended, or a closing has taken it over. -/
def Placed (js : List BackgroundEvent) (x : Option TaskId) (t : TaskId) : Prop :=
  x = some t ∨ (∃ e ∈ js, e.ended? = some t) ∨ .closing (some t) ∈ js

variable {js ks ls : List BackgroundEvent} {x y : Option TaskId} {t : TaskId}

/-- One more note leaves a task accounted for, unless it was kept and is not kept any more. -/
theorem Placed.concat (h : Placed js x t) {e : BackgroundEvent} (hx : x = some t → Placed (js ++ [e]) y t) :
    Placed (js ++ [e]) y t := by
  rcases h with hkept | ⟨e', he', htold⟩ | hclosing
  · exact hx hkept
  · exact Or.inr (Or.inl ⟨e', List.mem_append_left _ he', htold⟩)
  · exact Or.inr (Or.inr (List.mem_append_left _ hclosing))

/-- Every background task that was started is accounted for. -/
theorem Leads.placed (h : Leads js x) {z : Option TaskId} (ht : .started t z ∈ js) : Placed js x t := by
  induction h with
  | nil => cases ht
  | @started js x u _ ih =>
    rcases List.mem_append.1 ht with ht | ht
    · exact (ih ht).concat fun hx => Or.inr (Or.inl ⟨.started u x, List.mem_append_right _ List.mem_cons_self, hx⟩)
    · obtain ⟨rfl, -⟩ := BackgroundEvent.started.inj (List.mem_singleton.1 ht)
      exact Or.inl rfl
  | @closing js x _ ih =>
    rcases List.mem_append.1 ht with ht | ht
    · exact (ih ht).concat fun hx => Or.inr (Or.inr (List.mem_append_right _ (hx ▸ List.mem_cons_self)))
    · cases List.mem_singleton.1 ht
  | closed y _ ih =>
    rcases List.mem_append.1 ht with ht | ht
    · exact (ih ht).concat Or.inl
    · cases List.mem_singleton.1 ht

/-- A closing takes over the task that is kept after what was noted before. -/
theorem Leads.before (h : Leads js x) (hsplit : js = ks ++ .closing y :: ls) : Leads ks y := by
  induction h generalizing ls with
  | nil => cases List.append_eq_nil_iff.1 hsplit.symm |>.2
  | started t _ ih =>
    rcases append_singleton_cases hsplit with ⟨-, he, -⟩ | ⟨ls', -, hsplit⟩
    · cases he
    · exact ih hsplit
  | closing h ih =>
    rcases append_singleton_cases hsplit with ⟨-, he, rfl⟩ | ⟨ls', -, hsplit⟩
    · obtain rfl := BackgroundEvent.closing.inj he
      exact h
    · exact ih hsplit
  | closed z _ ih =>
    rcases append_singleton_cases hsplit with ⟨-, he, -⟩ | ⟨ls', -, hsplit⟩
    · cases he
    · exact ih hsplit

/-- A closing that a task has begun is over, or it is what the task has in hand. -/
theorem closed_or_inHand (h : Proper isLast MayFollow js) (hx : .closing x ∈ js) :
    .closed x ∈ js ∨ since isLast js = [.closing x] := by
  induction js using List.reverseRecOn with
  | nil => cases hx
  | append_singleton js e ih =>
    have hmay : MayFollow (since isLast js) e := h js e [] rfl
    rw [since_concat]
    rcases List.mem_append.1 hx with hx | hx
    · rcases ih h.left hx with hclosed | hhand
      · exact Or.inl (List.mem_append_left _ hclosed)
      · -- What is in hand is the beginning of a closing, after which only its end may be noted.
        rw [hhand] at hmay
        cases e with
        | started t z => cases hmay
        | closing z => cases hmay
        | closed z =>
          cases hmay
          exact Or.inl (List.mem_append_right _ List.mem_cons_self)
    · obtain rfl := List.mem_singleton.1 hx
      have hempty : since isLast js = [] := hmay
      exact Or.inr (by rw [hempty]; rfl)

/-- A task begins a closing only when its earlier ones are over. -/
theorem closed_of_earlier (h : Proper isLast MayFollow (ks ++ .closing y :: ls)) (hx : .closing x ∈ ks) : .closed x ∈ ks := by
  have hidle : since isLast ks = [] := h ks (.closing y) ls rfl
  rcases closed_or_inHand h.left hx with hclosed | hhand
  · exact hclosed
  · rw [hidle] at hhand
    cases hhand

end BackgroundEvent

namespace Refreshing

open BackgroundEvent

variable {σ : Type} {r : Refreshing σ}

/-- The background task that is kept. -/
def background (r : Refreshing σ) (s : σ) : Option TaskId := (r.slot.get s).background

/-! ## Calls and closings with notes -/

/-- The same, with a journal of what happens to background tasks beside the state. -/
def watched (r : Refreshing σ) : Refreshing (σ × List BackgroundEvent) := r.beside r.fetch.beside

/-- Makes a background task, and notes which one was kept before. -/
def watchedSpawn (r : Refreshing σ) (before : Option TaskId) : Program (σ × List BackgroundEvent) Unit := do
  let t ← Program.start r.watched.refreshInBackground
  Program.announced (fun _ => .started t before) <|
    Program.change (r.watched.slot.modify fun state => { state with background := some t })

/-- Starts a background task and notes it, unless one is at work. -/
def watchedStart (r : Refreshing σ) : Program (σ × List BackgroundEvent) Unit := do
  let background ← Program.read fun s => r.background s.1
  let atWork ← match background with
    | none => pure false
    | some t => (!·) <$> Program.ended t
  unless atWork do
    r.watchedSpawn background

/-- The identity for a call, where it is noted when a background task is started. -/
def watchedCall (r : Refreshing σ) : Program (σ × List BackgroundEvent) Identity := r.watched.identityStarting r.watchedStart

/-- Cancels the background task and waits for its end; it is noted when it is taken over, and when that is done. -/
def watchedClose (r : Refreshing σ) : Program (σ × List BackgroundEvent) Unit := do
  let background ← Program.read fun s => r.background s.1
  Program.announced (fun _ => .closing background) do
    Program.change (r.watched.slot.modify fun state => { state with background := none })
    (waitOut background).reported fun _ _ => .closed background

/-- A background task is started alike with notes and without. -/
theorem watchedStart_noting : r.watchedStart.Noting r.startBackground := by
  have hfetch : (r.fetch.beside : Program (σ × List BackgroundEvent) Identity).Noting r.fetch := Program.noting_beside r.fetch
  have hbody : r.watched.refreshInBackground.Noting r.refreshInBackground :=
    ((fetchAndKeep_noting hfetch).withLock r.lock).attempt.bind fun _ => .done _
  have hnew : ∀ before, (r.watchedSpawn before).Noting (Program.start r.refreshInBackground >>= fun t =>
      Program.change (r.slot.modify fun state => { state with background := some t })) :=
    fun before => .spawn hbody fun t => .note _ (modify_noting _)
  refine (Program.noting_read (g := r.background) fun _ => rfl).bind fun background => ?_
  cases background with
  | none => exact hnew none
  | some t =>
    refine .hasEnded t fun ended => ?_
    cases ended with
    | true => exact hnew (some t)
    | false => exact .done _

/-- A call gives the same with notes of the background tasks and without. -/
theorem watchedCall_noting : r.watchedCall.Noting r.identity :=
  identityStarting_noting (Program.noting_beside r.fetch) watchedStart_noting

/-- A closing does the same with notes and without. -/
theorem watchedClose_noting : r.watchedClose.Noting r.close :=
  (Program.noting_read (g := r.background) fun _ => rfl).bind fun background =>
    .note _ ((modify_noting _).bind fun _ => (waitOut_noting background).reported _)

/-! ## What calls and closings keep to -/

/-- What the tasks keep to that call and close. -/
def backgroundDiscipline (r : Refreshing σ) : Discipline σ (Option TaskId) BackgroundEvent where
  part := r.background
  rests x js := Leads js x
  ends := isLast
  may := MayFollow

/-- What calls and closings are put together from. -/
inductive BackgroundPiece (r : Refreshing σ) : ∀ α : Type, Program (σ × List BackgroundEvent) α → Prop
  | other {α : Type} {p : Program (σ × List BackgroundEvent) α} : p.Keeps r.backgroundDiscipline.view → BackgroundPiece r α p
  | start : BackgroundPiece r Unit r.watchedStart
  | close : BackgroundPiece r Unit r.watchedClose

/-- Which background task is kept after a change is what the change says. -/
theorem background_modify (f : RefreshState → RefreshState) (s : σ × List BackgroundEvent) :
    r.background (r.watched.slot.modify f s).1 = (f (r.slot.get s.1)).background :=
  congrArg RefreshState.background (r.slot.get_modify f s.1)

section Pieces

variable (hfetch : r.fetch.Keeps r.background)
include hfetch

/-- A fetch and what is kept of it leave the background task alone, and the notes. -/
theorem watched_fetchAndKeep_keeps : r.watched.fetchAndKeep.Keeps r.backgroundDiscipline.view := by
  refine hfetch.beside.bind fun i => (Program.keeps_change fun s => ?_).bind fun _ => trivial
  exact Prod.ext (background_modify _ s) rfl

/-- A call is put together from what calls and closings are. -/
theorem built_watchedCall : r.watchedCall.Built r.BackgroundPiece := by
  have hquiet : ∀ {α : Type} {p : Program (σ × List BackgroundEvent) α}, p.Keeps r.backgroundDiscipline.view →
      p.Built r.BackgroundPiece := fun h => .piece (.other h)
  have hdone : ∀ (α : Type) (o : Outcome α), r.BackgroundPiece α (.done o) := fun _ _ => .other trivial
  have hrefresh := refresh_keeps_of (watched_fetchAndKeep_keeps hfetch)
  refine .bind hdone (hquiet (Program.keeps_read _ _)) fun found => ?_
  cases found with
  | none => exact hquiet hrefresh
  | some i =>
    refine .bind hdone (hquiet (isDue_keeps _ i)) fun stale => ?_
    cases stale with
    | true => exact hquiet hrefresh
    | false =>
      simp only [Bool.false_eq_true, if_false]
      split
      · refine .bind hdone (hquiet (isDue_keeps _ i)) fun early => ?_
        cases early with
        | true => exact .bind hdone (.piece .start) fun _ => hquiet trivial
        | false => exact hquiet trivial
      · exact hquiet trivial

/-! ### The notes tell only of tasks that have ended -/

/-- A new background task is noted along with the one before it, which has ended. -/
theorem vouches_watchedSpawn {before : Option TaskId} {known : List TaskId} (hbefore : ∀ t, before = some t → t ∈ known) :
    (r.watchedSpawn before).Vouches ended? known := by
  have hbody := refreshInBackground_keeps_of (watched_fetchAndKeep_keeps hfetch)
  have hkeep : ∀ t, (Program.change (r.watched.slot.modify fun state => { state with background := some t })).Keeps Prod.snd :=
    fun t => Program.keeps_change fun _ => rfl
  refine ⟨.of_keeps (hbody.map Prod.snd) [], fun t => ?_⟩
  exact Program.Vouches.announced (fun _ => hbefore) (.of_keeps (hkeep t) known)

/-- The background task that is noted as ended has been looked at. -/
theorem vouches_watchedStart : r.watchedStart.Vouches ended? [] := by
  refine Program.vouches_read fun before => ?_
  cases before with
  | none => exact vouches_watchedSpawn hfetch nofun
  | some t => exact ⟨trivial, vouches_watchedSpawn hfetch fun u hu => Option.some.inj hu ▸ List.mem_cons_self⟩

end Pieces

/-- A closing is over when the task that it took over has ended. -/
theorem vouches_waitOut (background : Option TaskId) :
    ((waitOut background).reported fun _ (_ : σ) => BackgroundEvent.closed background).Vouches ended? [] := by
  have hnote : ∀ (o : Outcome Unit) (known : List TaskId), (∀ t, background = some t → t ∈ known) →
      (Program.announced (fun _ : σ => BackgroundEvent.closed background) (.done o)).Vouches ended? known :=
    fun o known hknown => Program.Vouches.announced (fun _ => hknown) trivial
  cases background with
  | none => exact hnote _ [] nofun
  | some t =>
    have hself : ∀ u, some t = some u → u ∈ [t] := fun u hu => Option.some.inj hu ▸ List.mem_cons_self
    refine ⟨fun o => ?_, hnote _ [t] hself⟩
    cases o with
    | value u => exact hnote _ [t] hself
    | failed f => exact hnote _ [t] hself
    | cancelled => exact hnote _ [t] hself

/-- The notes of a closing tell only of a task that it has waited for. -/
theorem vouches_watchedClose : r.watchedClose.Vouches ended? [] :=
  Program.vouches_read fun background =>
    Program.Vouches.announced nofun (Program.vouches_change (fun _ => rfl) (vouches_waitOut background))

/-! ### The notes tell which task is kept -/

variable {s : σ × List BackgroundEvent}

/-- A new background task takes the place of the one that was kept. -/
theorem follows_watchedSpawn (hfetch : r.fetch.Keeps r.background) (hs : r.backgroundDiscipline.Rests s) :
    (r.watchedSpawn (r.background s.1)).Follows r.backgroundDiscipline r.backgroundDiscipline.Ended [] s := by
  have hbody := refreshInBackground_keeps_of (watched_fetchAndKeep_keeps hfetch)
  refine ⟨fun s hs => .of_keeps hbody [] hs, fun t => .announced rfl (Or.inl ⟨rfl, rfl, ?_⟩)⟩
  unfold Discipline.Rests
  rw [show r.backgroundDiscipline.part = r.background from rfl, background_modify]
  exact Leads.started t hs

/-- Starting a background task keeps the discipline. -/
theorem follows_watchedStart (hfetch : r.fetch.Keeps r.background) (hs : r.backgroundDiscipline.Rests s) :
    r.watchedStart.Follows r.backgroundDiscipline r.backgroundDiscipline.Ended [] s := by
  have hnew := follows_watchedSpawn hfetch hs
  refine Program.follows_read ?_
  generalize r.background s.1 = before at hnew ⊢
  cases before with
  | none => exact hnew
  | some t =>
    intro ended
    cases ended with
    | true => exact hnew
    | false => exact ⟨rfl, hs⟩

/-- A closing waits for the task that it has taken over, and notes that it is over. -/
theorem follows_waitOut (background : Option TaskId) (hs : r.backgroundDiscipline.Rests s) :
    ((waitOut background).reported fun _ _ => BackgroundEvent.closed background).Follows r.backgroundDiscipline
      r.backgroundDiscipline.Ended [.closing background] s := by
  have hnote : ∀ (o : Outcome Unit) (s : σ × List BackgroundEvent), r.backgroundDiscipline.Rests s →
      (Program.act (inscribe fun _ => BackgroundEvent.closed background) fun _ => .done o).Follows r.backgroundDiscipline
        r.backgroundDiscipline.Ended [.closing background] s :=
    fun o s hs => Or.inr ⟨_, rfl, rfl, rfl, Leads.closed background hs⟩
  cases background with
  | none => exact hnote _ s hs
  | some t =>
    intro ended
    cases ended with
    | true => exact hnote _ s hs
    | false =>
      refine ⟨hs, fun o s' _ hs' => ?_⟩
      cases o with
      | value u => exact hnote _ s' hs'
      | failed f => exact hnote _ s' hs'
      | cancelled => exact hnote _ s' hs'

/-- A closing takes over the background task that is kept, and is over after it. -/
theorem follows_watchedClose (hs : r.backgroundDiscipline.Rests s) :
    r.watchedClose.Follows r.backgroundDiscipline r.backgroundDiscipline.Ended [] s := by
  refine Program.follows_read (Program.Follows.announced rfl (Program.follows_change rfl (follows_waitOut _ ?_)))
  unfold Discipline.Rests
  rw [show r.backgroundDiscipline.part = r.background from rfl, background_modify]
  exact Leads.closing hs

/-! ## Runs -/

/-- What a task may do: call, close, and anything that leaves alone which background task is kept. -/
inductive BackgroundUse (r : Refreshing σ) : ∀ α : Type, Program (σ × List BackgroundEvent) α → Prop
  | other {α : Type} {p : Program (σ × List BackgroundEvent) α} : p.Keeps r.backgroundDiscipline.view → BackgroundUse r α p
  | call : BackgroundUse r Identity r.watchedCall
  | close : BackgroundUse r Unit r.watchedClose

/-- The points of runs that begin with no background task kept, and nothing noted, with who made which note on the way. -/
def BackgroundRecorded (r : Refreshing σ) : Pool (σ × List BackgroundEvent) → Record BackgroundEvent → Prop :=
  Pool.Recorded (fun s => r.background s.1 = none ∧ s.2 = []) (Move.Within r.BackgroundUse r.backgroundDiscipline.view)

/-- Whatever a task may do is put together from the pieces of calls and closings. -/
theorem BackgroundUse.built (hfetch : r.fetch.Keeps r.background) {α : Type} {p : Program (σ × List BackgroundEvent) α}
    (hp : r.BackgroundUse α p) : p.Built r.BackgroundPiece := by
  cases hp with
  | other hkeeps => exact .piece (.other hkeeps)
  | call => exact built_watchedCall hfetch
  | close => exact .piece .close

/-- Whatever a task may do notes only those as ended that have ended. -/
theorem BackgroundUse.vouches (hfetch : r.fetch.Keeps r.background) {α : Type} {p : Program (σ × List BackgroundEvent) α}
    (hp : r.BackgroundUse α p) : p.Vouches ended? [] := by
  refine Program.vouches_built (fun α p hp => ?_) (hp.built hfetch)
  cases hp with
  | other hkeeps => exact .of_keeps (hkeeps.map Prod.snd) []
  | start => exact vouches_watchedStart hfetch
  | close => exact vouches_watchedClose

/-- Whatever a task may do keeps the discipline. -/
theorem BackgroundUse.follows (hfetch : r.fetch.Keeps r.background) {α : Type} {p : Program (σ × List BackgroundEvent) α}
    (hp : r.BackgroundUse α p) {s : σ × List BackgroundEvent} (hs : r.backgroundDiscipline.Rests s) :
    p.Follows r.backgroundDiscipline r.backgroundDiscipline.Ended [] s := by
  refine Program.follows_built (fun α p hp s hs => ?_) (hp.built hfetch) hs
  cases hp with
  | other hkeeps => exact .of_keeps hkeeps [] hs
  | start => exact follows_watchedStart hfetch hs
  | close => exact follows_watchedClose hs

variable {p : Pool (σ × List BackgroundEvent)} {record : Record BackgroundEvent}

/-- In every run the journal tells which background task is kept, the notes of each task are proper, and the tasks that they tell to
have ended have done so. -/
theorem BackgroundRecorded.tells (hfetch : r.fetch.Keeps r.background) (h : r.BackgroundRecorded p record) :
    Leads record.journal (r.background p.state.1) ∧ (∀ t, SignedCall.Proper isLast MayFollow (record.trail t)) ∧
      ∀ e ∈ record.journal, ∀ u, e.ended? = some u → p.hasEnded u = true := by
  have hstart : ∀ s : σ × List BackgroundEvent, r.background s.1 = none ∧ s.2 = [] →
      s.2 = [] ∧ r.backgroundDiscipline.Rests s := by
    rintro ⟨s, js⟩ ⟨hnone, rfl⟩
    have hleads : Leads [] (r.background s) := hnone ▸ Leads.nil
    exact ⟨rfl, hleads⟩
  obtain ⟨hjournal, hleads, hproper⟩ :=
    Pool.Recorded.disciplined hstart (fun _ => Pool.admits_of_within fun _ _ hp _ hs => BackgroundUse.follows hfetch hp hs) h
  have hended :=
    h.reached.vouched (fun s hs => hs.2) fun _ => Pool.vouching_of_within fun _ _ hp => BackgroundUse.vouches hfetch hp
  rw [hjournal] at hended
  exact ⟨hjournal ▸ hleads, hproper, hended⟩

/-- Take any run in which calls, background tasks, closings, cancellations and other work are interleaved, and any closing in it that is
over, from the note of its beginning to that of its end. Every background task that was started before it began has ended, stays so
whatever happens, and its turns change nothing, unless another closing that had begun before has taken it over and is not over. -/
theorem close_outlasts_background (hfetch : r.fetch.Keeps r.background) (h : r.BackgroundRecorded p record)
    {front rest : Record BackgroundEvent} {c : TaskId} {x : Option TaskId} (hsplit : record = front ++ (c, .closed x) :: rest) :
    ∃ before mid : Record BackgroundEvent, front = before ++ (c, .closing x) :: mid ∧ (∀ e ∈ mid, e.1 ≠ c) ∧
      ∀ b z, .started b z ∈ before.journal →
        (∀ ms, (p.steps ms).hasEnded b = true ∧ (p.steps ms).step (.turn b) = p.steps ms) ∨
        ∃ c', c' ≠ c ∧ (c', .closing (some b)) ∈ before ∧ (c', .closed (some b)) ∉ record := by
  obtain ⟨hleads, hproper, hended⟩ := h.tells hfetch
  -- The closing that is over is the last thing that its task noted before.
  have hhand : since isLast (front.trail c) = [.closing x] := hproper c _ _ _ (Record.trail_split hsplit)
  obtain ⟨earlier, hearlier⟩ := since_suffix isLast (front.trail c)
  rw [hhand] at hearlier
  obtain ⟨before, mid, rfl, htrail, hmid⟩ := Record.exists_of_trail_concat hearlier
  refine ⟨before, mid, rfl, hmid, fun b z hb => ?_⟩
  have hjournal : record.journal = before.journal ++ .closing x :: (Record.journal mid ++ .closed x :: Record.journal rest) := by
    rw [hsplit]
    simp [Record.journal]
  have hbegun : record = before ++ (c, .closing x) :: (mid ++ (c, .closed x) :: rest) := by
    rw [hsplit, List.append_assoc]
    rfl
  have hforever : ∀ e ∈ record.journal, e.ended? = some b →
      ∀ ms, (p.steps ms).hasEnded b = true ∧ (p.steps ms).step (.turn b) = p.steps ms := by
    intro e he htold ms
    have hafter := Pool.hasEnded_steps (hended e he b htold) ms
    exact ⟨hafter, Pool.resume_of_hasEnded hafter⟩
  rcases (hleads.before hjournal).placed hb with rfl | ⟨e, he, htold⟩ | hclosing
  · refine Or.inl (hforever (.closed (some b)) ?_ rfl)
    rw [hjournal]
    simp
  · refine Or.inl (hforever e ?_ htold)
    rw [hjournal]
    exact List.mem_append_left _ he
  · obtain ⟨⟨c', e⟩, hmem, rfl⟩ := List.mem_map.1 hclosing
    by_cases hclosed : (c', .closed (some b)) ∈ record
    · exact Or.inl (hforever (.closed (some b)) (List.mem_map_of_mem hclosed) rfl)
    · refine Or.inr ⟨c', ?_, hmem, hclosed⟩
      rintro rfl
      have hown := hproper c'
      rw [Record.trail_split hbegun] at hown
      refine hclosed ?_
      rw [hbegun]
      exact List.mem_append_left _ (Record.mem_trail.1 (closed_of_earlier hown (Record.mem_trail.2 hmem)))

/-! ## Runs without notes -/

/-- What a task may do, without notes. -/
inductive PlainBackgroundUse (r : Refreshing σ) : ∀ α : Type, Program σ α → Prop
  | other {α : Type} {q : Program σ α} : q.Keeps r.background → PlainBackgroundUse r α q
  | identity : PlainBackgroundUse r Identity r.identity
  | close : PlainBackgroundUse r Unit r.close

/-- What a task may do without notes it may do with notes, too. -/
theorem PlainBackgroundUse.noting {α : Type} {q : Program σ α} (hq : r.PlainBackgroundUse α q) :
    ∃ p, r.BackgroundUse α p ∧ p.Noting q := by
  cases hq with
  | other hkeeps => exact ⟨q.beside, .other hkeeps.beside, Program.noting_beside q⟩
  | identity => exact ⟨r.watchedCall, .call, watchedCall_noting⟩
  | close => exact ⟨r.watchedClose, .close, watchedClose_noting⟩

/-- Every run of tasks that call and close is one with notes, but for the notes. -/
theorem exists_backgroundRecorded {q : Pool σ}
    (hq : Pool.Reached (fun s => r.background s = none) (Move.Within r.PlainBackgroundUse r.background) q) :
    ∃ p record, r.BackgroundRecorded p record ∧ p.Noting q := hq.exists_recorded_noting fun _ _ hq => hq.noting

/-! ## A rehearsal -/

/-- A resolver that plays a script, and fetches in the background. -/
def prefetching : Refreshing Stage := { scripted with prefetches := true }

/-- A fetch that plays a script leaves the background task alone. -/
theorem prefetching_fetch_keeps : prefetching.fetch.Keeps prefetching.background := ScriptedResolver.call_keeps (fun _ _ => rfl) _

/-- A task that asks for the identity once. -/
def watcher (r : Refreshing σ) : Program (σ × List BackgroundEvent) Unit := r.watchedCall.andThen fun o => .done o.withoutValue

/-- The first identity expires in 200 seconds, and the next fetch takes a turn. -/
def shortLived : Stage :=
  (({}, { script := [{ result := .ok (.anonymous (some ⟨1200 * secondMicros, by decide⟩)) },
      { result := .ok (.anonymous none), turns := 1 }] }), ⟨1000 * secondMicros, by decide⟩)

/-- The second call starts a background task, which is fetching when a closing takes it over; another closing finds nothing to do. -/
def twoClosings : List (Move (Stage × List BackgroundEvent)) :=
  [.start prefetching.watcher, .turn 0, .start prefetching.watcher, .turn 1, .turn 2, .start prefetching.watchedClose, .turn 3,
    .start prefetching.watchedClose, .turn 4]

/-- The notes of the background task and the two closings. -/
def closingRecord : Record BackgroundEvent :=
  [(1, .started 2 none), (3, .closing (some 2)), (4, .closing none), (4, .closed none)]

/-- The call and the two closings are a run with these notes. -/
theorem recorded_twoClosings :
    prefetching.BackgroundRecorded (Pool.steps { state := (shortLived, []) } twoClosings) closingRecord := by
  have hwatcher : prefetching.watcher.Built prefetching.BackgroundUse :=
    .andThen (.piece .call) fun _ => .piece (.other trivial)
  have hcloser : prefetching.watchedClose.Built prefetching.BackgroundUse := .piece .close
  have hstart : prefetching.BackgroundRecorded { state := (shortLived, []) } [] := .start ⟨rfl, rfl⟩
  exact Pool.Recorded.steps hstart (by simp [twoClosings, Move.Within, hwatcher, hcloser])

/-- The closing that took the background task over is over once that task has ended, and then it stays so. -/
theorem close_outlasts_background_twoClosings :
    let p := (Pool.steps { state := (shortLived, []) } twoClosings).steps [.turn 2, .turn 3]
    let record := closingRecord ++ [(3, .closed (some 2))]
    prefetching.fetch.Keeps prefetching.background ∧ prefetching.BackgroundRecorded p record ∧
      ∀ ms, (p.steps ms).hasEnded 2 = true ∧ (p.steps ms).step (.turn 2) = p.steps ms := by
  intro p record
  have hrecorded : prefetching.BackgroundRecorded p record := Pool.Recorded.steps recorded_twoClosings (by simp [Move.Within])
  refine ⟨prefetching_fetch_keeps, hrecorded, ?_⟩
  have hclosed : record = closingRecord ++ (3, .closed (some 2)) :: [] := rfl
  obtain ⟨before, mid, hfront, -, hstarted⟩ := close_outlasts_background prefetching_fetch_keeps hrecorded hclosed
  -- The only closing that takes a background task over is the second note.
  obtain ⟨rfl, -⟩ : before = [(1, .started 2 none)] ∧ mid = [(4, .closing none), (4, .closed none)] := by
    simpa [closingRecord, List.cons_eq_append_iff] using hfront
  rcases hstarted 2 none List.mem_cons_self with hended | ⟨c', -, hmem, -⟩
  · exact hended
  · simp at hmem

/-- A closing may be over while a background task that was started before is still at work. -/
theorem close_outlasts_background_always_false :
    ¬∀ p record, prefetching.BackgroundRecorded p record →
      ∀ (before mid rest : Record BackgroundEvent) (c : TaskId) (x : Option TaskId),
        record = before ++ (c, .closing x) :: mid ++ (c, .closed x) :: rest → (∀ e ∈ mid, e.1 ≠ c) →
          ∀ b z, .started b z ∈ before.journal → p.hasEnded b = true := by
  intro h
  have hended := h _ _ recorded_twoClosings [(1, .started 2 none), (3, .closing (some 2))] [] [] 4 none rfl nofun 2 none
    List.mem_cons_self
  cases hended

end Refreshing

end SignedCall
