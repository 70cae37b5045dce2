import SignedCall.Proofs.Credentials.Notes

/-!
# The pieces of a resolver

A resolver that keeps an identity beside a journal is put together from its fetch and from pieces that make no notes
(`Refreshing.built_identity`, `Refreshing.built_close`). So what is known of the notes of its fetch is known of all that it does.
-/

namespace SignedCall.Refreshing

variable {σ ν α β : Type} {r : Refreshing (σ × List ν)}

/-- A fetch, or work that makes no notes. -/
inductive Piece (r : Refreshing (σ × List ν)) : ∀ α : Type, Program (σ × List ν) α → Prop
  | fetch : Piece r Identity r.fetch
  | quiet {α : Type} {p : Program (σ × List ν) α} : p.Keeps Prod.snd → Piece r α p

/-- Work that makes no notes is a piece. -/
theorem built_quiet {p : Program (σ × List ν) α} (hp : p.Keeps Prod.snd) : p.Built r.Piece := .piece (.quiet hp)

/-- Pieces may be put one after the other. -/
theorem built_bind {p : Program (σ × List ν) α} {next : α → Program (σ × List ν) β} (hp : p.Built r.Piece)
    (hn : ∀ a, (next a).Built r.Piece) : (p >>= next).Built r.Piece := hp.bind (fun _ _ => .quiet trivial) hn

/-- Pieces may be put under a lock. -/
theorem built_withLock {p : Program (σ × List ν) α} (hp : p.Built r.Piece) (l : LockId) :
    (Program.withLock l p).Built r.Piece := by
  refine .andThen (p := Program.wait (.lock l)) (built_quiet fun _ => trivial) fun o => ?_
  cases o with
  | value u => exact .andThen hp fun o => built_quiet trivial
  | failed f => exact built_quiet trivial
  | cancelled => exact built_quiet trivial

theorem built_cached : r.cached.Built r.Piece := built_quiet (Program.keeps_read _ _)

theorem built_isDue (w : Int) (i : Identity) : (r.isDue w i).Built r.Piece :=
  built_quiet ((Program.keeps_read _ _).bind fun _ => Program.keeps_ofExcept _ _)

variable (hslot : r.slot.Apart Prod.snd)
include hslot

theorem built_modify (f : RefreshState → RefreshState) : (Program.change (r.slot.modify f)).Built r.Piece :=
  built_quiet (Program.keeps_change fun s => hslot _ s)

theorem built_fetchAndKeep : r.fetchAndKeep.Built r.Piece :=
  built_bind (.piece .fetch) fun _ => built_bind (built_modify hslot _) fun _ => built_quiet trivial

/-- A fetch under the lock is put together from pieces. -/
theorem built_refresh : r.refresh.Built r.Piece := by
  refine built_withLock (built_bind built_cached fun x => ?_) r.lock
  cases x with
  | none => exact built_fetchAndKeep hslot
  | some i =>
    refine built_bind (built_isDue _ i) fun due => ?_
    cases due with
    | true => exact built_fetchAndKeep hslot
    | false => exact built_quiet trivial

/-- Starting a background task is put together from pieces, and so is the task. -/
theorem built_startBackground : r.startBackground.Built r.Piece := by
  have hbody : r.refreshInBackground.Built r.Piece := by
    refine built_bind (.andThen (built_withLock (built_fetchAndKeep hslot) r.lock) fun o => ?_) fun _ => built_quiet trivial
    cases o <;> exact built_quiet trivial
  have hstart : (Program.start r.refreshInBackground).Built r.Piece := .start hbody fun _ => built_quiet trivial
  have hnew : (Program.start r.refreshInBackground >>= fun t =>
      Program.change (r.slot.modify fun state => { state with background := some t })).Built r.Piece :=
    built_bind hstart fun _ => built_modify hslot _
  refine built_bind (built_quiet (Program.keeps_read _ _)) fun background => ?_
  cases background with
  | none => exact hnew
  | some t =>
    have hatWork : ((!·) <$> Program.ended t : Program (σ × List ν) Bool).Built r.Piece := built_quiet fun _ => trivial
    refine built_bind hatWork fun atWork => ?_
    cases atWork with
    | true => exact built_quiet trivial
    | false => exact hnew

/-- A call is put together from fetches and work that makes no notes. -/
theorem built_identity : r.identity.Built r.Piece := by
  refine built_bind built_cached fun x => ?_
  cases x with
  | none => exact built_refresh hslot
  | some i =>
    refine built_bind (built_isDue _ i) fun stale => ?_
    cases stale with
    | true => exact built_refresh hslot
    | false =>
      simp only [Bool.false_eq_true, if_false]
      split
      · refine built_bind (built_isDue _ i) fun early => ?_
        cases early with
        | true => exact built_bind (built_startBackground hslot) fun _ => built_quiet trivial
        | false => exact built_quiet trivial
      · exact built_quiet trivial

/-- A closing makes no notes. -/
theorem built_close : r.close.Built r.Piece := by
  refine built_quiet ((Program.keeps_read _ _).bind fun background => (Program.keeps_change fun s => hslot _ s).bind fun _ => ?_)
  cases background with
  | none => exact trivial
  | some t =>
    intro ended
    cases ended with
    | true => exact trivial
    | false =>
      intro o
      cases o <;> exact trivial

end SignedCall.Refreshing
