import SignedCall.Credentials.Scripted
import SignedCall.Proofs.Task.Frame
import SignedCall.Rehearsal

/-!
# What rehearsals leave alone

The scripted resolver, the scripted service and the sleeps of a rehearsal work on their own slots, and wait for no lock. They
leave alone every part of the state that those slots are apart from.
-/

namespace SignedCall

variable {σ τ : Type} {part : σ → τ}

namespace ScriptedResolver

/-- A call that plays a script leaves alone what its slot is apart from. -/
theorem call_keeps {slot : Slot σ ScriptedResolver} (h : slot.Apart part) (properties : Properties) :
    (call slot properties).Keeps part := by
  refine (Program.keeps_read part _).bind fun r => (Program.keeps_change fun s => h _ s).bind fun _ => ?_
  unfold play
  split
  · exact (Program.keeps_wait part _).bind fun _ => (Program.keeps_pauses part _).bind fun _ => Program.keeps_ofExcept part _
  · exact (Program.keeps_pauses part _).bind fun _ => Program.keeps_ofExcept part _

/-- A call that plays a script takes no lock. -/
theorem call_shuns (slot : Slot σ ScriptedResolver) (properties : Properties) (l : LockId) : (call slot properties).Shuns l := by
  have hopen : (Program.wait (.signal .opened) : Program σ Unit).Shuns l := Program.shuns_wait nofun
  refine (Program.shuns_read l _).bind fun r => (Program.shuns_change l _).bind fun _ => ?_
  unfold play
  split
  · exact hopen.bind fun _ => (Program.shuns_pauses l _).bind fun _ => Program.shuns_ofExcept l _
  · exact (Program.shuns_pauses l _).bind fun _ => Program.shuns_ofExcept l _

end ScriptedResolver

namespace ScriptedService

/-- A request that plays a script leaves alone what its slot is apart from. -/
theorem call_keeps {slot : Slot σ ScriptedService} (h : slot.Apart part) (limited : Bool) (request : Request) :
    (call slot limited request).Keeps part := by
  refine (Program.keeps_read part _).bind fun s => (Program.keeps_change fun s => h _ s).bind fun _ => ?_
  refine (Program.keeps_pauses part _).bind fun _ => (Program.keeps_read part _).bind fun s => ?_
  refine (Program.keeps_change fun s => h _ s).bind fun _ => ?_
  cases s.nextReply with
  | response r => exact trivial
  | failure f => exact trivial
  | silence => exact (Program.keeps_wait part _).bind fun _ => trivial

/-- A request without a limit of time leaves the same alone. -/
theorem send_keeps {slot : Slot σ ScriptedService} (h : slot.Apart part) (request : Request) : (send slot request).Keeps part :=
  call_keeps h false request

/-- A request with a limit of time leaves the same alone. -/
theorem sendWithin_keeps {slot : Slot σ ScriptedService} (h : slot.Apart part) (limit : Option Number) (request : Request) :
    (sendWithin slot limit request).Keeps part := by
  cases limit with
  | none => exact send_keeps h request
  | some seconds =>
    have hpause : (Program.pause : Program σ Unit).Keeps part := Program.keeps_wait part .turn
    have hanswer : ∀ answer : Except Failure Response, (do
        Program.pauses 2
        Program.ofExcept answer : Program σ Response).Keeps part :=
      fun answer => (Program.keeps_pauses part 2).bind fun _ => Program.keeps_ofExcept part answer
    refine hpause.bind fun _ => ?_
    dsimp only
    split
    · exact (call_keeps h true request).attempt.bind hanswer
    · exact hanswer (.error noAnswerInTime)

/-- A request that plays a script takes no lock. -/
theorem send_shuns (slot : Slot σ ScriptedService) (request : Request) (l : LockId) : (send slot request).Shuns l := by
  have hanswered : (Program.wait (.signal .answered) : Program σ Unit).Shuns l := Program.shuns_wait nofun
  refine (Program.shuns_read l _).bind fun s => (Program.shuns_change l _).bind fun _ => ?_
  refine (Program.shuns_pauses l _).bind fun _ => (Program.shuns_read l _).bind fun s => ?_
  refine (Program.shuns_change l _).bind fun _ => ?_
  cases s.nextReply with
  | response r => exact trivial
  | failure f => exact trivial
  | silence => exact hanswered.bind fun _ => trivial

end ScriptedService

namespace Rehearsal

theorem timeLimit_pos : 0 < timeLimit := by decide

/-- Rehearsals may start with the calendar. -/
def start : Instant := ⟨0, timeLimit_pos⟩

/-- A sleep leaves alone what its record is apart from. -/
theorem sleep_keeps {slot : Slot σ Rehearsal} {delay : Binary64} (h : ∀ s, part (slot.modify (recordSleep delay) s) = part s) :
    (sleep slot delay).Keeps part := by
  refine (Program.keeps_read part _).bind fun cancelled => (Program.keeps_change h).bind fun _ => ?_
  split
  · exact trivial
  · exact Program.keeps_wait part _

end Rehearsal

end SignedCall
