import SignedCall.Host
import SignedCall.Http.Scripted

/-!
# Rehearsals

A host for rehearsals: its clock stands still unless it is moved, its service is scripted, and a sleep is over at once.
-/

namespace SignedCall

/-- All that a rehearsal takes place in, and what it records. A cancellation may be due at one of the sleeps to come. -/
structure Rehearsal where
  now : Instant
  environment : FieldMap String := FieldMap.empty
  files : Files := FieldMap.empty
  draws : Draws := { values := [] }
  service : ScriptedService := {}
  sleeps : List Binary64 := []
  cancelledSleep : Option Nat := none

namespace Rehearsal

/-- The random draws of a rehearsal. -/
def drawsSlot : Slot Rehearsal Draws where
  get := draws
  set x r := { r with draws := x }
  get_set _ _ := rfl
  set_get _ := rfl
  set_set _ _ _ := rfl

/-- The service of a rehearsal. -/
def serviceSlot : Slot Rehearsal ScriptedService where
  get := service
  set x r := { r with service := x }
  get_set _ _ := rfl
  set_get _ := rfl
  set_set _ _ _ := rfl

/-- Moves the clock by some microseconds, if it stays in the calendar. -/
def advance (micros : Int) (r : Rehearsal) : Rehearsal := { r with now := (r.now.add? micros).getD r.now }

/-- Whether the next sleep is the one that is cancelled. -/
def cancelsNextSleep (r : Rehearsal) : Bool := r.cancelledSleep == some 1

/-- Records a sleep. -/
def recordSleep (delay : Binary64) (r : Rehearsal) : Rehearsal :=
  { r with sleeps := r.sleeps ++ [delay], cancelledSleep := r.cancelledSleep.bind fun n => if n ≤ 1 then none else some (n - 1) }

variable {σ : Type}

/-- Sleeps. -/
def sleep (slot : Slot σ Rehearsal) (delay : Binary64) : Program σ Unit := do
  let cancelled ← Program.read fun s => (slot.get s).cancelsNextSleep
  Program.change (slot.modify (recordSleep delay))
  if cancelled then .done .cancelled else Program.pause

/-- The host of a rehearsal that is part of a state. -/
def host (slot : Slot σ Rehearsal) : Host σ where
  now s := (slot.get s).now
  environment s := (slot.get s).environment
  files s := (slot.get s).files
  draws := slot.comp drawsSlot
  send := ScriptedService.send (slot.comp serviceSlot)
  sendWithin := ScriptedService.sendWithin (slot.comp serviceSlot)
  sleep := sleep slot

end Rehearsal

end SignedCall
