import SignedCall.Credentials.Resolver

/-!
# Scripted resolvers

A resolver for rehearsals: it plays outcomes laid down beforehand, in order, the last one over and over, and records how it is used.
-/

namespace SignedCall

/-- What comes of a call: an identity or a failure, after some turns, and after a signal if it is held up. -/
structure ScriptedOutcome where
  result : Except Failure Identity
  turns : Nat := 0
  isHeld : Bool := false

/-- A scripted resolver: the outcomes that are left, the calls and the closings so far, and the properties of the last call. -/
structure ScriptedResolver where
  script : List ScriptedOutcome
  calls : Nat := 0
  closings : Nat := 0
  lastProperties : Option Properties := none

namespace ScriptedResolver

/-- The failure to find an outcome in a script without any. -/
def noScript : Failure := Failure.inner .general "no outcome"

/-- The next outcome. -/
def next (r : ScriptedResolver) : ScriptedOutcome := r.script.head?.getD { result := .error noScript }

/-- The script after an outcome was played: the last one stays. -/
def advanceScript : List ScriptedOutcome → List ScriptedOutcome
  | first :: second :: rest => (first :: second :: rest).tail
  | script => script

/-- Records a call. -/
def recordCall (properties : Properties) (r : ScriptedResolver) : ScriptedResolver :=
  { r with script := advanceScript r.script, calls := r.calls + 1, lastProperties := some properties }

variable {σ : Type}

/-- Plays an outcome. -/
def play (outcome : ScriptedOutcome) : Program σ Identity := do
  if outcome.isHeld then
    Program.wait (.signal .opened)
  Program.pauses outcome.turns
  Program.ofExcept outcome.result

/-- A call: it plays the outcome that is next when the call begins. -/
def call (slot : Slot σ ScriptedResolver) (properties : Properties) : Program σ Identity := do
  let r ← Program.read slot.get
  Program.put slot (r.recordCall properties)
  play r.next

/-- A closing, which may fail. -/
def closing (slot : Slot σ ScriptedResolver) (failure : Option Failure) : Program σ Unit := do
  Program.change (slot.modify fun r => { r with closings := r.closings + 1 })
  match failure with
  | some f => throw f
  | none => return ()

/-- The resolver with a script. -/
def resolver (slot : Slot σ ScriptedResolver) (name : String) (close : Option (Option Failure)) : Resolver σ where
  name
  identity := call slot
  close := close.map (closing slot)

end ScriptedResolver

end SignedCall
