import SignedCall.Failure
import SignedCall.Http.Response
import SignedCall.Task.Program

/-!
# Scripted services

A service for rehearsals: it records the requests that reach it and answers them with replies laid down beforehand, in order.
-/

namespace SignedCall

/-- What a scripted service does with a request. -/
inductive Reply where
  | response (r : Response)
  | failure (f : Failure)
  | silence

/-- A scripted service: the replies that are left, how many turns each call passes before its request arrives, the number of calls
so far, and the requests that arrived. -/
structure ScriptedService where
  replies : List Reply := []
  turns : List Nat := []
  calls : Nat := 0
  requests : List Request := []

namespace ScriptedService

/-- Lays down one more reply, and the turns that the call of the same number passes. -/
def add (s : ScriptedService) (reply : Reply) (turns : Nat) : ScriptedService :=
  { s with replies := s.replies ++ [reply], turns := s.turns ++ [turns] }

/-- The failure to answer without a reply that is left. -/
def unanswered : Failure := Failure.stated .unanswered
  "No responses queued in MockHTTPClient. Use add_response() to queue responses."

/-- The failure to answer in time. -/
def noAnswerInTime : Failure := Failure.inner .timeout ""

/-- The next reply. -/
def nextReply (s : ScriptedService) : Reply := s.replies.head?.getD (.failure unanswered)

/-- A request arrives and uses up the next reply. -/
def arrive (request : Request) (s : ScriptedService) : ScriptedService :=
  { s with replies := s.replies.tail, requests := s.requests ++ [request] }

variable {σ : Type}

/-- Waits for a reply to arrive; the time may be limited. -/
def receive (limited : Bool) : Reply → Program σ Response
  | .response r => pure r
  | .failure f => throw f
  | .silence => do
    Program.wait (.signal (if limited then .timeUp else .answered))
    throw noAnswerInTime

/-- Sends a request to a scripted service. -/
def call (slot : Slot σ ScriptedService) (limited : Bool) (request : Request) : Program σ Response := do
  let s ← Program.read slot.get
  Program.put slot { s with calls := s.calls + 1 }
  Program.pauses (s.turns[s.calls]?.getD 0)
  let s ← Program.read slot.get
  Program.put slot (s.arrive request)
  receive limited s.nextReply

/-- Sends a request and waits for the answer however long it takes. -/
def send (slot : Slot σ ScriptedService) (request : Request) : Program σ Response := call slot false request

/-- Sends a request and waits for the answer in a task of its own for at most some seconds, if they are limited. -/
def sendWithin (slot : Slot σ ScriptedService) (limit : Option Number) (request : Request) : Program σ Response :=
  match limit with
  | none => send slot request
  | some seconds => do
    Program.pause
    let answer ← if seconds.isPositive then (call slot true request).attempt else pure (.error noAnswerInTime)
    Program.pauses 2
    Program.ofExcept answer

end ScriptedService

end SignedCall
