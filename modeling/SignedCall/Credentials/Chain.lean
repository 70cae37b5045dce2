import SignedCall.Credentials.Resolver

/-!
# Chains of resolvers

Resolvers that are asked one after the other until one gives an identity. A chain may remember the one that did and ask it first
the next time; if it fails then, it is forgotten and the whole chain is walked.
-/

namespace SignedCall

/-- Resolvers in order, where the position of the last one that gave an identity is remembered, and whether it is. -/
structure Chain (σ : Type) where
  resolvers : List (Resolver σ)
  lastUsed : Slot σ (Option Nat)
  reuses : Bool := true
  resolvers_ne_nil : resolvers ≠ []

namespace Chain

variable {σ : Type}

/-- The failure to make a chain of no resolvers. -/
def noResolvers : Failure := Failure.stated .configuration "At least one credentials resolver is required."

/-- A chain of some resolvers. -/
def make (resolvers : List (Resolver σ)) (lastUsed : Slot σ (Option Nat)) (reuses : Bool) : Except Failure (Chain σ) :=
  if h : resolvers = [] then .error noResolvers else .ok { resolvers, lastUsed, reuses, resolvers_ne_nil := h }

/-- The failure of all resolvers. -/
def allFailed (resolvers : List (Resolver σ)) (errors : List Failure) : Failure :=
  let summary := "; ".intercalate (List.zipWith (fun r f => r.name ++ ": " ++ f.text) resolvers errors)
  { kind := .chain, text := "Unable to load credentials from any resolver in the chain: [" ++ summary ++ "]", errors }

/-- Remembers the position of a resolver, if the chain does so at all. -/
def remember (chain : Chain σ) (position : Nat) : Program σ Unit :=
  if chain.reuses then Program.put chain.lastUsed (some position) else pure ()

/-- Forgets a position, unless another one has been remembered in the meantime. -/
def forget (chain : Chain σ) (position : Nat) : Program σ Unit :=
  Program.change (chain.lastUsed.modify fun remembered => if remembered = some position then none else remembered)

/-- Asks the resolvers from a position on, after the failures of those before. -/
def walk (chain : Chain σ) (properties : Properties) : List (Resolver σ) → Nat → List Failure → Program σ Identity
  | [], _, errors => throw (allFailed chain.resolvers errors)
  | r :: rest, position, errors => do
    match ← (r.identity properties).attempt with
    | .ok i => do
      chain.remember position
      return i
    | .error f => walk chain properties rest (position + 1) (errors ++ [f])

/-- Asks all resolvers in order. -/
def walkAll (chain : Chain σ) (properties : Properties) : Program σ Identity := chain.walk properties chain.resolvers 0 []

/-- The resolver to be asked first, with its position. -/
def first? (chain : Chain σ) (s : σ) : Option (Nat × Resolver σ) :=
  if chain.reuses then
    (chain.lastUsed.get s).bind fun position => chain.resolvers[position]?.map fun r => (position, r)
  else none

/-- The identity that the resolver to be asked first gives, or the whole chain. -/
def identityFrom (chain : Chain σ) (properties : Properties) : Option (Nat × Resolver σ) → Program σ Identity
  | none => chain.walkAll properties
  | some (position, r) => do
    match ← (r.identity properties).attempt with
    | .ok i => return i
    | .error _ => do
      chain.forget position
      chain.walkAll properties

/-- The identity for a call. -/
def identity (chain : Chain σ) (properties : Properties) : Program σ Identity :=
  .act id fun s => chain.identityFrom properties (chain.first? s)

/-- The failures to close some resolvers. -/
def unclosed (errors : List Failure) : Failure :=
  { kind := .group, errors
    text := "Failed to close credentials resolvers (" ++ toString errors.length ++
      (if errors.length = 1 then " sub-exception)" else " sub-exceptions)") }

/-- Closes resolvers one after the other, and gives the failures. -/
def closeAll : List (Resolver σ) → Program σ (List Failure)
  | [] => return []
  | r :: rest =>
    match r.close with
    | none => closeAll rest
    | some close => do
      let closed ← close.attempt
      let errors ← closeAll rest
      match closed with
      | .ok _ => return errors
      | .error f => return f :: errors

/-- Closes every resolver, also after one of them failed to close. -/
def close (chain : Chain σ) : Program σ Unit := do
  let errors ← closeAll chain.resolvers
  unless errors.isEmpty do
    throw (unclosed errors)

/-- A chain as a resolver. -/
def resolver (chain : Chain σ) : Resolver σ where
  name := "CredentialsProviderChain"
  identity := chain.identity
  close := some chain.close

end Chain

end SignedCall
