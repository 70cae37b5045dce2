import SignedCall.Text.Split
import SignedCall.Text.Digit
import SignedCall.Bytes.Hex

/-!
# Internet addresses

The two kinds of numeric addresses and their strict text forms: four decimal numbers without leading zeros, or up to eight
groups of hexadecimal digits, at most one run of which is left out, with an optional zone.
-/

namespace SignedCall

/-- A numeric address. -/
inductive Address where
  | v4 (value : Nat)
  | v6 (value : Nat)
  deriving DecidableEq, Repr

namespace Address

/-- The value of one decimal part. -/
def octet? (cs : List Char) : Option Nat :=
  if cs.isEmpty || !cs.all Text.isAsciiDigit || 3 < cs.length then none
  else if cs ≠ ['0'] && cs.head? == some '0' then none
  else
    let n := Text.natOfDigits cs
    if n ≤ 255 then some n else none

/-- The value of four decimal parts. -/
def quad? (cs : List Char) : Option Nat := do
  let parts := Text.splitOnChar '.' cs
  if parts.length ≠ 4 then none
  else do
    let values ← parts.mapM octet?
    some (values.foldl (fun n v => n * 256 + v) 0)

/-- The value of one hexadecimal group. -/
def group? (cs : List Char) : Option Nat := do
  if cs.isEmpty || 4 < cs.length then none
  else do
    let digits ← cs.mapM Bytes.hexValue?
    some (digits.foldl (fun n v => n * 16 + v) 0)

/-- The number of groups of an address. -/
def groupCount : Nat := 8

/-- The groups that parts write, the last of which may be an address of four decimal parts that counts as two. -/
def expandQuad? (parts : List (List Char)) : Option (List (List Char)) := do
  match parts.getLast? with
  | none => none
  | some last =>
    if last.contains '.' then do
      let n ← quad? last
      some (parts.dropLast ++ [Nat.toDigits 16 (n / 65536), Nat.toDigits 16 (n % 65536)])
    else some parts

/-- A side of the gap: its groups, where one empty group at the outer end belongs to the gap if it is alone. -/
def sideOfGap? (outer : Option (List Char)) (groups : List (List Char)) : Option (List (List Char)) :=
  if outer == some [] then (if groups.length = 1 then some [] else none) else some groups

/-- The values of all groups, with zeros in the gap. -/
def groups? (parts : List (List Char)) : Option (List Nat) :=
  let inner := (parts.drop 1).dropLast
  match inner.count [] with
  | 0 => if parts.length = groupCount then parts.mapM group? else none
  | 1 => do
    let before := 1 + (inner.takeWhile (· ≠ [])).length
    let high ← sideOfGap? parts.head? (parts.take before)
    let low ← sideOfGap? parts.getLast? (parts.drop (before + 1))
    let missing := groupCount - (high.length + low.length)
    if missing = 0 then none
    else do
      let high ← high.mapM group?
      let low ← low.mapM group?
      some (high ++ List.replicate missing 0 ++ low)
  | _ => none

/-- The value of an address in groups. -/
def groupsValue? (cs : List Char) : Option Nat := do
  let parts := Text.splitOnChar ':' cs
  if parts.length < 3 then none
  else do
    let parts ← expandQuad? parts
    if groupCount + 1 < parts.length then none
    else do
      let values ← groups? parts
      some (values.foldl (fun n v => n * 65536 + v) 0)

/-- The address of a text without its zone: none if the zone is empty or holds another zone mark. -/
def dropZone? (cs : List Char) : Option (List Char) :=
  match Text.cutAt '%' cs with
  | (address, none) => some address
  | (address, some zone) => if zone.isEmpty || zone.contains '%' then none else some address

/-- The address that a text writes. -/
def ofChars? (cs : List Char) : Option Address :=
  if cs.contains '/' then none
  else match quad? cs with
    | some n => some (.v4 n)
    | none => (dropZone? cs).bind fun cs => (groupsValue? cs).map .v6

/-- The address that a text writes. -/
def ofText? (s : String) : Option Address := ofChars? s.toList

/-- Whether an address is one of the machine itself. -/
def isLoopback : Address → Bool
  | .v4 n => n / 16777216 == 127
  | .v6 n => n == 1

end Address

end SignedCall
