import SignedCall.Bytes.Hex

/-!
# Distinguished encoding

The binary form of keys: elements of a tag, a length and a content, written in the one way that the distinguished rules allow.
-/

namespace SignedCall.Der

/-- A tag with its content. -/
structure Element where
  tag : UInt8
  content : Bytes
  deriving DecidableEq, Repr

/-- The tag of a whole number. -/
def integerTag : UInt8 := 0x02

/-- The tag of an octet string. -/
def octetsTag : UInt8 := 0x04

/-- The tag of an object identifier. -/
def identifierTag : UInt8 := 0x06

/-- The tag of a sequence. -/
def sequenceTag : UInt8 := 0x30

/-- A length: one byte below 128, or the number of its bytes and those, as few as possible. -/
def readLength? : Bytes → Option (Nat × Bytes)
  | [] => none
  | b :: rest =>
    if b < 0x80 then some (b.toNat, rest)
    else
      let count := b.toNat - 0x80
      let digits := rest.take count
      let n := Bytes.toNat digits
      if count = 0 || digits.length < count || digits.head? == some 0 || n < 128 then none
      else some (n, rest.drop count)

/-- The first element of some bytes, and the bytes after it. -/
def read? : Bytes → Option (Element × Bytes)
  | [] => none
  | tag :: rest => do
    let (length, rest) ← readLength? rest
    if rest.length < length then none
    else some (⟨tag, rest.take length⟩, rest.drop length)

/-- The element that all of the bytes write. -/
def readAll? (bytes : Bytes) : Option Element := do
  match ← read? bytes with
  | (e, []) => some e
  | _ => none

/-- The elements that bytes write one after the other; `fuel` bounds their number. -/
def readMany? : Nat → Bytes → Option (List Element)
  | _, [] => some []
  | 0, _ => none
  | fuel + 1, bytes => do
    let (e, rest) ← read? bytes
    let es ← readMany? fuel rest
    some (e :: es)

/-- The elements of a sequence. -/
def Element.items? (e : Element) : Option (List Element) :=
  if e.tag = sequenceTag then readMany? e.content.length e.content else none

/-- The natural number of an integer element, which has no superfluous leading zero. -/
def Element.nat? (e : Element) : Option Nat :=
  if e.tag ≠ integerTag then none
  else match e.content with
    | [] => none
    | [b] => if b < 0x80 then some b.toNat else none
    | a :: b :: rest =>
      if 0x80 ≤ a || (a = 0 && b < 0x80) then none else some (Bytes.toNat (a :: b :: rest))

/-- The bytes of an octet string. -/
def Element.octets? (e : Element) : Option Bytes :=
  if e.tag = octetsTag then some e.content else none

end SignedCall.Der
