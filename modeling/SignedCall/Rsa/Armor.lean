import SignedCall.Bytes.Base64
import SignedCall.Text.Split

/-!
# Armored keys

Keys as text: base 64 between a line that names the kind of content and one that ends it. What stands before the first block
and after it is passed over.
-/

namespace SignedCall

/-- The first block of an armored text. -/
structure Armor where
  label : String
  headers : List Char
  content : Bytes
  deriving DecidableEq, Repr

namespace Armor

/-- The white space of ASCII. -/
def isAsciiBlank (c : Char) : Bool := c == ' ' || (0x09 ≤ c.toNat && c.toNat ≤ 0x0d)

/-- Bytes as the characters with the same numbers. -/
def charsOf (bytes : Bytes) : List Char := bytes.map fun b => Char.ofNat b.toNat

/-- How armored texts start. -/
def opening : List Char := "-----BEGIN".toList

/-- Whether bytes look like an armored text, blanks in front of it apart. -/
def isArmored (bytes : Bytes) : Bool :=
  opening.isPrefixOf ((charsOf bytes).dropWhile isAsciiBlank)

/-- Splits the headers off a block: what stands before a blank line. -/
def splitHeaders (body : List Char) : List Char × List Char :=
  match Text.cutAtWord? ['\n', '\n'] body with
  | some parts => parts
  | none => (Text.cutAtWord? ['\r', '\n', '\r', '\n'] body).getD ([], body)

/-- The first block of some bytes. -/
def read? (bytes : Bytes) : Option Armor := do
  let (_, rest) ← Text.cutAtWord? (opening ++ [' ']) (charsOf bytes)
  let (label, rest) ← Text.cutAtWord? "-----".toList rest
  let (body, rest) ← Text.cutAtWord? "-----END ".toList (rest.dropWhile isAsciiBlank)
  let (closing, _) ← Text.cutAtWord? "-----".toList rest
  if label ≠ closing then none
  else do
    let (headers, body) := splitHeaders body
    let content ← Base64.decode? (body.filter fun c => !isAsciiBlank c)
    some { label := String.ofList label, headers, content }

end Armor

end SignedCall
