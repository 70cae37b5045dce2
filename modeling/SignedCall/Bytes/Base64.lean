import SignedCall.Text.Utf8

/-!
# Base 64

The standard alphabet of base 64 and a form of it without characters that mean something in URLs, with padding in both. The
decoder is strict: it takes whole groups of four characters, and padding only in the last.
-/

namespace SignedCall.Base64

/-- The character of a six-bit value. -/
def encodeSextet (n : Nat) : Char :=
  if n < 26 then Char.ofNat (65 + n)
  else if n < 52 then Char.ofNat (71 + n)
  else if n < 62 then Char.ofNat (n - 4)
  else if n = 62 then '+'
  else '/'

/-- The six-bit value of a character. -/
def decodeSextet? (c : Char) : Option Nat :=
  if 'A' ≤ c && c ≤ 'Z' then some (c.toNat - 65)
  else if 'a' ≤ c && c ≤ 'z' then some (c.toNat - 71)
  else if '0' ≤ c && c ≤ '9' then some (c.toNat + 4)
  else if c = '+' then some 62
  else if c = '/' then some 63
  else none

/-- The base 64 characters of some bytes. -/
def encode : Bytes → List Char
  | [] => []
  | [a] => [encodeSextet (a.toNat / 4), encodeSextet (a.toNat % 4 * 16), '=', '=']
  | [a, b] => [encodeSextet (a.toNat / 4), encodeSextet (a.toNat % 4 * 16 + b.toNat / 16),
      encodeSextet (b.toNat % 16 * 4), '=']
  | a :: b :: c :: rest =>
    encodeSextet (a.toNat / 4) :: encodeSextet (a.toNat % 4 * 16 + b.toNat / 16) ::
      encodeSextet (b.toNat % 16 * 4 + c.toNat / 64) :: encodeSextet (c.toNat % 64) :: encode rest

/-- The base 64 text of some bytes. -/
def text (bytes : Bytes) : String := String.ofList (encode bytes)

/-- The bytes of one group whose last characters are padding. -/
def decodeLast? (a b c d : Char) : Option Bytes := do
  let a ← decodeSextet? a
  let b ← decodeSextet? b
  let first := UInt8.ofNat (a * 4 + b / 16)
  if d != '=' then none
  else if c == '=' then some [first]
  else do
    let c ← decodeSextet? c
    some [first, UInt8.ofNat (b * 16 + c / 4)]

/-- The bytes that base 64 characters write. -/
def decode? : List Char → Option Bytes
  | [] => some []
  | a :: b :: c :: d :: rest =>
    if rest.isEmpty && d == '=' then decodeLast? a b c d
    else do
      let a ← decodeSextet? a
      let b ← decodeSextet? b
      let c ← decodeSextet? c
      let d ← decodeSextet? d
      let bytes ← decode? rest
      some (UInt8.ofNat (a * 4 + b / 16) :: UInt8.ofNat (b * 16 + c / 4) :: UInt8.ofNat (c * 64 + d) :: bytes)
  | _ => none

/-- The replacement of a character that is unsafe in URLs. -/
def makeSafe (c : Char) : Char :=
  if c = '+' then '-' else if c = '=' then '_' else if c = '/' then '~' else c

/-- The base 64 text of some bytes, without characters that mean something in URLs. -/
def urlSafe (bytes : Bytes) : String := String.ofList ((encode bytes).map makeSafe)

end SignedCall.Base64
