import SignedCall.Text.Utf8
import SignedCall.Bytes.Hex

/-!
# Percent encoding

Texts as they stand in paths and queries. Encoding keeps the unreserved characters and writes every other byte of the text
as a percent sign and two hexadecimal digits. Decoding is lenient: a percent sign without two digits stands for itself, and
bytes that are no characters become replacement characters.
-/

namespace SignedCall.Percent

/-- The characters that are never encoded: ASCII letters and digits, and four marks. -/
def isUnreserved (c : Char) : Bool :=
  ('a' ≤ c && c ≤ 'z') || ('A' ≤ c && c ≤ 'Z') || ('0' ≤ c && c ≤ '9') || c == '-' || c == '_' || c == '.' || c == '~'

/-- The upper-case hexadecimal digit of a number below sixteen. -/
def upperHex (n : Nat) : Char := Char.ofNat (if n < 10 then 48 + n else 55 + n)

/-- The encoded form of one byte. -/
def encodeByte (b : UInt8) : List Char :=
  let c := Char.ofNat b.toNat
  if isUnreserved c then [c] else ['%', upperHex (b.toNat / 16), upperHex (b.toNat % 16)]

/-- The encoded characters of a text. -/
def encodeChars (s : String) : List Char := (Text.Utf8.encode s).flatMap encodeByte

/-- The encoded form of a text. -/
def encode (s : String) : String := String.ofList (encodeChars s)

/-- What decoding has before it puts bytes together: a byte, or a character beyond ASCII that stands for itself. -/
inductive Unit where
  | byte (b : UInt8)
  | char (c : Char)
  deriving DecidableEq, Repr

/-- The unit of a character that is not part of an escape. -/
def Unit.ofChar (c : Char) : Unit := if c.toNat < 0x80 then .byte (UInt8.ofNat c.toNat) else .char c

/-- The value of two hexadecimal digits. -/
def escaped? (a b : Char) : Option UInt8 := do
  let a ← Bytes.hexValue? a
  let b ← Bytes.hexValue? b
  some (UInt8.ofNat (a * 16 + b))

/-- The units of an encoded text. -/
def units : List Char → List Unit
  | '%' :: a :: b :: rest =>
    match escaped? a b with
    | some byte => .byte byte :: units rest
    | none => .byte 0x25 :: units (a :: b :: rest)
  | c :: rest => Unit.ofChar c :: units rest
  | [] => []

/-- The bytes that a list of units starts with, and the text of the units after them. -/
def joinUnits (us : List Unit) : Bytes × List Char :=
  us.foldr (fun u (bytes, text) => match u with
    | .byte b => (b :: bytes, text)
    | .char c => ([], c :: (Text.Utf8.decodeLossy bytes).toList ++ text)) ([], [])

/-- The text that an encoded text stands for. -/
def decode (cs : List Char) : String :=
  let (bytes, text) := joinUnits (units cs)
  String.ofList ((Text.Utf8.decodeLossy bytes).toList ++ text)

/-- The text of an encoded name or value of a query, where a plus sign stands for a space. -/
def decodeQuery (cs : List Char) : String :=
  decode (cs.map fun c => if c = '+' then ' ' else c)

end SignedCall.Percent
