/-!
# UTF-8

Texts as bytes and back. Reading cuts the bytes into pieces, each a character or a run of bytes that no character starts
with; a strict reader stops at the first such run, a lenient one puts the replacement character in its place.
-/

namespace SignedCall

/-- Raw bytes. -/
abbrev Bytes := List UInt8

namespace Text.Utf8

/-- The bytes of a text. -/
def encode (s : String) : Bytes :=
  s.toList.flatMap String.utf8EncodeChar

/-- Why a run of bytes is not a character. -/
inductive Reason where
  | invalidStart
  | invalidContinuation
  | unexpectedEnd
  deriving DecidableEq, Repr

/-- How messages name the reason. -/
def Reason.message : Reason → String
  | .invalidStart => "invalid start byte"
  | .invalidContinuation => "invalid continuation byte"
  | .unexpectedEnd => "unexpected end of data"

/-- A character, or the longest run of bytes that starts like one and cannot be completed. -/
inductive Piece where
  | char (c : Char)
  | bad (reason : Reason) (bytes : Bytes)
  deriving DecidableEq, Repr

/-- Whether `b` may continue a character. -/
def isTail (b : UInt8) : Bool := 0x80 ≤ b && b ≤ 0xbf

/-- Whether `second` may follow `first`, the start of a character of two to four bytes: overlong forms, surrogates and code
points above the last are refused here. -/
def isSecond (first second : UInt8) : Bool :=
  if first == 0xe0 then 0xa0 ≤ second && second ≤ 0xbf
  else if first == 0xed then 0x80 ≤ second && second ≤ 0x9f
  else if first == 0xf0 then 0x90 ≤ second && second ≤ 0xbf
  else if first == 0xf4 then 0x80 ≤ second && second ≤ 0x8f
  else isTail second

/-- The character with the payload bits of a start byte, `start` of them, and of tail bytes. -/
def assemble (start : Nat) (tails : List UInt8) : Char :=
  Char.ofNat (tails.foldl (fun n b => n * 64 + b.toNat % 64) start)

/-- The pieces of a byte sequence, in order. -/
def pieces : Bytes → List Piece
  | [] => []
  | a :: afterA =>
    if a < 0x80 then .char (Char.ofNat a.toNat) :: pieces afterA
    else if a < 0xc2 || 0xf4 < a then .bad .invalidStart [a] :: pieces afterA
    else match afterA with
      | [] => [.bad .unexpectedEnd [a]]
      | b :: afterB =>
        if !isSecond a b then .bad .invalidContinuation [a] :: pieces (b :: afterB)
        else if a < 0xe0 then .char (assemble (a.toNat % 32) [b]) :: pieces afterB
        else match afterB with
          | [] => [.bad .unexpectedEnd [a, b]]
          | c :: afterC =>
            if !isTail c then .bad .invalidContinuation [a, b] :: pieces (c :: afterC)
            else if a < 0xf0 then .char (assemble (a.toNat % 16) [b, c]) :: pieces afterC
            else match afterC with
              | [] => [.bad .unexpectedEnd [a, b, c]]
              | d :: afterD =>
                if !isTail d then .bad .invalidContinuation [a, b, c] :: pieces (d :: afterD)
                else .char (assemble (a.toNat % 8) [b, c, d]) :: pieces afterD

/-- The replacement character. -/
def replacement : Char := '\ufffd'

/-- The text with each bad run replaced by one replacement character. -/
def decodeLossy (bytes : Bytes) : String :=
  String.ofList <| (pieces bytes).map fun
    | .char c => c
    | .bad _ _ => replacement

/-- Where strict reading stopped. -/
structure Fault where
  reason : Reason
  position : Nat
  bytes : Bytes
  deriving DecidableEq, Repr

/-- Collects the characters of the pieces, the first of which starts at `position`. -/
def collect (position : Nat) : List Piece → Except Fault (List Char)
  | [] => .ok []
  | .bad reason bytes :: _ => .error ⟨reason, position, bytes⟩
  | .char c :: rest => (c :: ·) <$> collect (position + c.utf8Size) rest

/-- The text, or the first run of bytes that is none. -/
def decode (bytes : Bytes) : Except Fault String :=
  String.ofList <$> collect 0 (pieces bytes)

/-- The two lower-case hexadecimal digits of a byte. -/
def hexByte (b : UInt8) : List Char :=
  let digit (n : Nat) : Char := if n < 10 then Char.ofNat (48 + n) else Char.ofNat (87 + n)
  [digit (b.toNat / 16), digit (b.toNat % 16)]

/-- The wording of a decoding failure. -/
def Fault.message (f : Fault) : String :=
  let place := match f.bytes with
    | [b] => "byte 0x" ++ String.ofList (hexByte b) ++ " in position " ++ toString f.position
    | bytes => "bytes in position " ++ toString f.position ++ "-" ++ toString (f.position + bytes.length - 1)
  "'utf-8' codec can't decode " ++ place ++ ": " ++ f.reason.message

end Text.Utf8

end SignedCall
