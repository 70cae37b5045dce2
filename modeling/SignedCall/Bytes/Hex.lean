import SignedCall.Text.Utf8

/-!
# Hexadecimal

Bytes as pairs of lower-case hexadecimal digits.
-/

namespace SignedCall.Bytes

/-- The hexadecimal text of some bytes. -/
def toHex (bytes : Bytes) : String :=
  String.ofList (bytes.flatMap Text.Utf8.hexByte)

/-- The value of a hexadecimal digit. -/
def hexValue? (c : Char) : Option Nat :=
  if '0' ≤ c && c ≤ '9' then some (c.toNat - 48)
  else if 'a' ≤ c && c ≤ 'f' then some (c.toNat - 87)
  else if 'A' ≤ c && c ≤ 'F' then some (c.toNat - 55)
  else none

/-- The bytes of a hexadecimal text. -/
def ofHex? : List Char → Option Bytes
  | [] => some []
  | a :: b :: rest => do
    let a ← hexValue? a
    let b ← hexValue? b
    let bytes ← ofHex? rest
    some (UInt8.ofNat (a * 16 + b) :: bytes)
  | [_] => none

/-- The number that bytes write, the most significant first. -/
def toNat (bytes : Bytes) : Nat :=
  bytes.foldl (fun n b => n * 256 + b.toNat) 0

/-- The last `width` bytes of a number, the most significant first. -/
def ofNat : Nat → Nat → Bytes
  | 0, _ => []
  | width + 1, n => ofNat width (n / 256) ++ [UInt8.ofNat n]

end SignedCall.Bytes
