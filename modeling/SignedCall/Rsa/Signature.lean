import SignedCall.Rsa.PrivateKey
import SignedCall.Digest.Hmac

/-!
# RSA signatures

Deterministic signatures: the digest of a message is named and padded to the length of the modulus, and the number that results
is raised to the private exponent.
-/

namespace SignedCall.RsaKey

/-- The remainder of a power, taken bit by bit of the exponent; `bits` is at least their number. -/
def powMod (modulus base : Nat) : Nat → Nat → Nat
  | 0, _ => 1 % modulus
  | bits + 1, exponent =>
    let half := powMod modulus (base * base % modulus) bits (exponent / 2)
    if exponent % 2 = 1 then base * half % modulus else half

/-- The number of bytes of the modulus. -/
def size (key : RsaKey) : Nat := (Nat.log2 key.modulus + 8) / 8

/-- What stands before the digest: the name of the hash function in distinguished encoding. -/
def digestHeader : Bytes := [0x30, 0x21, 0x30, 0x09, 0x06, 0x05, 0x2b, 0x0e, 0x03, 0x02, 0x1a, 0x05, 0x00, 0x04, 0x14]

/-- The padded digest of a message; none if the modulus is too short for it. -/
def encodeMessage? (size : Nat) (message : Bytes) : Option Bytes :=
  let tail := digestHeader ++ Digest.Sha1.digest message
  if size < tail.length + 11 then none
  else some ([0, 1] ++ List.replicate (size - tail.length - 3) 0xff ++ 0 :: tail)

/-- The signature of a message; none if the key is too short. -/
def sign? (key : RsaKey) (message : Bytes) : Option Bytes := do
  let encoded ← encodeMessage? key.size message
  let power := powMod key.modulus (Bytes.toNat encoded) (Nat.log2 key.privateExponent + 1) key.privateExponent
  some (Bytes.ofNat key.size power)

end SignedCall.RsaKey
