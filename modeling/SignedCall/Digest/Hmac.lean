import SignedCall.Digest.Sha1
import SignedCall.Digest.Sha256

/-!
# Keyed hashes

The keyed hash of a message: the hash of the outer key and the hash of the inner key and the message, where both keys come
from the key filled up to a block.
-/

namespace SignedCall.Digest

/-- The hash functions that keyed hashes are made with. -/
inductive Algorithm where
  | sha1
  | sha256
  deriving DecidableEq, Repr

/-- The digest of a message. -/
def Algorithm.digest : Algorithm → Bytes → Bytes
  | .sha1 => Sha1.digest
  | .sha256 => Sha256.digest

/-- The name of the keyed hash made with the function. -/
def Algorithm.keyedName : Algorithm → String
  | .sha1 => "HmacSHA1"
  | .sha256 => "HmacSHA256"

/-- The key filled with zeros to one block; a key longer than a block is hashed first. -/
def blockKey (algorithm : Algorithm) (key : Bytes) : Bytes :=
  let key := if blockSize < key.length then algorithm.digest key else key
  key ++ List.replicate (blockSize - key.length) 0

/-- The keyed hash of a message. -/
def hmac (algorithm : Algorithm) (key message : Bytes) : Bytes :=
  let key := blockKey algorithm key
  algorithm.digest (key.map (· ^^^ 0x5c) ++ algorithm.digest (key.map (· ^^^ 0x36) ++ message))

end SignedCall.Digest
