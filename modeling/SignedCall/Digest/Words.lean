import SignedCall.Text.Utf8

/-!
# Blocks of words

What the hash functions share: a message is padded to whole blocks of sixty-four bytes, each read as sixteen big-endian words
of thirty-two bits, and the blocks are folded into a state of words.
-/

namespace SignedCall.Digest

/-- The bytes of a block. -/
def blockSize : Nat := 64

/-- The last eight bytes of a number, the most significant first. -/
def lengthBytes (n : Nat) : Bytes :=
  (List.range 8).map fun i => UInt8.ofNat (n >>> (8 * (7 - i)))

/-- The message followed by a one bit, zeros, and its length in bits, which fills whole blocks. -/
def pad (message : Bytes) : Bytes :=
  let length := message.length
  let zeros := (blockSize - (length + 9) % blockSize) % blockSize
  message ++ 0x80 :: List.replicate zeros 0 ++ lengthBytes (8 * length)

/-- The big-endian words of some bytes; a remainder of fewer than four bytes is dropped. -/
def words : Bytes → List UInt32
  | a :: b :: c :: d :: rest =>
    (a.toUInt32 <<< 24 ||| b.toUInt32 <<< 16 ||| c.toUInt32 <<< 8 ||| d.toUInt32) :: words rest
  | _ => []

/-- The big-endian bytes of words. -/
def bytesOfWords (ws : List UInt32) : Bytes :=
  ws.flatMap fun (w : UInt32) => [(w >>> 24).toUInt8, (w >>> 16).toUInt8, (w >>> 8).toUInt8, w.toUInt8]

/-- Folds `count` blocks of sixteen words into a state. -/
def foldBlocks {σ : Type} (step : σ → List UInt32 → σ) : Nat → σ → List UInt32 → σ
  | 0, state, _ => state
  | count + 1, state, ws => foldBlocks step count (step state (ws.take 16)) (ws.drop 16)

/-- Folds all blocks of a padded message into a state. -/
def run {σ : Type} (step : σ → List UInt32 → σ) (initial : σ) (message : Bytes) : σ :=
  let ws := words (pad message)
  foldBlocks step (ws.length / 16) initial ws

/-- Rotates a word to the left. -/
def rotl (x : UInt32) (n : UInt32) : UInt32 := (x <<< n) ||| (x >>> (32 - n))

/-- Rotates a word to the right. -/
def rotr (x : UInt32) (n : UInt32) : UInt32 := (x >>> n) ||| (x <<< (32 - n))

end SignedCall.Digest
