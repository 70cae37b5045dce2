import SignedCall.Digest.Words

/-!
# SHA-1
-/

namespace SignedCall.Digest.Sha1

/-- The five words of the state. -/
structure State where
  a : UInt32
  b : UInt32
  c : UInt32
  d : UInt32
  e : UInt32

/-- The state before the first block. -/
def initial : State := ⟨0x67452301, 0xefcdab89, 0x98badcfe, 0x10325476, 0xc3d2e1f0⟩

/-- The eighty words that a block is expanded to. -/
def schedule (block : List UInt32) : Array UInt32 :=
  (List.range 64).foldl (fun w i =>
    w.push (rotl (w.getD (i + 13) 0 ^^^ w.getD (i + 8) 0 ^^^ w.getD (i + 2) 0 ^^^ w.getD i 0) 1)) block.toArray

/-- The function and the constant of a round. -/
def roundTerm (t : Nat) (s : State) : UInt32 :=
  if t < 20 then ((s.b &&& s.c) ||| (~~~s.b &&& s.d)) + 0x5a827999
  else if t < 40 then (s.b ^^^ s.c ^^^ s.d) + 0x6ed9eba1
  else if t < 60 then ((s.b &&& s.c) ||| (s.b &&& s.d) ||| (s.c &&& s.d)) + 0x8f1bbcdc
  else (s.b ^^^ s.c ^^^ s.d) + 0xca62c1d6

/-- One block. -/
def step (h : State) (block : List UInt32) : State :=
  let w := schedule block
  let s := (List.range 80).foldl (fun s t =>
    ⟨rotl s.a 5 + roundTerm t s + s.e + w.getD t 0, s.a, rotl s.b 30, s.c, s.d⟩) h
  ⟨h.a + s.a, h.b + s.b, h.c + s.c, h.d + s.d, h.e + s.e⟩

/-- The twenty bytes of the digest. -/
def digest (message : Bytes) : Bytes :=
  let h := run step initial message
  bytesOfWords [h.a, h.b, h.c, h.d, h.e]

end SignedCall.Digest.Sha1
