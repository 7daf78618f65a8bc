/-!
# The SHA-256 digest

Generated names carry a few digits of a digest, so that two methods of one name but different
signatures get different names and the same method always gets the same one. The digest is
SHA-256: the message is padded to whole blocks of sixteen 32-bit words, and each block is mixed
into a state of eight words by sixty-four rounds.

Words are `UInt32` because the algorithm's additions wrap.

## Main definitions

* `Sha256.padded` — the message with the bit `1`, zeros and its length in bits
* `Sha256.schedule` — the sixty-four words that the rounds of one block add in
* `Sha256.digest` — the thirty-two bytes of the final state
-/

namespace ClassForge.Sha256

/-- The word turned `n` places to the right. -/
def rotated (x n : UInt32) : UInt32 := (x >>> n) ||| (x <<< (32 - n))

/-- The constant added in each round. -/
def roundConstants : List UInt32 :=
  [0x428a2f98, 0x71374491, 0xb5c0fbcf, 0xe9b5dba5, 0x3956c25b, 0x59f111f1, 0x923f82a4, 0xab1c5ed5,
    0xd807aa98, 0x12835b01, 0x243185be, 0x550c7dc3, 0x72be5d74, 0x80deb1fe, 0x9bdc06a7, 0xc19bf174,
    0xe49b69c1, 0xefbe4786, 0x0fc19dc6, 0x240ca1cc, 0x2de92c6f, 0x4a7484aa, 0x5cb0a9dc, 0x76f988da,
    0x983e5152, 0xa831c66d, 0xb00327c8, 0xbf597fc7, 0xc6e00bf3, 0xd5a79147, 0x06ca6351, 0x14292967,
    0x27b70a85, 0x2e1b2138, 0x4d2c6dfc, 0x53380d13, 0x650a7354, 0x766a0abb, 0x81c2c92e, 0x92722c85,
    0xa2bfe8a1, 0xa81a664b, 0xc24b8b70, 0xc76c51a3, 0xd192e819, 0xd6990624, 0xf40e3585, 0x106aa070,
    0x19a4c116, 0x1e376c08, 0x2748774c, 0x34b0bcb5, 0x391c0cb3, 0x4ed8aa4a, 0x5b9cca4f, 0x682e6ff3,
    0x748f82ee, 0x78a5636f, 0x84c87814, 0x8cc70208, 0x90befffa, 0xa4506ceb, 0xbef9a3f7, 0xc67178f2]

/-- The eight words that a digest is computed in. -/
structure State where
  a : UInt32
  b : UInt32
  c : UInt32
  d : UInt32
  e : UInt32
  f : UInt32
  g : UInt32
  h : UInt32
deriving DecidableEq

namespace State

/-- The state before the first block. -/
def initial : State :=
  ⟨0x6a09e667, 0xbb67ae85, 0x3c6ef372, 0xa54ff53a, 0x510e527f, 0x9b05688c, 0x1f83d9ab, 0x5be0cd19⟩

/-- Wordwise sum. -/
def add (s t : State) : State :=
  ⟨s.a + t.a, s.b + t.b, s.c + t.c, s.d + t.d, s.e + t.e, s.f + t.f, s.g + t.g, s.h + t.h⟩

/-- One round, adding in the given sum of round constant and schedule word. -/
def round (s : State) (w : UInt32) : State :=
  let t₁ := s.h + (rotated s.e 6 ^^^ rotated s.e 11 ^^^ rotated s.e 25) +
    ((s.e &&& s.f) ^^^ (~~~s.e &&& s.g)) + w
  let t₂ := (rotated s.a 2 ^^^ rotated s.a 13 ^^^ rotated s.a 22) +
    ((s.a &&& s.b) ^^^ (s.a &&& s.c) ^^^ (s.b &&& s.c))
  ⟨t₁ + t₂, s.a, s.b, s.c, s.d + t₁, s.e, s.f, s.g⟩

/-- The words of the state, in order. -/
def words (s : State) : List UInt32 := [s.a, s.b, s.c, s.d, s.e, s.f, s.g, s.h]

end State

/-- The four bytes of a word, the highest first. -/
def wordBytes (w : UInt32) : List UInt8 :=
  [(w >>> 24).toUInt8, (w >>> 16).toUInt8, (w >>> 8).toUInt8, w.toUInt8]

/-- The word with the given bytes, the highest first. -/
def ofBytes (bytes : List UInt8) : UInt32 :=
  bytes.foldl (fun w b => (w <<< 8) ||| b.toUInt32) 0

/-- The message followed by the bit `1`, as many zeros as fill the last block up to its final
eight bytes, and the message's length in bits in those eight bytes. -/
def padded (message : List UInt8) : List UInt8 :=
  let bits := UInt64.ofNat (8 * message.length)
  let zeros : List UInt8 := List.replicate ((119 - message.length % 64) % 64) 0
  message ++ (0x80 :: zeros) ++ wordBytes (bits >>> 32).toUInt32 ++
    wordBytes bits.toUInt32

/-- Appends to the words of a block the words that continue it, each from four earlier ones. -/
def schedule (block : List UInt32) : List UInt32 :=
  ((List.range 48).foldl extend block.toArray).toList
where
  extend (w : Array UInt32) (t : Nat) : Array UInt32 :=
    let x := w.getD (t + 1) 0
    let y := w.getD (t + 14) 0
    w.push (w.getD t 0 + (rotated x 7 ^^^ rotated x 18 ^^^ (x >>> 3)) + w.getD (t + 9) 0 +
      (rotated y 17 ^^^ rotated y 19 ^^^ (y >>> 10)))

/-- The state after mixing in one block of sixty-four bytes. -/
def mix (s : State) (block : List UInt8) : State :=
  let words := (List.range 16).map fun i => ofBytes ((block.drop (4 * i)).take 4)
  let sums := List.zipWith (· + ·) roundConstants (schedule words)
  s.add (sums.foldl State.round s)

/-- The digest of a message. -/
def digest (message : List UInt8) : List UInt8 :=
  let bytes := padded message
  let blocks := (List.range (bytes.length / 64)).map fun i => (bytes.drop (64 * i)).take 64
  (blocks.foldl mix State.initial).words.flatMap wordBytes

end ClassForge.Sha256
