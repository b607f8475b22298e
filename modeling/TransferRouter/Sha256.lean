import TransferRouter.Bytes

/-!
The hash function SHA-256 on byte strings. The message schedule is a window of sixteen words that
moves on by one word a round, so the rounds are a walk along the round constants.
-/

namespace TransferRouter.Sha256

/-- The eight chaining words. -/
structure Chain where
  a : UInt32
  b : UInt32
  c : UInt32
  d : UInt32
  e : UInt32
  f : UInt32
  g : UInt32
  h : UInt32
  deriving DecidableEq

/-- The chaining words before the first block. -/
def Chain.initial : Chain :=
  ⟨0x6a09e667, 0xbb67ae85, 0x3c6ef372, 0xa54ff53a, 0x510e527f, 0x9b05688c, 0x1f83d9ab, 0x5be0cd19⟩

/-- Adds the chaining words of two states. -/
def Chain.add (x y : Chain) : Chain :=
  ⟨x.a + y.a, x.b + y.b, x.c + y.c, x.d + y.d, x.e + y.e, x.f + y.f, x.g + y.g, x.h + y.h⟩

/-- The chaining words in order. -/
def Chain.words (x : Chain) : List UInt32 := [x.a, x.b, x.c, x.d, x.e, x.f, x.g, x.h]

/-- One constant for each of the sixty-four rounds. -/
def roundConstants : List UInt32 :=
  [0x428a2f98, 0x71374491, 0xb5c0fbcf, 0xe9b5dba5, 0x3956c25b, 0x59f111f1, 0x923f82a4, 0xab1c5ed5,
    0xd807aa98, 0x12835b01, 0x243185be, 0x550c7dc3, 0x72be5d74, 0x80deb1fe, 0x9bdc06a7, 0xc19bf174,
    0xe49b69c1, 0xefbe4786, 0x0fc19dc6, 0x240ca1cc, 0x2de92c6f, 0x4a7484aa, 0x5cb0a9dc, 0x76f988da,
    0x983e5152, 0xa831c66d, 0xb00327c8, 0xbf597fc7, 0xc6e00bf3, 0xd5a79147, 0x06ca6351, 0x14292967,
    0x27b70a85, 0x2e1b2138, 0x4d2c6dfc, 0x53380d13, 0x650a7354, 0x766a0abb, 0x81c2c92e, 0x92722c85,
    0xa2bfe8a1, 0xa81a664b, 0xc24b8b70, 0xc76c51a3, 0xd192e819, 0xd6990624, 0xf40e3585, 0x106aa070,
    0x19a4c116, 0x1e376c08, 0x2748774c, 0x34b0bcb5, 0x391c0cb3, 0x4ed8aa4a, 0x5b9cca4f, 0x682e6ff3,
    0x748f82ee, 0x78a5636f, 0x84c87814, 0x8cc70208, 0x90befffa, 0xa4506ceb, 0xbef9a3f7, 0xc67178f2]

/-- Rotates a word to the right. -/
def rotate (x : UInt32) (n : UInt32) : UInt32 := (x >>> n) ||| (x <<< (32 - n))

/-- The schedule's mixing of the word fifteen places back. -/
def mixEarly (x : UInt32) : UInt32 := rotate x 7 ^^^ rotate x 18 ^^^ (x >>> 3)

/-- The schedule's mixing of the word two places back. -/
def mixLate (x : UInt32) : UInt32 := rotate x 17 ^^^ rotate x 19 ^^^ (x >>> 10)

/-- Drops the first word of the window and appends the next word of the schedule. -/
def slide (window : List UInt32) : List UInt32 :=
  window.drop 1 ++
    [mixLate (window.getD 14 0) + window.getD 9 0 + mixEarly (window.getD 1 0) + window.getD 0 0]

/-- One round with the sum of its constant and its schedule word. -/
def round (x : Chain) (k : UInt32) : Chain :=
  let t := x.h + (rotate x.e 6 ^^^ rotate x.e 11 ^^^ rotate x.e 25) +
    ((x.e &&& x.f) ^^^ (~~~x.e &&& x.g)) + k
  let s := (rotate x.a 2 ^^^ rotate x.a 13 ^^^ rotate x.a 22) +
    ((x.a &&& x.b) ^^^ (x.a &&& x.c) ^^^ (x.b &&& x.c))
  ⟨t + s, x.a, x.b, x.c, x.d + t, x.e, x.f, x.g⟩

/-- The rounds of the given constants. -/
def rounds : List UInt32 → List UInt32 → Chain → Chain
  | [], _, x => x
  | k :: ks, window, x => rounds ks (slide window) (round x (k + window.getD 0 0))

/-- The first `n` big-endian words of a byte string. -/
def readWords : Nat → Bytes → List UInt32
  | 0, _ => []
  | n + 1, s => UInt32.ofNat (Bytes.ofBigEndian (s.take 4)) :: readWords n (s.drop 4)

/-- The chaining words after `n` blocks. -/
def compress : Nat → Bytes → Chain → Chain
  | 0, _, x => x
  | n + 1, s, x => compress n (s.drop 64) (x.add (rounds roundConstants (readWords 16 s) x))

/-- The message followed by a one bit, zeros and its length in bits, filling whole blocks. -/
def pad (s : Bytes) : Bytes :=
  s ++ 0x80 :: List.replicate ((119 - s.length % 64) % 64) 0 ++ Bytes.bigEndian 8 (8 * s.length)

/-- The digest of a byte string. -/
def digest (s : Bytes) : Bytes :=
  let padded := pad s
  (compress (padded.length / 64) padded .initial).words.flatMap fun w => Bytes.bigEndian 4 w.toNat

theorem length_digest (s : Bytes) : (digest s).length = 32 := by
  simp [digest, Chain.words]

end TransferRouter.Sha256
