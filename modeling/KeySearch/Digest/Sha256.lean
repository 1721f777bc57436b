import KeySearch.Bytes

/-! The Sha256 digest. A message is padded to whole blocks of 64 bytes, a chain of eight words is
carried over the blocks, and the words of the last chain are the digest. The chain is a structure
and the digest a concatenation of its words, so its length of 32 bytes is a fact of the type.
`finish` takes the chain and the count of bytes that led to it, so that hashing can go on behind
blocks absorbed earlier. -/

namespace KeySearch.Digest.Sha256

/-- The eight words that one block leaves to the next. -/
structure Chain where
  (a b c d e f g h : UInt32)
  deriving DecidableEq

/-- Fractional parts of the square roots of the first eight primes. -/
def Chain.start : Chain :=
  ⟨0x6a09e667, 0xbb67ae85, 0x3c6ef372, 0xa54ff53a,
    0x510e527f, 0x9b05688c, 0x1f83d9ab, 0x5be0cd19⟩

/-- Fractional parts of the cube roots of the first 64 primes. -/
def roundConstants : List UInt32 :=
  [0x428a2f98, 0x71374491, 0xb5c0fbcf, 0xe9b5dba5, 0x3956c25b, 0x59f111f1, 0x923f82a4, 0xab1c5ed5,
    0xd807aa98, 0x12835b01, 0x243185be, 0x550c7dc3, 0x72be5d74, 0x80deb1fe, 0x9bdc06a7, 0xc19bf174,
    0xe49b69c1, 0xefbe4786, 0x0fc19dc6, 0x240ca1cc, 0x2de92c6f, 0x4a7484aa, 0x5cb0a9dc, 0x76f988da,
    0x983e5152, 0xa831c66d, 0xb00327c8, 0xbf597fc7, 0xc6e00bf3, 0xd5a79147, 0x06ca6351, 0x14292967,
    0x27b70a85, 0x2e1b2138, 0x4d2c6dfc, 0x53380d13, 0x650a7354, 0x766a0abb, 0x81c2c92e, 0x92722c85,
    0xa2bfe8a1, 0xa81a664b, 0xc24b8b70, 0xc76c51a3, 0xd192e819, 0xd6990624, 0xf40e3585, 0x106aa070,
    0x19a4c116, 0x1e376c08, 0x2748774c, 0x34b0bcb5, 0x391c0cb3, 0x4ed8aa4a, 0x5b9cca4f, 0x682e6ff3,
    0x748f82ee, 0x78a5636f, 0x84c87814, 0x8cc70208, 0x90befffa, 0xa4506ceb, 0xbef9a3f7, 0xc67178f2]

def rotateRight (w : UInt32) (n : UInt32) : UInt32 := (w >>> n) ||| (w <<< (32 - n))

/-! ### Compression -/

/-- Appends `n` words to a schedule, each from four of the sixteen before it. -/
def extend (w : Array UInt32) : Nat → Array UInt32
  | 0 => w
  | n + 1 =>
    let word (back : Nat) := w.getD (w.size - back) 0
    let near := word 2
    let far := word 15
    let small := rotateRight far 7 ^^^ rotateRight far 18 ^^^ (far >>> 3)
    let large := rotateRight near 17 ^^^ rotateRight near 19 ^^^ (near >>> 10)
    extend (w.push (large + word 7 + small + word 16)) n

def round (s : Chain) (constant word : UInt32) : Chain :=
  let choice := (s.e &&& s.f) ^^^ (~~~s.e &&& s.g)
  let majority := (s.a &&& s.b) ^^^ (s.a &&& s.c) ^^^ (s.b &&& s.c)
  let fromE := rotateRight s.e 6 ^^^ rotateRight s.e 11 ^^^ rotateRight s.e 25
  let fromA := rotateRight s.a 2 ^^^ rotateRight s.a 13 ^^^ rotateRight s.a 22
  let first := s.h + fromE + choice + constant + word
  ⟨first + fromA + majority, s.a, s.b, s.c, s.d + first, s.e, s.f, s.g⟩

def Chain.add (s t : Chain) : Chain :=
  ⟨s.a + t.a, s.b + t.b, s.c + t.c, s.d + t.d, s.e + t.e, s.f + t.f, s.g + t.g, s.h + t.h⟩

/-- Runs the rounds, constants and schedule side by side. -/
def rounds : Chain → List UInt32 → List UInt32 → Chain
  | s, k :: ks, w :: ws => rounds (round s k w) ks ws
  | s, _, _ => s

/-- The chain after one more block. -/
def compress (s : Chain) (block : Bytes) : Chain :=
  s.add (rounds s roundConstants (extend (Bytes.words32 block).toArray 48).toList)

/-! ### Messages -/

/-- The chain after the first `blocks` blocks of a message. -/
def absorb (s : Chain) (message : Bytes) : (blocks : Nat) → Chain
  | 0 => s
  | blocks + 1 => absorb (compress s (message.take 64)) (message.drop 64) blocks

/-- What follows a message of `length` bytes: a set bit, zeros, and the length in bits. -/
def padding (length : Nat) : Bytes :=
  0x80 :: List.replicate ((119 - length % 64) % 64) 0 ++ Bytes.ofNat 8 (8 * length)

/-- The last chain, when `consumed` bytes led to `s` and `rest` is still to come. -/
def finish (s : Chain) (consumed : Nat) (rest : Bytes) : Chain :=
  let padded := rest ++ padding (consumed + rest.length)
  absorb s padded (padded.length / 64)

def Chain.toBytes (s : Chain) : Bytes :=
  [s.a, s.b, s.c, s.d, s.e, s.f, s.g, s.h].flatMap Bytes.ofUInt32

/-- The digest of a message. -/
def digest (message : Bytes) : Bytes := (finish Chain.start 0 message).toBytes

@[simp] theorem length_toBytes (s : Chain) : s.toBytes.length = 32 := rfl

@[simp] theorem length_digest (message : Bytes) : (digest message).length = 32 := rfl

end KeySearch.Digest.Sha256
