import KeySearch.Bytes

/-! The Sha512 digest. A message is padded to whole blocks of 128 bytes, a chain of eight words is
carried over the blocks, and the words of the last chain are the digest. The chain is a structure
and the digest a concatenation of its words, so its length of 64 bytes is a fact of the type.
`finish` takes the chain and the count of bytes that led to it, so that hashing can go on behind
blocks absorbed earlier. -/

namespace KeySearch.Digest.Sha512

/-- The eight words that one block leaves to the next. -/
structure Chain where
  (a b c d e f g h : UInt64)
  deriving DecidableEq

/-- Fractional parts of the square roots of the first eight primes. -/
def Chain.start : Chain :=
  ⟨0x6a09e667f3bcc908, 0xbb67ae8584caa73b, 0x3c6ef372fe94f82b, 0xa54ff53a5f1d36f1,
    0x510e527fade682d1, 0x9b05688c2b3e6c1f, 0x1f83d9abfb41bd6b, 0x5be0cd19137e2179⟩

/-- Fractional parts of the cube roots of the first 80 primes. -/
def roundConstants : List UInt64 :=
  [0x428a2f98d728ae22, 0x7137449123ef65cd, 0xb5c0fbcfec4d3b2f, 0xe9b5dba58189dbbc,
    0x3956c25bf348b538, 0x59f111f1b605d019, 0x923f82a4af194f9b, 0xab1c5ed5da6d8118,
    0xd807aa98a3030242, 0x12835b0145706fbe, 0x243185be4ee4b28c, 0x550c7dc3d5ffb4e2,
    0x72be5d74f27b896f, 0x80deb1fe3b1696b1, 0x9bdc06a725c71235, 0xc19bf174cf692694,
    0xe49b69c19ef14ad2, 0xefbe4786384f25e3, 0x0fc19dc68b8cd5b5, 0x240ca1cc77ac9c65,
    0x2de92c6f592b0275, 0x4a7484aa6ea6e483, 0x5cb0a9dcbd41fbd4, 0x76f988da831153b5,
    0x983e5152ee66dfab, 0xa831c66d2db43210, 0xb00327c898fb213f, 0xbf597fc7beef0ee4,
    0xc6e00bf33da88fc2, 0xd5a79147930aa725, 0x06ca6351e003826f, 0x142929670a0e6e70,
    0x27b70a8546d22ffc, 0x2e1b21385c26c926, 0x4d2c6dfc5ac42aed, 0x53380d139d95b3df,
    0x650a73548baf63de, 0x766a0abb3c77b2a8, 0x81c2c92e47edaee6, 0x92722c851482353b,
    0xa2bfe8a14cf10364, 0xa81a664bbc423001, 0xc24b8b70d0f89791, 0xc76c51a30654be30,
    0xd192e819d6ef5218, 0xd69906245565a910, 0xf40e35855771202a, 0x106aa07032bbd1b8,
    0x19a4c116b8d2d0c8, 0x1e376c085141ab53, 0x2748774cdf8eeb99, 0x34b0bcb5e19b48a8,
    0x391c0cb3c5c95a63, 0x4ed8aa4ae3418acb, 0x5b9cca4f7763e373, 0x682e6ff3d6b2b8a3,
    0x748f82ee5defb2fc, 0x78a5636f43172f60, 0x84c87814a1f0ab72, 0x8cc702081a6439ec,
    0x90befffa23631e28, 0xa4506cebde82bde9, 0xbef9a3f7b2c67915, 0xc67178f2e372532b,
    0xca273eceea26619c, 0xd186b8c721c0c207, 0xeada7dd6cde0eb1e, 0xf57d4f7fee6ed178,
    0x06f067aa72176fba, 0x0a637dc5a2c898a6, 0x113f9804bef90dae, 0x1b710b35131c471b,
    0x28db77f523047d84, 0x32caab7b40c72493, 0x3c9ebe0a15c9bebc, 0x431d67c49c100d4c,
    0x4cc5d4becb3e42b6, 0x597f299cfc657e2a, 0x5fcb6fab3ad6faec, 0x6c44198c4a475817]

def rotateRight (w : UInt64) (n : UInt64) : UInt64 := (w >>> n) ||| (w <<< (64 - n))

/-! ### Compression -/

/-- Appends `n` words to a schedule, each from four of the sixteen before it. -/
def extend (w : Array UInt64) : Nat → Array UInt64
  | 0 => w
  | n + 1 =>
    let word (back : Nat) := w.getD (w.size - back) 0
    let near := word 2
    let far := word 15
    let small := rotateRight far 1 ^^^ rotateRight far 8 ^^^ (far >>> 7)
    let large := rotateRight near 19 ^^^ rotateRight near 61 ^^^ (near >>> 6)
    extend (w.push (large + word 7 + small + word 16)) n

def round (s : Chain) (constant word : UInt64) : Chain :=
  let choice := (s.e &&& s.f) ^^^ (~~~s.e &&& s.g)
  let majority := (s.a &&& s.b) ^^^ (s.a &&& s.c) ^^^ (s.b &&& s.c)
  let fromE := rotateRight s.e 14 ^^^ rotateRight s.e 18 ^^^ rotateRight s.e 41
  let fromA := rotateRight s.a 28 ^^^ rotateRight s.a 34 ^^^ rotateRight s.a 39
  let first := s.h + fromE + choice + constant + word
  ⟨first + fromA + majority, s.a, s.b, s.c, s.d + first, s.e, s.f, s.g⟩

def Chain.add (s t : Chain) : Chain :=
  ⟨s.a + t.a, s.b + t.b, s.c + t.c, s.d + t.d, s.e + t.e, s.f + t.f, s.g + t.g, s.h + t.h⟩

/-- Runs the rounds, constants and schedule side by side. -/
def rounds : Chain → List UInt64 → List UInt64 → Chain
  | s, k :: ks, w :: ws => rounds (round s k w) ks ws
  | s, _, _ => s

/-- The chain after one more block. -/
def compress (s : Chain) (block : Bytes) : Chain :=
  s.add (rounds s roundConstants (extend (Bytes.words64 block).toArray 64).toList)

/-! ### Messages -/

/-- The chain after the first `blocks` blocks of a message. -/
def absorb (s : Chain) (message : Bytes) : (blocks : Nat) → Chain
  | 0 => s
  | blocks + 1 => absorb (compress s (message.take 128)) (message.drop 128) blocks

/-- What follows a message of `length` bytes: a set bit, zeros, and the length in bits. -/
def padding (length : Nat) : Bytes :=
  0x80 :: List.replicate ((239 - length % 128) % 128) 0 ++ Bytes.ofNat 16 (8 * length)

/-- The last chain, when `consumed` bytes led to `s` and `rest` is still to come. -/
def finish (s : Chain) (consumed : Nat) (rest : Bytes) : Chain :=
  let padded := rest ++ padding (consumed + rest.length)
  absorb s padded (padded.length / 128)

def Chain.toBytes (s : Chain) : Bytes :=
  [s.a, s.b, s.c, s.d, s.e, s.f, s.g, s.h].flatMap Bytes.ofUInt64

/-- The digest of a message. -/
def digest (message : Bytes) : Bytes := (finish Chain.start 0 message).toBytes

@[simp] theorem length_toBytes (s : Chain) : s.toBytes.length = 64 := rfl

@[simp] theorem length_digest (message : Bytes) : (digest message).length = 64 := rfl

end KeySearch.Digest.Sha512
