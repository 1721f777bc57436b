import KeySearch.Bytes

/-! The RIPEMD-160 digest: two independent lines of eighty steps run over each block of 64 bytes and
are folded into a chain of five words, which is the digest. Words are little-endian throughout. -/

namespace KeySearch.Digest.Ripemd160

/-- The five words that one block leaves to the next, and those of one line on the way. -/
structure Chain where
  (a b c d e : UInt32)
  deriving DecidableEq

def Chain.start : Chain := ⟨0x67452301, 0xefcdab89, 0x98badcfe, 0x10325476, 0xc3d2e1f0⟩

/-- What distinguishes one step of a line: the mixing function, the constant added, the word of the
block that is used and the distance of the rotation. -/
structure Step where
  (mix : UInt32 → UInt32 → UInt32 → UInt32)
  (constant : UInt32)
  (word : Nat)
  (distance : UInt32)

/-! ### Tables -/

def mixers : List (UInt32 → UInt32 → UInt32 → UInt32) :=
  [fun x y z => x ^^^ y ^^^ z,
    fun x y z => (x &&& y) ||| (~~~x &&& z),
    fun x y z => (x ||| ~~~y) ^^^ z,
    fun x y z => (x &&& z) ||| (y &&& ~~~z),
    fun x y z => x ^^^ (y ||| ~~~z)]

def leftConstants : List UInt32 := [0x00000000, 0x5a827999, 0x6ed9eba1, 0x8f1bbcdc, 0xa953fd4e]

def rightConstants : List UInt32 := [0x50a28be6, 0x5c4dd124, 0x6d703ef3, 0x7a6d76e9, 0x00000000]

def leftWords : List Nat :=
  [0, 1, 2, 3, 4, 5, 6, 7, 8, 9, 10, 11, 12, 13, 14, 15,
    7, 4, 13, 1, 10, 6, 15, 3, 12, 0, 9, 5, 2, 14, 11, 8,
    3, 10, 14, 4, 9, 15, 8, 1, 2, 7, 0, 6, 13, 11, 5, 12,
    1, 9, 11, 10, 0, 8, 12, 4, 13, 3, 7, 15, 14, 5, 6, 2,
    4, 0, 5, 9, 7, 12, 2, 10, 14, 1, 3, 8, 11, 6, 15, 13]

def rightWords : List Nat :=
  [5, 14, 7, 0, 9, 2, 11, 4, 13, 6, 15, 8, 1, 10, 3, 12,
    6, 11, 3, 7, 0, 13, 5, 10, 14, 15, 8, 12, 4, 9, 1, 2,
    15, 5, 1, 3, 7, 14, 6, 9, 11, 8, 12, 2, 10, 0, 4, 13,
    8, 6, 4, 1, 3, 11, 15, 0, 5, 12, 2, 13, 9, 7, 10, 14,
    12, 15, 10, 4, 1, 5, 8, 7, 6, 2, 13, 14, 0, 3, 9, 11]

def leftDistances : List UInt32 :=
  [11, 14, 15, 12, 5, 8, 7, 9, 11, 13, 14, 15, 6, 7, 9, 8,
    7, 6, 8, 13, 11, 9, 7, 15, 7, 12, 15, 9, 11, 7, 13, 12,
    11, 13, 6, 7, 14, 9, 13, 15, 14, 8, 13, 6, 5, 12, 7, 5,
    11, 12, 14, 15, 14, 15, 9, 8, 9, 14, 5, 6, 8, 6, 5, 12,
    9, 15, 5, 11, 6, 8, 13, 12, 5, 12, 13, 14, 11, 8, 5, 6]

def rightDistances : List UInt32 :=
  [8, 9, 9, 11, 13, 15, 15, 5, 7, 7, 8, 11, 14, 14, 12, 6,
    9, 13, 15, 7, 12, 8, 9, 11, 7, 7, 12, 7, 6, 15, 13, 11,
    9, 7, 15, 11, 8, 6, 6, 14, 12, 13, 5, 14, 13, 13, 7, 5,
    15, 5, 8, 11, 14, 14, 6, 14, 6, 9, 12, 9, 12, 5, 15, 8,
    8, 5, 12, 9, 12, 5, 14, 6, 8, 13, 6, 5, 15, 13, 11, 11]

/-- The eighty steps of a line, of which sixteen at a time share mixing function and constant. -/
def line (mixers : List (UInt32 → UInt32 → UInt32 → UInt32)) (constants : List UInt32)
    (words : List Nat) (distances : List UInt32) : List Step :=
  let rounds := (mixers.zip constants).flatMap (List.replicate 16)
  (rounds.zip (words.zip distances)).map fun ((mix, constant), (word, distance)) =>
    ⟨mix, constant, word, distance⟩

def leftLine : List Step := line mixers leftConstants leftWords leftDistances

def rightLine : List Step := line mixers.reverse rightConstants rightWords rightDistances

/-! ### Compression -/

def rotateLeft (w n : UInt32) : UInt32 := (w <<< n) ||| (w >>> (32 - n))

def Step.apply (step : Step) (block : Array UInt32) (s : Chain) : Chain :=
  let sum := s.a + step.mix s.b s.c s.d + block.getD step.word 0 + step.constant
  ⟨s.e, rotateLeft sum step.distance + s.e, s.b, rotateLeft s.c 10, s.d⟩

/-- The chain after one more block. -/
def compress (s : Chain) (block : Bytes) : Chain :=
  let words := (Bytes.words32Little block).toArray
  let left := leftLine.foldl (fun s step => step.apply words s) s
  let right := rightLine.foldl (fun s step => step.apply words s) s
  ⟨s.b + left.c + right.d, s.c + left.d + right.e, s.d + left.e + right.a,
    s.e + left.a + right.b, s.a + left.b + right.c⟩

/-! ### Messages -/

/-- The chain after the first `blocks` blocks of a message. -/
def absorb (s : Chain) (message : Bytes) : (blocks : Nat) → Chain
  | 0 => s
  | blocks + 1 => absorb (compress s (message.take 64)) (message.drop 64) blocks

/-- What follows a message of `length` bytes: a set bit, zeros, and the length in bits, its least
significant byte first. -/
def padding (length : Nat) : Bytes :=
  0x80 :: List.replicate ((119 - length % 64) % 64) 0 ++ (Bytes.ofNat 8 (8 * length)).reverse

def Chain.toBytes (s : Chain) : Bytes :=
  [s.a, s.b, s.c, s.d, s.e].flatMap Bytes.ofUInt32Little

/-- The digest of a message. -/
def digest (message : Bytes) : Bytes :=
  let padded := message ++ padding message.length
  (absorb Chain.start padded (padded.length / 64)).toBytes

@[simp] theorem length_digest (message : Bytes) : (digest message).length = 20 := rfl

end KeySearch.Digest.Ripemd160
