import KeySearch.Bytes

/-! The Bech32 format: a human-readable part, a separator, then values of five bits as characters
of a fixed alphabet, the last six of them a checksum over all the others. A human-readable part has
1 to 83 bytes, all of them printable ASCII other than the space and not letters of both cases; it
is written in lower case. Reading splits a text at its last separator and accepts it only with a
valid checksum. -/

namespace KeySearch.Address.Bech32

/-! ### Groups of five bits -/

/-- A value of five bits. -/
abbrev Quint := Fin 32

/-- The bits of bytes, from the most significant bit of the first byte on. -/
def bits (bs : Bytes) : List Bool :=
  bs.flatMap fun b => (List.range 8).map fun i => b.toNat.testBit (7 - i)

/-- The number that bits denote, the first being the most significant. -/
def ofBits (bits : List Bool) : Nat := bits.foldl (fun n b => 2 * n + b.toNat) 0

/-- Bits in groups of five, the last group filled up with zeros. -/
def groups : List Bool → List Quint
  | a :: b :: c :: d :: e :: rest => Fin.ofNat 32 (ofBits [a, b, c, d, e]) :: groups rest
  | [] => []
  | last => [Fin.ofNat 32 (ofBits (last ++ List.replicate (5 - last.length) false))]

/-- The bits of values of five bits. -/
def ungroup (qs : List Quint) : List Bool :=
  qs.flatMap fun q => (List.range 5).map fun i => q.val.testBit (4 - i)

/-- Bits in bytes; a rest of fewer than eight bits is handed back. -/
def bytesOfBits : List Bool → Bytes × List Bool
  | a :: b :: c :: d :: e :: f :: g :: h :: rest =>
    let (bs, left) := bytesOfBits rest
    (UInt8.ofNat (ofBits [a, b, c, d, e, f, g, h]) :: bs, left)
  | rest => ([], rest)

/-! ### Checksum -/

/-- What is added for each of the five bits that leave the register. -/
def generators : List UInt32 := [0x3b6a57b2, 0x26508e6d, 0x1ea119fa, 0x3d4233dd, 0x2a1462b3]

/-- Shifts one value into the register of thirty bits. -/
def push (register : UInt32) (value : Nat) : UInt32 :=
  let top := register >>> 25
  let shifted := ((register &&& 0x1ffffff) <<< 5) ^^^ UInt32.ofNat value
  (generators.zipIdx.filter fun (_, i) => top.toNat.testBit i).foldl (· ^^^ ·.1) shifted

def polymod (values : List Nat) : UInt32 := values.foldl push 1

/-- The human-readable part as it enters the checksum: the high bits of its characters, a zero, and
their low bits. -/
def expand (hrp : List Char) : List Nat :=
  hrp.map (·.toNat / 32) ++ 0 :: hrp.map (·.toNat % 32)

/-- The six values that make the checksum of the whole come out as one. -/
def checksum (hrp : List Char) (data : List Quint) : List Quint :=
  let register := polymod (expand hrp ++ data.map (·.val) ++ List.replicate 6 0) ^^^ 1
  (List.range 6).map fun i => Fin.ofNat 32 (register.toNat >>> (5 * (5 - i)))

/-- Whether the checksum of a whole text comes out as one. -/
def isValid (hrp : List Char) (data : List Quint) : Bool :=
  polymod (expand hrp ++ data.map (·.val)) == 1

/-! ### Human-readable part -/

inductive Error where
  | invalidLength
  /-- A byte that is no visible ASCII, as the character with that number. -/
  | invalidChar (char : Char)
  | mixedCase
  deriving DecidableEq

def Error.message : Error → String
  | .invalidLength => "invalid length"
  | .invalidChar char => "invalid character (code=" ++ String.singleton char ++ ")"
  | .mixedCase => "mixed-case strings not allowed"

/-- Which cases of letters have been seen. -/
structure Cases where
  (lower upper : Bool)
  deriving DecidableEq

def Cases.see (seen : Cases) (b : UInt8) : Cases where
  lower := seen.lower || (0x61 ≤ b && b ≤ 0x7a)
  upper := seen.upper || (0x41 ≤ b && b ≤ 0x5a)

/-- Goes through the bytes in order; the first that may not stand there is the error. -/
def checkBytes (seen : Cases) : Bytes → Except Error Cases
  | [] => .ok seen
  | b :: rest =>
    if b < 33 ∨ 126 < b then .error (.invalidChar (Char.ofNat b.toNat))
    else
      let seen := seen.see b
      if seen.lower && seen.upper then .error .mixedCase else checkBytes seen rest

def lowerByte (b : UInt8) : Char :=
  Char.ofNat (if 0x41 ≤ b ∧ b ≤ 0x5a then b.toNat + 32 else b.toNat)

/-- The human-readable part in lower case, if it keeps the rules. -/
def checkHrp (hrp : Bytes) : Except Error (List Char) :=
  if hrp.isEmpty ∨ 83 < hrp.length then .error .invalidLength
  else (checkBytes ⟨false, false⟩ hrp).map fun _ => hrp.map lowerByte

/-! ### Texts -/

def alphabet : List Char := "qpzry9x8gf2tvdw0s3jn54khce6mua7l".toList

def toChar (q : Quint) : Char := alphabet.getD q.val 'q'

def ofChar? (c : Char) : Option Quint := (alphabet.idxOf? c).map (Fin.ofNat 32)

def encode (hrp : String) (data : List Quint) : Except Error String :=
  (checkHrp (Bytes.ofString hrp)).map fun lower =>
    String.ofList (lower ++ '1' :: (data ++ checksum lower data).map toChar)

/-- The parts before and after the last separator. -/
def splitLast (cs : List Char) : Option (List Char × List Char) :=
  match cs.reverse.span (· != '1') with
  | (after, _ :: before) => some (before.reverse, after.reverse)
  | (_, []) => none

/-- The human-readable part and the values without the checksum. -/
def decode? (text : String) : Option (List Char × List Quint) := do
  let (hrp, after) ← splitLast text.toList
  let values ← after.mapM ofChar?
  if isValid hrp values && 6 ≤ values.length then some (hrp, values.take (values.length - 6))
  else none

end KeySearch.Address.Bech32
