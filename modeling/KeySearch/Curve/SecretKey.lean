import KeySearch.Curve.Secp256k1

/-! Secret keys: the numbers strictly between zero and the order of the curve, read from and written
to 32 bytes, each with its public point. Reading a written key gives the key back. -/

namespace KeySearch.Curve

open Secp256k1

structure SecretKey where
  value : Nat
  pos : 0 < value
  lt_order : value < order
  deriving DecidableEq

namespace SecretKey

/-- The key of a number, if the number is in range. -/
def ofNat? (n : Nat) : Option SecretKey :=
  if h : 0 < n ∧ n < order then some ⟨n, h.1, h.2⟩ else none

/-- The key that 32 bytes stand for; other lengths and numbers out of range are refused. -/
def ofBytes? (bs : Bytes) : Option SecretKey :=
  if bs.length = 32 then ofNat? (Bytes.toNat bs) else none

def toBytes (k : SecretKey) : Bytes := Bytes.ofNat 32 k.value

/-- The compressed point of the key. -/
def publicKey (k : SecretKey) : Bytes := (Point.scale k.value .generator).compress

@[simp] theorem length_toBytes (k : SecretKey) : k.toBytes.length = 32 := by simp [toBytes]

@[simp] theorem length_publicKey (k : SecretKey) : k.publicKey.length = 33 := by simp [publicKey]

theorem ofNat?_value (k : SecretKey) : ofNat? k.value = some k := by
  simp [ofNat?, k.pos, k.lt_order]

theorem ofBytes?_toBytes (k : SecretKey) : ofBytes? k.toBytes = some k := by
  have h : k.value < Bytes.capacity 32 := Nat.lt_trans k.lt_order (by decide)
  rw [ofBytes?, if_pos k.length_toBytes, toBytes, Bytes.toNat_ofNat_of_lt h, ofNat?_value]

end SecretKey

/-- Whether bytes are a secret key. -/
def isValidSecretKey (bs : Bytes) : Bool := (SecretKey.ofBytes? bs).isSome

end KeySearch.Curve
