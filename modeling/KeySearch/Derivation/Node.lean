import KeySearch.Curve.SecretKey
import KeySearch.Derivation.Path
import KeySearch.Seed

/-! Nodes of the tree of keys that grows from one seed (BIP32). A node is a secret key with a chain
code. The root is made from the seed, and each child from its parent and a number by adding one half
of a keyed digest to the parent's secret; where the sum or the half is out of range there is no such
child. A hardened number digests the parent's secret key, any other its public key. -/

namespace KeySearch.Derivation

open Curve

structure Node where
  secret : SecretKey
  chainCode : Bytes
  deriving DecidableEq

namespace Node

/-- The key of the digest that makes the root. -/
def rootKey : Bytes := Bytes.ofString "Bitcoin seed"

/-- The root of the tree of a seed. -/
def root (seed : Bytes) : Except Error Node :=
  let tag := Digest.hmacSha512 rootKey seed
  match SecretKey.ofBytes? (tag.take 32) with
  | some secret => .ok ⟨secret, tag.drop 32⟩
  | none => .error .invalidKey

/-- What is digested for the child with the given number. -/
def childData (parent : Node) (number : UInt32) : Bytes :=
  (if hardened ≤ number then 0 :: parent.secret.toBytes else parent.secret.publicKey) ++
    Bytes.ofUInt32 number

def child (parent : Node) (number : UInt32) : Except Error Node :=
  let tag := Digest.hmacSha512 parent.chainCode (childData parent number)
  let tweak := Bytes.toNat (tag.take 32)
  if tweak < Secp256k1.order then
    match SecretKey.ofNat? ((tweak + parent.secret.value) % Secp256k1.order) with
    | some secret => .ok ⟨secret, tag.drop 32⟩
    | none => .error .invalidKey
  else .error .invalidKey

/-- The node reached from here by one child after the other. -/
def descend (node : Node) : List UInt32 → Except Error Node
  | [] => .ok node
  | number :: rest => do (← node.child number).descend rest

/-- The node reached from the root of a seed. -/
def ofSeed (seed : Seed) (path : List UInt32) : Except Error Node := do
  (← root seed.bytes).descend path

theorem descend_append (node : Node) (p q : List UInt32) :
    node.descend (p ++ q) = node.descend p >>= fun middle => middle.descend q := by
  induction p generalizing node with
  | nil => rfl
  | cons number p ih =>
    simp only [List.cons_append, descend]
    cases node.child number with
    | error e => rfl
    | ok next => exact ih next

end Node

end KeySearch.Derivation
