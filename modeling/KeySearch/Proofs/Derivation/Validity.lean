import KeySearch.Proofs.Address.RoundTrip
import KeySearch.Proofs.Derivation.RawNode

/-! When a wallet refuses a key as invalid. A wallet that reads bytes at every step answers as one
that does not (`Wallet.deriveFromBytes`), so only the digests of the way down can be at fault: paths
and addresses fail with errors of their own. A key that is given is that of the node at the end of
the path. For the seed of no bytes the digests get down to the last address of the main wallet's
first account. -/

namespace KeySearch.Derivation

open Curve

namespace Wallet

variable {w : Wallet} {seed : Seed} {position : Position} {path : Path}

/-- The key of a position with every reading of bytes that may fail. -/
def deriveFromBytes (w : Wallet) (seed : Seed) (position : Position) : Outcome := do
  let path ← w.path position
  let account ← RawNode.reach seed.bytes path.toAccount
  let node ← account.descend path.belowAccount
  let publicKey ← RawNode.publicKey node.secret
  let address ← w.encoder.encodePublicKey publicKey
  return ⟨position, node.secret, publicKey, address⟩

theorem deriveFromBytes_of_path (h : w.path position = .ok path) (seed : Seed) :
    w.deriveFromBytes seed position = RawNode.reach seed.bytes path.toList >>= fun node =>
      RawNode.publicKey node.secret >>= fun publicKey =>
        w.encoder.encodePublicKey publicKey >>= fun address =>
          return ⟨position, node.secret, publicKey, address⟩ := by
  simp only [deriveFromBytes, h, ok_bind, Path.toList, RawNode.reach_append, bind_assoc]

theorem deriveAfresh_eq_deriveFromBytes (w : Wallet) (seed : Seed) (position : Position) :
    w.deriveAfresh seed position = w.deriveFromBytes seed position := by
  cases reached : w.path position with
  | error e => rw [deriveAfresh, deriveFromBytes, reached, error_bind, error_bind]
  | ok path =>
    rw [deriveFromBytes_of_path reached, RawNode.reach_eq, deriveAfresh, reached, ok_bind,
      Node.ofSeed]
    cases Node.root seed.bytes >>= fun root => root.descend path.toList with
    | error e =>
      have raw : (Except.error e : Except Error Node).map Node.raw = .error e := rfl
      rw [raw, error_bind, error_bind]
    | ok node =>
      have raw : (Except.ok node : Except Error Node).map Node.raw = .ok node.raw := rfl
      have secret : node.raw.secret = node.secret.toBytes := rfl
      rw [raw, ok_bind, ok_bind, secret, RawNode.publicKey_toBytes, ok_bind]

/-- Behind a node that is reached only the address can fail. -/
theorem deriveFromBytes_of_reach {node : RawNode} (h : w.path position = .ok path)
    (found : RawNode.reach seed.bytes path.toList = .ok node) :
    w.deriveFromBytes seed position =
      w.encoder.encodePublicKey (compressedPoint node.secret) >>= fun address =>
        return ⟨position, node.secret, compressedPoint node.secret, address⟩ := by
  rw [deriveFromBytes_of_path h, found, ok_bind, (RawNode.isKey_of_reach found).publicKey_eq,
    ok_bind]

theorem path_ne_invalidKey (w : Wallet) (position : Position) :
    w.path position ≠ .error .invalidKey := by
  intro refused
  cases found : w.offender? position with
  | none =>
    obtain ⟨path, reached⟩ := exists_path found
    rw [reached] at refused
    cases refused
  | some number =>
    obtain ⟨level, index⟩ := number
    rw [path_of_offender found] at refused
    cases refused

theorem encodePublicKey_ne_invalidKey (e : Address.Encoder) (publicKey : Bytes) :
    e.encodePublicKey publicKey ≠ .error .invalidKey := by
  intro refused
  obtain ⟨fault, -, same⟩ := Address.Encoder.encodeHash_eq_error_iff.1 refused
  cases same

/-- A key is refused as invalid exactly where the digests stop the way down. -/
theorem deriveAfresh_eq_invalidKey_iff :
    w.deriveAfresh seed position = .error .invalidKey ↔
      ∃ path, w.path position = .ok path ∧ RawNode.Stops seed.bytes path.toList := by
  cases reached : w.path position with
  | error e =>
    rw [deriveAfresh_of_path_error reached, Except.error.injEq]
    simp only [reduceCtorEq, false_and, exists_false, iff_false]
    rintro rfl
    exact w.path_ne_invalidKey position reached
  | ok path =>
    simp only [Except.ok.injEq, exists_eq_left']
    rw [deriveAfresh_eq_deriveFromBytes]
    cases found : RawNode.reach seed.bytes path.toList with
    | error e =>
      obtain ⟨invalid, stops⟩ := RawNode.reach_eq_error_iff.1 found
      rw [deriveFromBytes_of_path reached, found, error_bind, Except.error.injEq]
      exact iff_of_true invalid stops
    | ok node =>
      have free : ¬RawNode.Stops seed.bytes path.toList := by
        intro stops
        rw [RawNode.reach_eq_error_iff.2 ⟨rfl, stops⟩] at found
        cases found
      rw [deriveFromBytes_of_reach reached found]
      refine iff_of_false (fun failed => ?_) free
      cases written : w.encoder.encodePublicKey (compressedPoint node.secret) with
      | error e =>
        rw [written, error_bind] at failed
        obtain rfl := Except.error.inj failed
        exact encodePublicKey_ne_invalidKey _ _ written
      | ok address =>
        rw [written, ok_bind] at failed
        cases failed

/-- A node at the end of the path is enough for the key not to be refused as invalid. -/
theorem deriveAfresh_ne_invalidKey {node : Node} (reached : w.path position = .ok path)
    (found : Node.ofSeed seed path.toList = .ok node) :
    w.deriveAfresh seed position ≠ .error .invalidKey := by
  unfold deriveAfresh
  rw [reached, ok_bind, found, ok_bind]
  dsimp only
  cases written : w.encoder.encodePublicKey node.secret.publicKey with
  | ok address => exact nofun
  | error e =>
    intro refused
    cases Except.error.inj refused
    exact encodePublicKey_ne_invalidKey _ _ written

/-- The key stands at the position and is that of the node which the position's path leads to. -/
structure KeyAt (w : Wallet) (seed : Seed) (position : Position) (key : Key) : Prop where
  stands : key.position = position
  node : ∃ path node, w.path position = .ok path ∧
    RawNode.reach seed.bytes path.toList = .ok node ∧ key.privateKey = node.secret
  length : key.privateKey.length = 32
  valid : isValidSecretKey key.privateKey = true
  publicKey : key.publicKey = compressedPoint key.privateKey
  address : w.encoder.encodePublicKey key.publicKey = .ok key.address

theorem keyAt_of_deriveAfresh {key : Key} (h : w.deriveAfresh seed position = .ok key) :
    w.KeyAt seed position key := by
  have stands := position_of_deriveAfresh h
  rw [deriveAfresh_eq_deriveFromBytes] at h
  obtain ⟨path, reached, -⟩ := exists_of_bind_eq_ok h
  have rest := h
  rw [deriveFromBytes_of_path reached] at rest
  obtain ⟨node, found, -⟩ := exists_of_bind_eq_ok rest
  rw [deriveFromBytes_of_reach reached found] at h
  obtain ⟨address, written, h⟩ := exists_of_bind_eq_ok h
  obtain rfl := Except.ok.inj h
  have isKey := RawNode.isKey_of_reach found
  exact ⟨stands, ⟨path, node, reached, found, rfl⟩, isKey.length,
    isValidSecretKey_iff.2 isKey.exists_toBytes, rfl, written⟩

/-- Of every seed and path: the raw nodes are the nodes; the secret of one that is reached is a
secret key, can be read both ways, and came about at each level as the sum of a left half and the
parent's secret; and only the digests can stop the way down. The left half zero is no obstacle to a
child. So a wallet, whatever its memory has been through, answers as if it read bytes at every step,
refuses a key as invalid exactly where the digests stop the way down, and otherwise gives the one
that the node at the end of the path stands for. -/
theorem only_digests_stop_derivation (w : Wallet) :
    (∀ (seed : Bytes) (path : List UInt32),
      RawNode.reach seed path =
        (Node.root seed >>= fun root => root.descend path).map Node.raw ∧
      (∀ e, RawNode.reach seed path = .error e ↔ e = .invalidKey ∧ RawNode.Stops seed path) ∧
      ∀ node, RawNode.reach seed path = .ok node →
        node.IsKey ∧
        RawNode.scalar node.secret = .ok (Bytes.toNat node.secret) ∧
        RawNode.publicKey node.secret = .ok (compressedPoint node.secret) ∧
        ∀ before number after, path = before ++ number :: after →
          ∃ parent child, RawNode.reach seed before = .ok parent ∧
            RawNode.reach seed (before ++ [number]) = .ok child ∧
            parent.IsChild number child) ∧
    (∀ (parent : RawNode) (tag : Bytes), parent.IsKey → RawNode.leftHalf tag = 0 →
      parent.under tag = .ok ⟨parent.secret, tag.drop 32⟩) ∧
    ∀ turns seed position outcome,
      outcome = (w.derive seed position (Pool.empty.run w turns).memory).1 →
        outcome = w.deriveFromBytes seed position ∧
        (outcome = .error .invalidKey ↔
          ∃ path, w.path position = .ok path ∧ RawNode.Stops seed.bytes path.toList) ∧
        ∀ key, outcome = .ok key → w.KeyAt seed position key := by
  refine ⟨fun seed path => ⟨RawNode.reach_eq seed path, fun e => RawNode.reach_eq_error_iff, ?_⟩,
    fun parent tag isKey zero => RawNode.under_of_leftHalf_eq_zero isKey zero, ?_⟩
  · intro node reached
    have isKey := RawNode.isKey_of_reach reached
    refine ⟨isKey, isKey.scalar_eq, isKey.publicKey_eq, ?_⟩
    rintro before number after rfl
    exact RawNode.exists_isChild reached
  · rintro turns seed position outcome rfl
    have belongs := ((Pool.fits_empty w).run turns).memory
    rw [(derive_eq_deriveAfresh belongs seed position).outcome]
    exact ⟨deriveAfresh_eq_deriveFromBytes w seed position, deriveAfresh_eq_invalidKey_iff,
      fun key found => keyAt_of_deriveAfresh found⟩

end Wallet

/-! ### The last address of an account

A way down whose digests stop nowhere. It is checked node by node, as the kernel takes seconds for
each keyed digest. -/

namespace Node

/-- The root for the seed of no bytes, and below it the nodes of the main wallet on the way to the
receiving chain of its first account. -/
def emptyRoot : Node where
  secret :=
    ⟨0x300b155f751964276c0536230bd9b16fe7a86533c3cbaa7575e8d0431dbedf23, by decide, by decide⟩
  chainCode := .ofNat 32 0xf9945bb8b052bd0b0802c10c7c852e7765b69b61ce7233d9fe5a35ab108ca3b6

def emptyPurpose : Node where
  secret :=
    ⟨0xd13dd66ae3857e0cd97ddd042cf27d98e8282f91f3c07ed137f70ba666bc1c8f, by decide, by decide⟩
  chainCode := .ofNat 32 0x11b62f221d7ed197daf1f959a9ffd29cc6a6c9e7ca0ec94c26db21c43fcd24ce

def emptyCoinType : Node where
  secret :=
    ⟨0xff475a5efe4a3bccb5fabb0fb971dd8bc45a328e7163037cd3923ff9344cc4e2, by decide, by decide⟩
  chainCode := .ofNat 32 0x1533df4c40cdab004ed6e92776025e288576ea75366f909a924d86eed0d16272

def emptyAccount : Node where
  secret :=
    ⟨0xcb7dd152e3e98e3949fa754f45f2395e57c970ebc93ab32d2037ebd93e9d0ded, by decide, by decide⟩
  chainCode := .ofNat 32 0x3e7bb6fd37a4f9e3de94e28e51ab9ac64258ff71873d6acddea4cc3740b182a2

def emptyChain : Node where
  secret :=
    ⟨0x72d8aaf574ad852a07af8974554e55c0529b4db8a2b974074737c35329cef4f5, by decide, by decide⟩
  chainCode := .ofNat 32 0xd5d52b61ba350420285213d87c085ef74fcb49c10cdef22162730d22d73e0691

def emptyLast : Node where
  secret :=
    ⟨0xf43b1628922171682be4b81b4026e0d0d9c13023301c362672d53db011707e25, by decide, by decide⟩
  chainCode := .ofNat 32 0x325cfb3debc2c767bf84328e37ee7fed1638900430e59776e510072ebca8049e

theorem root_empty : root [] = .ok emptyRoot := by decide +kernel

theorem child_emptyRoot : emptyRoot.child 0x80000054 = .ok emptyPurpose := by decide +kernel

theorem child_emptyPurpose : emptyPurpose.child 0x80000000 = .ok emptyCoinType := by
  decide +kernel

theorem child_emptyCoinType : emptyCoinType.child 0x80000000 = .ok emptyAccount := by
  decide +kernel

theorem child_emptyAccount : emptyAccount.child 0 = .ok emptyChain := by decide +kernel

theorem child_emptyChain : emptyChain.child 0x7fffffff = .ok emptyLast := by decide +kernel

theorem ofSeed_empty :
    ofSeed ⟨[]⟩ [0x80000054, 0x80000000, 0x80000000, 0, 0x7fffffff] = .ok emptyLast := by
  rw [ofSeed, root_empty, ok_bind, descend, child_emptyRoot, ok_bind, descend, child_emptyPurpose,
    ok_bind, descend, child_emptyCoinType, ok_bind, descend, child_emptyAccount, ok_bind, descend,
    child_emptyChain, ok_bind, descend]

end Node

namespace Wallet

/-- The digests give a key at the last address of the first account, for the seed of no bytes and in
whatever way addresses are written. -/
theorem deriveAfresh_last_ne_invalidKey (encoder : Address.Encoder) :
    (⟨mainPurpose, mainCoinType, encoder⟩ : Wallet).deriveAfresh ⟨[]⟩ ⟨0, 2147483647⟩ ≠
      .error .invalidKey := by
  have path : (⟨mainPurpose, mainCoinType, encoder⟩ : Wallet).path ⟨0, 2147483647⟩ =
    .ok ⟨0x80000054, 0x80000000, 0x80000000, 0, 0x7fffffff⟩ := by cbv
  exact deriveAfresh_ne_invalidKey path Node.ofSeed_empty

end Wallet

end KeySearch.Derivation
