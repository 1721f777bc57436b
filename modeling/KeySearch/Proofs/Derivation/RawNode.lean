import KeySearch.Proofs.Derivation.Range
import Mathlib.Data.List.Induction

/-! Nodes as bytes. The secret of a `Node` is in range by its type. The secret of a `RawNode` is any
bytes, and each reading of them, as a scalar or as a secret key, may fail. The two readings differ
at zero, which is a scalar and no secret key. The root and every child are checked when they are
made, so raw nodes make the same tree as nodes (`RawNode.reach_eq`), and the secret of a node that
is reached can be read both ways. What stops a way down is therefore always a digest
(`RawNode.Stops`). -/

namespace KeySearch

/-! ### Secret keys as bytes -/

theorem Bytes.ofNat_toNat (bs : Bytes) : ofNat bs.length (toNat bs) = bs := by
  induction bs using List.reverseRecOn with
  | nil => rfl
  | append_singleton bs b ih =>
    have digit := b.toNat_lt
    have high : (256 * toNat bs + b.toNat) / 256 = toNat bs := by omega
    have low : UInt8.ofNat (256 * toNat bs + b.toNat) = b := by
      rw [← UInt8.toNat_inj, UInt8.toNat_ofNat']
      omega
    rw [List.length_append, List.length_singleton, toNat_append_singleton, ofNat, high, low, ih]

namespace Curve

theorem SecretKey.toNat_toBytes (k : SecretKey) : Bytes.toNat k.toBytes = k.value :=
  Bytes.toNat_ofNat_of_lt (Nat.lt_trans k.lt_order (by decide))

/-- The compressed point of the number that bytes denote. -/
def compressedPoint (bs : Bytes) : Bytes :=
  (Secp256k1.Point.scale (Bytes.toNat bs) .generator).compress

theorem SecretKey.publicKey_eq (k : SecretKey) : k.publicKey = compressedPoint k.toBytes := by
  rw [compressedPoint, k.toNat_toBytes, publicKey]

theorem SecretKey.exists_toBytes_iff {bs : Bytes} :
    (∃ k : SecretKey, k.toBytes = bs) ↔
      bs.length = 32 ∧ 0 < Bytes.toNat bs ∧ Bytes.toNat bs < Secp256k1.order := by
  constructor
  · rintro ⟨k, rfl⟩
    rw [k.toNat_toBytes]
    exact ⟨k.length_toBytes, k.pos, k.lt_order⟩
  · rintro ⟨length, pos, lt⟩
    refine ⟨⟨Bytes.toNat bs, pos, lt⟩, ?_⟩
    rw [toBytes, ← length, Bytes.ofNat_toNat]

theorem SecretKey.ofBytes?_eq_some_iff {bs : Bytes} {k : SecretKey} :
    ofBytes? bs = some k ↔ k.toBytes = bs := by
  constructor
  · intro found
    rw [ofBytes?, ofNat?, Option.ite_none_right_eq_some, Option.dite_none_right_eq_some] at found
    obtain ⟨length, range, same⟩ := found
    cases same
    rw [toBytes, ← length, Bytes.ofNat_toNat]
  · rintro rfl
    exact k.ofBytes?_toBytes

theorem isValidSecretKey_iff {bs : Bytes} :
    isValidSecretKey bs = true ↔ ∃ k : SecretKey, k.toBytes = bs := by
  rw [isValidSecretKey, Option.isSome_iff_exists]
  simp only [SecretKey.ofBytes?_eq_some_iff]

end Curve

namespace Derivation

open Curve

/-- Used in place of `rfl`, which compares what comes after the error and so runs the digests. -/
theorem error_bind {α β : Type} (e : Error) (f : α → Except Error β) :
    (Except.error e >>= f) = .error e := rfl

/-! ### Raw nodes -/

/-- A node as it is stored, with nothing known of its bytes. -/
structure RawNode where
  (secret chainCode : Bytes)
  deriving DecidableEq

namespace RawNode

/-- Bytes as a scalar, which may be zero. -/
def scalar (bs : Bytes) : Except Error Nat :=
  if Bytes.toNat bs < Secp256k1.order then .ok (Bytes.toNat bs) else .error .invalidKey

/-- The public key of bytes that are a secret key. -/
def publicKey (bs : Bytes) : Except Error Bytes :=
  match SecretKey.ofBytes? bs with
  | some key => .ok key.publicKey
  | none => .error .invalidKey

/-- The left half of a digest as a number. -/
def leftHalf (tag : Bytes) : Nat := Bytes.toNat (tag.take 32)

/-- The root that a digest makes. -/
def ofTag (tag : Bytes) : Except Error RawNode :=
  if isValidSecretKey (tag.take 32) then .ok ⟨tag.take 32, tag.drop 32⟩ else .error .invalidKey

def root (seed : Bytes) : Except Error RawNode := ofTag (Digest.hmacSha512 Node.rootKey seed)

def childData (parent : RawNode) (number : UInt32) : Except Error Bytes :=
  if hardened ≤ number then .ok (0 :: parent.secret ++ Bytes.ofUInt32 number)
  else do return (← publicKey parent.secret) ++ Bytes.ofUInt32 number

/-- The digest for the child with the given number. -/
def digest (parent : RawNode) (number : UInt32) : Except Error Bytes := do
  return Digest.hmacSha512 parent.chainCode (← parent.childData number)

/-- The child that a digest makes. -/
def under (parent : RawNode) (tag : Bytes) : Except Error RawNode := do
  let tweak ← scalar (tag.take 32)
  let secret ← scalar parent.secret
  let sum := (tweak + secret) % Secp256k1.order
  if sum = 0 then .error .invalidKey else .ok ⟨Bytes.ofNat 32 sum, tag.drop 32⟩

def child (parent : RawNode) (number : UInt32) : Except Error RawNode := do
  parent.under (← parent.digest number)

def descend (node : RawNode) (path : List UInt32) : Except Error RawNode := path.foldlM child node

/-- The raw node at the end of a path. -/
def reach (seed : Bytes) (path : List UInt32) : Except Error RawNode := do
  (← root seed).descend path

end RawNode

def Node.raw (node : Node) : RawNode := ⟨node.secret.toBytes, node.chainCode⟩

namespace RawNode

/-! ### Readings that succeed -/

/-- The secret is that of a node. -/
structure IsKey (node : RawNode) : Prop where
  length : node.secret.length = 32
  pos : 0 < Bytes.toNat node.secret
  lt_order : Bytes.toNat node.secret < Secp256k1.order

theorem isKey_raw (node : Node) : node.raw.IsKey := by
  obtain ⟨length, pos, lt⟩ := SecretKey.exists_toBytes_iff.1 ⟨node.secret, rfl⟩
  exact ⟨length, pos, lt⟩

variable {node parent : RawNode} {seed tag : Bytes} {number : UInt32} {path : List UInt32}

theorem IsKey.scalar_eq (h : node.IsKey) : scalar node.secret = .ok (Bytes.toNat node.secret) :=
  if_pos h.lt_order

theorem publicKey_toBytes (k : SecretKey) : publicKey k.toBytes = .ok k.publicKey := by
  simp only [publicKey, k.ofBytes?_toBytes]

theorem IsKey.exists_toBytes (h : node.IsKey) : ∃ k : SecretKey, k.toBytes = node.secret :=
  SecretKey.exists_toBytes_iff.2 ⟨h.length, h.pos, h.lt_order⟩

theorem IsKey.publicKey_eq (h : node.IsKey) :
    publicKey node.secret = .ok (compressedPoint node.secret) := by
  obtain ⟨k, same⟩ := h.exists_toBytes
  rw [← same, publicKey_toBytes, k.publicKey_eq]

theorem IsKey.exists_digest (h : node.IsKey) (number : UInt32) :
    ∃ tag, node.digest number = .ok tag := by
  unfold digest childData
  by_cases hard : hardened ≤ number
  · rw [if_pos hard]
    exact ⟨_, ok_bind _ _⟩
  · rw [if_neg hard, h.publicKey_eq, ok_bind]
    exact ⟨_, ok_bind _ _⟩

/-! ### What a digest makes -/

theorem ofTag_eq_error_iff (long : 32 ≤ tag.length) {e : Error} :
    ofTag tag = .error e ↔
      e = .invalidKey ∧ (leftHalf tag = 0 ∨ Secp256k1.order ≤ leftHalf tag) := by
  have length : (tag.take 32).length = 32 := List.length_take_of_le long
  have invalid : ¬isValidSecretKey (tag.take 32) = true ↔
      leftHalf tag = 0 ∨ Secp256k1.order ≤ leftHalf tag := by
    rw [isValidSecretKey_iff, SecretKey.exists_toBytes_iff, and_iff_right length, leftHalf]
    omega
  rw [ofTag]
  by_cases valid : isValidSecretKey (tag.take 32) = true
  · rw [if_pos valid, ← invalid]
    simp [valid]
  · rw [if_neg valid, Except.error.injEq, eq_comm, and_iff_left (invalid.1 valid)]

theorem under_eq (h : parent.IsKey) (tag : Bytes) :
    parent.under tag =
      if leftHalf tag < Secp256k1.order ∧
          (leftHalf tag + Bytes.toNat parent.secret) % Secp256k1.order ≠ 0 then
        .ok ⟨Bytes.ofNat 32 ((leftHalf tag + Bytes.toNat parent.secret) % Secp256k1.order),
          tag.drop 32⟩
      else .error .invalidKey := by
  unfold under
  by_cases small : leftHalf tag < Secp256k1.order
  · have read : scalar (tag.take 32) = .ok (leftHalf tag) := if_pos small
    rw [read, h.scalar_eq, ok_bind, ok_bind]
    dsimp only
    by_cases zero : (leftHalf tag + Bytes.toNat parent.secret) % Secp256k1.order = 0
    · rw [if_pos zero, if_neg fun fits => fits.2 zero]
    · rw [if_neg zero, if_pos ⟨small, zero⟩]
  · have read : scalar (tag.take 32) = .error .invalidKey := if_neg small
    rw [read, if_neg fun fits => small fits.1]
    rfl

theorem under_eq_error_iff (h : parent.IsKey) {e : Error} :
    parent.under tag = .error e ↔ e = .invalidKey ∧ (Secp256k1.order ≤ leftHalf tag ∨
      (leftHalf tag + Bytes.toNat parent.secret) % Secp256k1.order = 0) := by
  rw [under_eq h]
  split
  · rename_i fits
    simp only [reduceCtorEq, false_iff, not_and, not_or, Nat.not_le]
    exact fun _ => fits
  · rename_i unfit
    rw [Except.error.injEq, eq_comm, and_iff_left]
    omega

/-- The left half zero is accepted, and leaves the secret as it is. -/
theorem under_of_leftHalf_eq_zero (h : parent.IsKey) (zero : leftHalf tag = 0) :
    parent.under tag = .ok ⟨parent.secret, tag.drop 32⟩ := by
  have same : (leftHalf tag + Bytes.toNat parent.secret) % Secp256k1.order =
      Bytes.toNat parent.secret := by
    rw [zero, Nat.zero_add, Nat.mod_eq_of_lt h.lt_order]
  have written : Bytes.ofNat 32 (Bytes.toNat parent.secret) = parent.secret := by
    rw [← h.length, Bytes.ofNat_toNat]
  rw [under_eq h, same, written, if_pos]
  exact ⟨zero ▸ Nat.lt_trans h.pos h.lt_order, Nat.ne_of_gt h.pos⟩

/-! ### One tree -/

theorem root_eq_map (seed : Bytes) : root seed = (Node.root seed).map Node.raw := by
  rw [Node.root_eq, root]
  dsimp only
  generalize Digest.hmacSha512 Node.rootKey seed = tag
  rw [ofTag]
  cases found : SecretKey.ofBytes? (tag.take 32) with
  | some key =>
    have same := SecretKey.ofBytes?_eq_some_iff.1 found
    rw [if_pos (isValidSecretKey_iff.2 ⟨key, same⟩), ← same]
    rfl
  | none =>
    rw [if_neg]
    · rfl
    · rw [isValidSecretKey, found]
      exact Bool.false_ne_true

theorem childData_raw (node : Node) (number : UInt32) :
    node.raw.childData number = .ok (node.childData number) := by
  unfold childData Node.childData Node.raw
  dsimp only
  by_cases hard : hardened ≤ number
  · rw [if_pos hard, if_pos hard]
  · rw [if_neg hard, if_neg hard, publicKey_toBytes, ok_bind]
    rfl

theorem child_raw (node : Node) (number : UInt32) :
    node.raw.child number = (node.child number).map Node.raw := by
  have secret : Bytes.toNat node.raw.secret = node.secret.value := node.secret.toNat_toBytes
  have chainCode : node.raw.chainCode = node.chainCode := rfl
  rw [child, digest, childData_raw, ok_bind, pure_bind, under_eq (isKey_raw node), secret,
    chainCode]
  unfold leftHalf Node.child
  dsimp only
  generalize Digest.hmacSha512 node.chainCode (node.childData number) = tag
  generalize Bytes.toNat (tag.take 32) = tweak
  have below : (tweak + node.secret.value) % Secp256k1.order < Secp256k1.order :=
    Nat.mod_lt _ (by decide)
  by_cases small : tweak < Secp256k1.order
  · rw [if_pos small]
    by_cases zero : (tweak + node.secret.value) % Secp256k1.order = 0
    · rw [if_neg fun fits => fits.2 zero, SecretKey.ofNat?,
        dif_neg fun range => Nat.ne_of_gt range.1 zero]
      rfl
    · rw [if_pos ⟨small, zero⟩, SecretKey.ofNat?, dif_pos ⟨Nat.pos_of_ne_zero zero, below⟩]
      rfl
  · rw [if_neg small, if_neg fun fits => small fits.1]
    rfl

theorem descend_raw (node : Node) (path : List UInt32) :
    node.raw.descend path = (node.descend path).map Node.raw := by
  induction path generalizing node with
  | nil => rfl
  | cons number path ih =>
    rw [descend, List.foldlM_cons, child_raw, Node.descend]
    cases node.child number with
    | error e => rfl
    | ok next => exact ih next

/-- The raw nodes of a seed are its nodes. -/
theorem reach_eq (seed : Bytes) (path : List UInt32) :
    reach seed path = (Node.root seed >>= fun root => root.descend path).map Node.raw := by
  rw [reach, root_eq_map]
  cases Node.root seed with
  | error e => rfl
  | ok root => exact descend_raw root path

theorem isKey_of_reach (h : reach seed path = .ok node) : node.IsKey := by
  rw [reach_eq] at h
  cases found : Node.root seed >>= fun root => root.descend path with
  | error e =>
    rw [found] at h
    cases h
  | ok reached =>
    rw [found] at h
    obtain rfl : reached.raw = node := Except.ok.inj h
    exact isKey_raw reached

/-! ### Levels -/

theorem descend_cons (node : RawNode) (number : UInt32) (path : List UInt32) :
    node.descend (number :: path) = node.child number >>= fun child => child.descend path :=
  List.foldlM_cons

theorem reach_append (seed : Bytes) (p q : List UInt32) :
    reach seed (p ++ q) = reach seed p >>= fun middle => middle.descend q := by
  simp only [reach, descend, List.foldlM_append, bind_assoc]

theorem reach_concat (seed : Bytes) (path : List UInt32) (number : UInt32) :
    reach seed (path ++ [number]) = reach seed path >>= fun parent => parent.child number := by
  simp only [reach_append, descend, List.foldlM_cons, List.foldlM_nil, bind_pure]

/-- The child has the sum of the left half of the digest and the parent's secret. -/
def IsChild (parent : RawNode) (number : UInt32) (child : RawNode) : Prop :=
  ∃ tag, parent.digest number = .ok tag ∧ child.chainCode = tag.drop 32 ∧
    Bytes.toNat child.secret =
      (leftHalf tag + Bytes.toNat parent.secret) % Secp256k1.order

theorem isChild_of_child (h : parent.IsKey) {child : RawNode}
    (born : parent.child number = .ok child) : parent.IsChild number child := by
  obtain ⟨tag, digested, born⟩ := exists_of_bind_eq_ok born
  refine ⟨tag, digested, ?_⟩
  rw [under_eq h] at born
  split at born
  · obtain rfl := Except.ok.inj born
    exact ⟨rfl, Bytes.toNat_ofNat_of_lt (Nat.lt_trans (Nat.mod_lt _ (by decide)) (by decide))⟩
  · cases born

/-- A way down that comes to its end passes from parent to child at every level. -/
theorem exists_isChild {before after : List UInt32}
    (h : reach seed (before ++ number :: after) = .ok node) :
    ∃ parent child, reach seed before = .ok parent ∧
      reach seed (before ++ [number]) = .ok child ∧ parent.IsChild number child := by
  rw [List.append_cons, reach_append] at h
  obtain ⟨child, reached, -⟩ := exists_of_bind_eq_ok h
  have last := reached
  rw [reach_concat] at last
  obtain ⟨parent, above, born⟩ := exists_of_bind_eq_ok last
  exact ⟨parent, child, above, reached, isChild_of_child (isKey_of_reach above) born⟩

/-! ### Where a way down stops -/

/-- A way down that fails has come to a node without the next child. -/
theorem exists_of_descend_eq_error {e : Error} (h : node.descend path = .error e) :
    ∃ before number after parent, path = before ++ number :: after ∧
      node.descend before = .ok parent ∧ parent.child number = .error e := by
  induction path generalizing node with
  | nil => cases h
  | cons number rest ih =>
    rw [descend_cons] at h
    cases born : node.child number with
    | error cause =>
      rw [born] at h
      obtain rfl : cause = e := Except.error.inj h
      exact ⟨[], number, rest, node, rfl, rfl, born⟩
    | ok child =>
      rw [born, ok_bind] at h
      obtain ⟨before, last, after, parent, rfl, above, failed⟩ := ih h
      refine ⟨number :: before, last, after, parent, rfl, ?_, failed⟩
      rw [descend_cons, born, ok_bind, above]

/-- The digests give no node at the end of the path: the left half of the root's digest is zero or
too large, or on the way down a left half is too large or a sum zero. -/
inductive Stops (seed : Bytes) : List UInt32 → Prop where
  | root {path : List UInt32} (out : leftHalf (Digest.hmacSha512 Node.rootKey seed) = 0 ∨
      Secp256k1.order ≤ leftHalf (Digest.hmacSha512 Node.rootKey seed)) : Stops seed path
  | level {before : List UInt32} {number : UInt32} {after : List UInt32} {parent : RawNode}
      {tag : Bytes} (above : reach seed before = .ok parent)
      (digested : parent.digest number = .ok tag)
      (out : Secp256k1.order ≤ leftHalf tag ∨
        (leftHalf tag + Bytes.toNat parent.secret) % Secp256k1.order = 0) :
      Stops seed (before ++ number :: after)

theorem root_eq_error_iff {e : Error} :
    root seed = .error e ↔ e = .invalidKey ∧
      (leftHalf (Digest.hmacSha512 Node.rootKey seed) = 0 ∨
        Secp256k1.order ≤ leftHalf (Digest.hmacSha512 Node.rootKey seed)) := by
  refine ofTag_eq_error_iff ?_
  rw [Digest.length_hmacSha512]
  decide

theorem reach_eq_error_iff {e : Error} :
    reach seed path = .error e ↔ e = .invalidKey ∧ Stops seed path := by
  constructor
  · intro h
    cases made : root seed with
    | error cause =>
      rw [reach, made] at h
      obtain rfl : cause = e := Except.error.inj h
      obtain ⟨invalid, out⟩ := root_eq_error_iff.1 made
      exact ⟨invalid, .root out⟩
    | ok start =>
      rw [reach, made, ok_bind] at h
      obtain ⟨before, number, after, parent, rfl, above, failed⟩ := exists_of_descend_eq_error h
      have reached : reach seed before = .ok parent := by rw [reach, made, ok_bind, above]
      have isKey := isKey_of_reach reached
      obtain ⟨tag, digested⟩ := isKey.exists_digest number
      rw [child, digested, ok_bind, under_eq_error_iff isKey] at failed
      exact ⟨failed.1, .level reached digested failed.2⟩
  · rintro ⟨rfl, stops⟩
    cases stops with
    | root out =>
      rw [reach, root_eq_error_iff.2 ⟨rfl, out⟩]
      rfl
    | level above digested out =>
      rw [reach_append, above, ok_bind, descend_cons, child, digested, ok_bind,
        (under_eq_error_iff (isKey_of_reach above)).2 ⟨rfl, out⟩]
      rfl

end RawNode

end Derivation

end KeySearch
