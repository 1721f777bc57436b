import KeySearch.Proofs.Address.HumanReadable
import KeySearch.Proofs.Derivation.Memory

/-! Which positions have keys. A path takes four numbers that are chosen freely, and the first of
them that is too large is what a derivation fails with (`Wallet.offender?`). With all four in range
and a proper human-readable part there is a key, unless the digests leave the range of secret keys.
-/

namespace KeySearch.Derivation

/-! ### Nodes -/

namespace Node

theorem error_of_child {parent : Node} {number : UInt32} {e : Error}
    (h : parent.child number = .error e) : e = .invalidKey := by
  unfold child at h
  dsimp only at h
  split at h
  · split at h
    · cases h
    · cases h
      rfl
  · cases h
    rfl

theorem error_of_descend {node : Node} {path : List UInt32} {e : Error}
    (h : node.descend path = .error e) : e = .invalidKey := by
  induction path generalizing node with
  | nil => cases h
  | cons number path ih =>
    rw [descend] at h
    cases next : node.child number with
    | error cause =>
      rw [next] at h
      cases h
      exact error_of_child next
    | ok child =>
      rw [next, ok_bind] at h
      exact ih h

/-- The function as a whole, because unfolding it at its argument runs the digest. -/
theorem root_eq : @root = fun seed =>
    match Curve.SecretKey.ofBytes? ((Digest.hmacSha512 rootKey seed).take 32) with
    | some secret => .ok ⟨secret, (Digest.hmacSha512 rootKey seed).drop 32⟩
    | none => .error .invalidKey := rfl

theorem error_of_root {seed : Bytes} {e : Error} (h : root seed = .error e) : e = .invalidKey := by
  rw [root_eq] at h
  cases found : Curve.SecretKey.ofBytes? ((Digest.hmacSha512 rootKey seed).take 32) with
  | some secret =>
    simp only [found] at h
    cases h
  | none =>
    simp only [found] at h
    cases h
    rfl

/-- A way down from the root fails only where it leaves the range of secret keys. -/
theorem error_of_ofSeed {seed : Seed} {path : List UInt32} {e : Error}
    (h : ofSeed seed path = .error e) : e = .invalidKey := by
  unfold ofSeed at h
  cases start : root seed.bytes with
  | error cause =>
    rw [start] at h
    cases h
    exact error_of_root start
  | ok node =>
    rw [start, ok_bind] at h
    exact error_of_descend h

end Node

/-! ### Paths -/

theorem pathNumber_of_lt {level : Level} {index : UInt64} (h : index.toNat < indexBound) :
    pathNumber level index = .ok index.toUInt32 := if_pos h

theorem pathNumber_of_le {level : Level} {index : UInt64} (h : indexBound ≤ index.toNat) :
    pathNumber level index = .error (.indexOutOfRange level index) := if_neg (Nat.not_lt_of_le h)

namespace Wallet

/-- The numbers of a path that are chosen freely, in the order in which they are checked. -/
def chosen (w : Wallet) (position : Position) : List (Level × UInt64) :=
  [(.purpose, w.purpose.toUInt64), (.coinType, w.coinType.toUInt64),
    (.account, position.account), (.address, position.address)]

/-- The first of these numbers that is too large, if there is one. -/
def offender? (w : Wallet) (position : Position) : Option (Level × UInt64) :=
  (w.chosen position).find? fun number => indexBound ≤ number.2.toNat

variable {w : Wallet} {position : Position}

theorem path_of_offender {level : Level} {index : UInt64}
    (h : w.offender? position = some (level, index)) :
    w.path position = .error (.indexOutOfRange level index) := by
  simp only [offender?, chosen, List.find?_cons_eq_some, List.find?_nil, reduceCtorEq, and_false,
    or_false, decide_eq_true_eq, Bool.not_eq_true', decide_eq_false_iff_not, Nat.not_le] at h
  rw [path, Path.ofPosition]
  rcases h with ⟨large, same⟩ | ⟨purpose, ⟨large, same⟩ | ⟨coinType, ⟨large, same⟩ |
    ⟨account, large, same⟩⟩⟩
  · cases same
    rw [pathNumber_of_le large]
    rfl
  · cases same
    rw [pathNumber_of_lt purpose, ok_bind, pathNumber_of_le large]
    rfl
  · cases same
    rw [pathNumber_of_lt purpose, ok_bind, pathNumber_of_lt coinType, ok_bind,
      pathNumber_of_le large]
    rfl
  · cases same
    rw [pathNumber_of_lt purpose, ok_bind, pathNumber_of_lt coinType, ok_bind,
      pathNumber_of_lt account, ok_bind, pathNumber_of_le large]
    rfl

theorem chosen_lt (h : w.offender? position = none) :
    w.purpose.toUInt64.toNat < indexBound ∧ w.coinType.toUInt64.toNat < indexBound ∧
      position.account.toNat < indexBound ∧ position.address.toNat < indexBound := by
  have inRange := List.find?_eq_none.1 h
  simp only [chosen, List.forall_mem_cons, decide_eq_true_eq, Nat.not_le] at inRange
  obtain ⟨purpose, coinType, account, address, -⟩ := inRange
  exact ⟨purpose, coinType, account, address⟩

theorem exists_path (h : w.offender? position = none) : ∃ path, w.path position = .ok path := by
  obtain ⟨purpose, coinType, account, address⟩ := chosen_lt h
  rw [path, Path.ofPosition, pathNumber_of_lt purpose, pathNumber_of_lt coinType,
    pathNumber_of_lt account, pathNumber_of_lt address]
  exact ⟨_, rfl⟩

/-! ### Keys -/

theorem deriveAfresh_of_offender {level : Level} {index : UInt64}
    (h : w.offender? position = some (level, index)) (seed : Seed) :
    w.deriveAfresh seed position = .error (.indexOutOfRange level index) :=
  deriveAfresh_of_path_error (path_of_offender h) seed

theorem position_of_deriveAfresh {seed : Seed} {key : Key}
    (h : w.deriveAfresh seed position = .ok key) : key.position = position := by
  unfold deriveAfresh at h
  obtain ⟨path, -, h⟩ := exists_of_bind_eq_ok h
  obtain ⟨node, -, h⟩ := exists_of_bind_eq_ok h
  obtain ⟨address, -, h⟩ := exists_of_bind_eq_ok h
  cases h
  rfl

/-- A key stands at a position that is in range. -/
theorem inRange_of_deriveAfresh {seed : Seed} {key : Key}
    (h : w.deriveAfresh seed position = .ok key) :
    key.position.account.toNat < indexBound ∧ key.position.address.toNat < indexBound := by
  rw [position_of_deriveAfresh h]
  cases found : w.offender? position with
  | none => exact (chosen_lt found).2.2
  | some number =>
    rw [deriveAfresh_of_offender found seed] at h
    cases h

/-- With all numbers in range there is a key, or the digests give none. -/
theorem deriveAfresh_of_inRange (h : w.offender? position = none)
    (hrp : Address.Bech32.IsHrp (Bytes.ofString w.encoder.hrp)) (seed : Seed) :
    (∃ key, w.deriveAfresh seed position = .ok key) ∨
      w.deriveAfresh seed position = .error .invalidKey := by
  obtain ⟨path, reached⟩ := exists_path h
  unfold deriveAfresh
  rw [reached, ok_bind]
  cases found : Node.ofSeed seed path.toList with
  | error e =>
    cases Node.error_of_ofSeed found
    exact .inr rfl
  | ok node =>
    obtain ⟨address, written⟩ := Address.Encoder.exists_encodePublicKey hrp node.secret.publicKey
    rw [ok_bind]
    dsimp only
    rw [written]
    exact .inl ⟨_, rfl⟩

/-- The wallet has keys, as far as its own numbers and its addresses are concerned. -/
structure Usable (w : Wallet) : Prop where
  purpose : w.purpose.toNat < indexBound
  coinType : w.coinType.toNat < indexBound
  hrp : Address.Bech32.IsHrp (Bytes.ofString w.encoder.hrp)

theorem main_usable : main.Usable := ⟨by decide, by decide, Address.isHrp_mainHrp⟩

end Wallet

end KeySearch.Derivation
