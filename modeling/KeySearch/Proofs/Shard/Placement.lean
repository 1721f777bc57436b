import KeySearch.Shard.Mask
import Mathlib.Algebra.GroupWithZero.Nat
import Mathlib.Data.List.Induction
import Mathlib.Data.Nat.Log

/-! Where the usual assigner places a key, as arithmetic. Let `v` be the number that the whole
public key denotes and `n` the logarithm to base two of the count of shards, rounded up. The bits
under the masks are the remainders of `v` by powers of two, because the bytes that are read hold all
of these bits (`clog_le_reach`). So the projected shard is `v % 2 ^ n`, and the actual one is
`place`: the same where there is such a shard, and `v % 2 ^ (n - 1)` where there is not. -/

namespace KeySearch

namespace Bytes

theorem capacity_eq (width : Nat) : capacity width = 256 ^ width := by
  induction width with
  | zero => rfl
  | succ width ih => rw [capacity, ih, Nat.pow_succ, Nat.mul_comm]

theorem toNat_append (front rest : Bytes) :
    toNat (front ++ rest) = 256 ^ rest.length * toNat front + toNat rest := by
  induction rest using List.reverseRecOn with
  | nil => simp
  | append_singleton rest b ih =>
    rw [← List.append_assoc, toNat_append_singleton, ih, toNat_append_singleton,
      List.length_append, List.length_singleton, Nat.pow_succ, Nat.mul_comm _ 256, Nat.mul_assoc]
    omega

/-- The last bytes denote a remainder. -/
theorem toNat_drop (bs : Bytes) (count : Nat) :
    toNat (bs.drop (bs.length - count)) = toNat bs % 256 ^ count := by
  rcases Nat.le_total bs.length count with le | le
  · have small := toNat_lt bs
    have := Nat.pow_le_pow_right (n := 256) (by decide) le
    rw [capacity_eq] at small
    rw [Nat.sub_eq_zero_of_le le, List.drop_zero, Nat.mod_eq_of_lt (by omega)]
  · have small := toNat_lt (bs.drop (bs.length - count))
    have split := toNat_append (bs.take (bs.length - count)) (bs.drop (bs.length - count))
    rw [capacity_eq, List.length_drop, Nat.sub_sub_self le] at small
    rw [List.take_append_drop, List.length_drop, Nat.sub_sub_self le] at split
    rw [split, Nat.mul_add_mod, Nat.mod_eq_of_lt small]

end Bytes

namespace Shard.Mask

/-! ### Masks -/

/-- The bits that are kept are just enough to tell the shards apart. -/
theorem width_eq_clog (numShards : UInt32) : width numShards = Nat.clog 2 numShards.toNat := by
  unfold width
  split
  · rename_i few
    exact (Nat.clog_of_right_le_one (UInt32.le_iff_toNat_le.1 few) 2).symm
  · rename_i many
    have many : 1 < numShards.toNat :=
      Nat.lt_of_not_le fun few => many (UInt32.le_iff_toNat_le.2 few)
    have pred : (numShards - 1).toNat = numShards.toNat - 1 :=
      UInt32.toNat_sub_of_le _ _ (UInt32.le_iff_toNat_le.2 many.le)
    rw [pred]
    apply Nat.le_antisymm
    · rw [Nat.succ_le_iff, Nat.lt_clog_iff_pow_lt Nat.one_lt_two]
      have := Nat.log2_self_le (n := numShards.toNat - 1) (by omega)
      omega
    · apply Nat.clog_le_of_le_pow
      have := Nat.lt_log2_self (n := numShards.toNat - 1)
      omega

theorem toNat_lowBits {bits : Nat} (le : bits ≤ 32) : (lowBits bits).toNat = 2 ^ bits - 1 := by
  have := Nat.pow_le_pow_right (n := 2) (by decide) le
  rw [lowBits, UInt32.toNat_ofNat', Nat.one_shiftLeft, Nat.mod_eq_of_lt (by omega)]

/-- A mask of low bits leaves a remainder. -/
theorem toNat_and_lowBits (value : UInt32) {bits : Nat} (le : bits ≤ 32) :
    (value &&& lowBits bits).toNat = value.toNat % 2 ^ bits := by
  rw [UInt32.toNat_and, toNat_lowBits le, Nat.and_two_pow_sub_one_eq_mod]

/-! ### The end of a key -/

/-- One more byte is read. -/
theorem toNat_shift_or (value : UInt32) (b : UInt8) :
    ((value <<< 8) ||| b.toUInt32).toNat = (256 * value.toNat + b.toNat) % 2 ^ 32 := by
  have byte : b.toNat < 2 ^ 8 := b.toNat_lt
  have shifted : (value <<< 8).toNat = (value.toNat % 2 ^ 24) <<< 8 := by
    rw [UInt32.toNat_shiftLeft]
    change value.toNat <<< 8 % 2 ^ 32 = _
    omega
  rw [UInt32.toNat_or, shifted, UInt8.toNat_toUInt32, ← Nat.shiftLeft_add_eq_or_of_lt byte,
    Nat.shiftLeft_eq]
  omega

/-- Bytes that do not fit into a word any more fall out at its upper end. -/
theorem toNat_foldl (bs : Bytes) :
    (bs.foldl (fun (value : UInt32) b => (value <<< 8) ||| b.toUInt32) 0).toNat =
      Bytes.toNat bs % 2 ^ 32 := by
  induction bs using List.reverseRecOn with
  | nil => rfl
  | append_singleton bs b ih =>
    rw [List.foldl_append, List.foldl_cons, List.foldl_nil, toNat_shift_or, ih,
      Bytes.toNat_append_singleton]
    omega

/-- The bytes that are read hold all bits that are kept. -/
theorem clog_le_reach (numShards : UInt32) : Nat.clog 2 numShards.toNat ≤ 8 * reach numShards := by
  have small := numShards.toNat_lt
  have bytes : reach numShards = 1 ∧ numShards.toNat ≤ 2 ^ 8 ∨
      reach numShards = 2 ∧ numShards.toNat ≤ 2 ^ 16 ∨
      reach numShards = 3 ∧ numShards.toNat ≤ 2 ^ 24 ∨
      reach numShards = 4 ∧ numShards.toNat ≤ 2 ^ 32 := by
    unfold reach
    omega
  apply Nat.clog_le_of_le_pow
  rcases bytes with ⟨bytes, le⟩ | ⟨bytes, le⟩ | ⟨bytes, le⟩ | ⟨bytes, le⟩ <;> rwa [bytes]

theorem clog_le (numShards : UInt32) : Nat.clog 2 numShards.toNat ≤ 32 :=
  Nat.clog_le_of_le_pow numShards.toNat_lt.le

theorem toNat_trailing (publicKey : Bytes) (numShards : UInt32) :
    (trailing publicKey numShards).toNat = Bytes.toNat publicKey % 256 ^ reach numShards := by
  have le : (256 : Nat) ^ reach numShards ≤ 256 ^ 4 :=
    Nat.pow_le_pow_right (by decide) (Nat.min_le_right _ _)
  have lt : Bytes.toNat publicKey % 256 ^ reach numShards < 256 ^ reach numShards :=
    Nat.mod_lt _ (Nat.pow_pos (by decide))
  rw [trailing, toNat_foldl, Bytes.toNat_drop, Nat.mod_eq_of_lt (by omega)]

/-- What lies beyond the bytes that are read does not matter to the bits that are kept. -/
theorem two_pow_dvd_reach {numShards : UInt32} {bits : Nat}
    (le : bits ≤ Nat.clog 2 numShards.toNat) : 2 ^ bits ∣ 256 ^ reach numShards := by
  rw [show 256 = 2 ^ 8 by rfl, ← Nat.pow_mul]
  exact Nat.pow_dvd_pow 2 (le.trans (clog_le_reach numShards))

theorem toNat_trailing_and (publicKey : Bytes) {numShards : UInt32} {bits : Nat}
    (le : bits ≤ Nat.clog 2 numShards.toNat) :
    (trailing publicKey numShards &&& lowBits bits).toNat = Bytes.toNat publicKey % 2 ^ bits := by
  rw [toNat_and_lowBits _ (le.trans (clog_le numShards)), toNat_trailing,
    Nat.mod_mod_of_dvd _ (two_pow_dvd_reach le)]

/-! ### Shards -/

/-- The shard of a number among so many: as many of its lowest bits as can tell the shards apart, or
one bit fewer where there is no such shard. -/
def place (numShards number : Nat) : Nat :=
  if number % 2 ^ Nat.clog 2 numShards < numShards then number % 2 ^ Nat.clog 2 numShards
  else number % 2 ^ (Nat.clog 2 numShards - 1)

theorem place_lt {numShards : Nat} (pos : 0 < numShards) (number : Nat) :
    place numShards number < numShards := by
  unfold place
  split
  · assumption
  · rename_i beyond
    have many : 1 < numShards := by
      refine Nat.lt_of_le_of_ne pos fun one => beyond ?_
      rw [← one, Nat.clog_one_right, Nat.pow_zero, Nat.mod_one]
      exact Nat.one_pos
    have half := Nat.pow_pred_clog_lt_self Nat.one_lt_two many
    exact (Nat.mod_lt _ (Nat.two_pow_pos _)).trans half

/-- A remainder that keeps enough bits and is a shard is the shard of the number. -/
theorem place_eq_mod {numShards number bits : Nat} (enough : Nat.clog 2 numShards ≤ bits)
    (lt : number % 2 ^ bits < numShards) : place numShards number = number % 2 ^ bits := by
  have same : number % 2 ^ Nat.clog 2 numShards = number % 2 ^ bits := by
    rw [← Nat.mod_mod_of_dvd number (Nat.pow_dvd_pow 2 enough)]
    exact Nat.mod_eq_of_lt (lt.trans_le (Nat.le_pow_clog Nat.one_lt_two _))
  rw [place, same, if_pos lt]

theorem place_of_le {numShards number : Nat}
    (beyond : numShards ≤ number % 2 ^ Nat.clog 2 numShards) :
    place numShards number = number % 2 ^ (Nat.clog 2 numShards - 1) := by
  rw [place, if_neg (Nat.not_lt_of_le beyond)]

theorem toNat_projectedOf (publicKey : Bytes) (numShards : UInt32) :
    (projectedOf publicKey numShards).toNat =
      Bytes.toNat publicKey % 2 ^ Nat.clog 2 numShards.toNat := by
  rw [projectedOf, high, width_eq_clog, toNat_trailing_and publicKey (Nat.le_refl _)]

theorem toNat_shardOf (publicKey : Bytes) (numShards : UInt32) :
    (shardOf publicKey numShards).toNat = place numShards.toNat (Bytes.toNat publicKey) := by
  have projected := toNat_projectedOf publicKey numShards
  unfold projectedOf at projected
  simp only [shardOf, place, UInt32.lt_iff_toNat_lt, projected]
  split
  · exact projected
  · rw [low, width_eq_clog, toNat_trailing_and publicKey (Nat.sub_le _ _)]

theorem shardOf_lt (publicKey : Bytes) {numShards : UInt32} (pos : 0 < numShards) :
    shardOf publicKey numShards < numShards := by
  rw [UInt32.lt_iff_toNat_lt, toNat_shardOf]
  exact place_lt (UInt32.lt_iff_toNat_lt.1 pos) _

/-- The actual and the projected shard differ only where the latter does not exist yet. -/
theorem shardOf_eq_projectedOf_iff (publicKey : Bytes) {numShards : UInt32} (pos : 0 < numShards) :
    shardOf publicKey numShards = projectedOf publicKey numShards ↔
      projectedOf publicKey numShards < numShards := by
  constructor
  · intro same
    rw [← same]
    exact shardOf_lt publicKey pos
  · intro exists'
    rw [UInt32.lt_iff_toNat_lt, toNat_projectedOf] at exists'
    rw [← UInt32.toNat_inj, toNat_shardOf, toNat_projectedOf, place_eq_mod (Nat.le_refl _) exists']

/-- The projected shard is the actual one as soon as there is a shard for each pattern of the bits.
-/
theorem projectedOf_eq_shardOf (publicKey : Bytes) {numShards full : UInt32}
    (h : full.toNat = 2 ^ Nat.clog 2 numShards.toNat) :
    projectedOf publicKey numShards = shardOf publicKey full := by
  rw [← UInt32.toNat_inj, toNat_shardOf, toNat_projectedOf, h,
    place_eq_mod (Nat.clog_pow 2 _ Nat.one_lt_two).le (Nat.mod_lt _ (Nat.two_pow_pos _))]

/-- Every shard is that of some key. -/
theorem exists_shardOf_eq {shard numShards : UInt32} (lt : shard < numShards) :
    ∃ publicKey, shardOf publicKey numShards = shard := by
  have lt := UInt32.lt_iff_toNat_lt.1 lt
  have bits : shard.toNat % 2 ^ Nat.clog 2 numShards.toNat = shard.toNat :=
    Nat.mod_eq_of_lt (lt.trans_le (Nat.le_pow_clog Nat.one_lt_two _))
  refine ⟨Bytes.ofNat 4 shard.toNat, ?_⟩
  rw [← UInt32.toNat_inj, toNat_shardOf, Bytes.toNat_ofNat_of_lt shard.toNat_lt,
    place_eq_mod (Nat.le_refl _) (bits.symm ▸ lt), bits]

/-- With the number of the whole public key, however long, the shards are remainders by powers of
two. The last bytes of the key leave the same ones, all shards exist and are in use, and the
projected shard is what the actual one will be at the next power of two. -/
theorem shards_are_remainders_of_whole_key (publicKey : Bytes) {numShards : UInt32}
    (pos : 0 < numShards) :
    ∀ v n, v = Bytes.toNat publicKey → n = Nat.clog 2 numShards.toNat →
      (projectedOf publicKey numShards).toNat = v % 2 ^ n ∧
      (shardOf publicKey numShards).toNat =
        (if v % 2 ^ n < numShards.toNat then v % 2 ^ n else v % 2 ^ (n - 1)) ∧
      (∀ bits ≤ n, Bytes.toNat
          (publicKey.drop (publicKey.length - min (numShards.toNat / 256 + 1) 4)) % 2 ^ bits =
        v % 2 ^ bits) ∧
      shardOf publicKey numShards < numShards ∧
      (shardOf publicKey numShards = projectedOf publicKey numShards ↔
        projectedOf publicKey numShards < numShards) ∧
      (numShards.toNat ≤ 2 ^ 31 → ∃ full : UInt32, full.toNat = 2 ^ n ∧
        projectedOf publicKey numShards = shardOf publicKey full) ∧
      ∀ shard < numShards, ∃ publicKey, shardOf publicKey numShards = shard := by
  rintro v n rfl rfl
  refine ⟨toNat_projectedOf publicKey numShards, toNat_shardOf publicKey numShards,
    fun bits le => ?_, shardOf_lt publicKey pos, shardOf_eq_projectedOf_iff publicKey pos,
    fun few => ?_, fun shard lt => exists_shardOf_eq lt⟩
  · rw [Bytes.toNat_drop]
    exact Nat.mod_mod_of_dvd _ (two_pow_dvd_reach le)
  · have fits : 2 ^ Nat.clog 2 numShards.toNat ≤ 2 ^ 31 :=
      Nat.pow_le_pow_right (by decide) (Nat.clog_le_of_le_pow few)
    have full : (UInt32.ofNat (2 ^ Nat.clog 2 numShards.toNat)).toNat =
        2 ^ Nat.clog 2 numShards.toNat := by
      rw [UInt32.toNat_ofNat', Nat.mod_eq_of_lt (by omega)]
    exact ⟨_, full, projectedOf_eq_shardOf publicKey full⟩

/-- Among 300 shards the nine lowest bits of this key are 510, so that the eight lowest ones count.
-/
theorem shards_are_remainders_of_whole_key_threeHundred :
    (0 : UInt32) < 300 ∧ (projectedOf [0xab, 0xcd, 0x01, 0xff, 0xfe] 300).toNat = 510 ∧
      (shardOf [0xab, 0xcd, 0x01, 0xff, 0xfe] 300).toNat = 254 ∧
      Bytes.toNat [0xff, 0xfe] % 2 ^ 9 = 510 := by
  have pos : (0 : UInt32) < 300 := by decide
  obtain ⟨projected, actual, read, -⟩ :=
    shards_are_remainders_of_whole_key [0xab, 0xcd, 0x01, 0xff, 0xfe] pos _ 9 rfl (by decide)
  exact ⟨pos, projected, actual, read 9 (Nat.le_refl 9)⟩

end Shard.Mask

end KeySearch
