import KeySearch.Proofs.Shard.Placement

/-! What becomes of a key when shards are added. The bits that are kept grow in number at most, and
the fallback to one bit fewer puts a key just where it lay before there were shards for the longer
pattern. So a key stays where it is or goes to a shard that did not exist before (`place_of_grown`),
and one more shard takes keys from a single old one, that whose bits it prolongs. -/

namespace KeySearch.Shard.Mask

/-- A shard among many that is one among fewer is the shard of the number there, too. -/
theorem place_of_grown {few many number : Nat} (le : few ≤ many)
    (old : place many number < few) : place few number = place many number := by
  have narrower : Nat.clog 2 few ≤ Nat.clog 2 many := Nat.clog_mono_right 2 le
  rcases Nat.lt_or_ge (number % 2 ^ Nat.clog 2 many) many with within | beyond
  · rw [place_eq_mod (Nat.le_refl _) within] at old ⊢
    exact place_eq_mod narrower old
  · rw [place_of_le beyond] at old ⊢
    rcases Nat.lt_or_eq_of_le narrower with fewer | same
    · exact place_eq_mod (Nat.le_sub_one_of_lt fewer) old
    -- With as many bits as before, the pattern that has no shard now had none before.
    · rw [← same] at beyond ⊢
      exact place_of_le (le.trans beyond)

/-- Of a number that goes to the shard just added, all bits but the highest were its shard. -/
theorem place_of_added {few number bits : Nat} (kept : Nat.clog 2 (few + 1) = bits + 1)
    (added : place (few + 1) number = few) : place few number + 2 ^ bits = few := by
  have half : 2 ^ bits < few + 1 := Nat.pow_lt_of_lt_clog (kept ▸ Nat.lt_add_one bits)
  have whole : few + 1 ≤ 2 ^ bits * 2 := by
    rw [← Nat.pow_add_one, ← kept]
    exact Nat.le_pow_clog Nat.one_lt_two (few + 1)
  have all : number % 2 ^ (bits + 1) = few := by
    rw [← kept]
    rcases Nat.lt_or_ge (number % 2 ^ Nat.clog 2 (few + 1)) (few + 1) with within | beyond
    · rwa [place_eq_mod (Nat.le_refl _) within] at added
    · rw [place_of_le beyond, kept, Nat.add_sub_cancel] at added
      have := Nat.mod_lt number (Nat.two_pow_pos bits)
      omega
  have rest : number % 2 ^ bits + 2 ^ bits = few := by
    rw [← Nat.mod_mod_of_dvd number (Nat.pow_dvd_pow 2 (Nat.le_succ bits)), all,
      Nat.mod_eq_sub_mod (Nat.le_of_lt_succ half), Nat.mod_eq_of_lt (by omega)]
    omega
  have narrower : Nat.clog 2 few ≤ bits + 1 := kept ▸ Nat.clog_mono_right 2 (Nat.le_succ few)
  rcases Nat.lt_or_eq_of_le narrower with fewer | same
  · have := Nat.two_pow_pos bits
    rw [place_eq_mod (Nat.le_of_lt_succ fewer) (by omega), rest]
  · rw [place_of_le (by rw [same, all]), same, Nat.add_sub_cancel, rest]

/-- As shards are added, a key that moves goes to one of the new shards. With a single new shard,
the keys that move come from a single old one and all go there. -/
theorem keys_move_into_new_shards_only (publicKey : Bytes) {few many : UInt32} (pos : 0 < few)
    (le : few ≤ many) :
    (shardOf publicKey many < few → shardOf publicKey many = shardOf publicKey few) ∧
    (shardOf publicKey many ≠ shardOf publicKey few →
      few ≤ shardOf publicKey many ∧ shardOf publicKey many < many) ∧
    (many.toNat = few.toNat + 1 → shardOf publicKey many ≠ shardOf publicKey few →
      (shardOf publicKey few).toNat + 2 ^ (Nat.clog 2 many.toNat - 1) = few.toNat ∧
        shardOf publicKey many = few) := by
  have stays (old : shardOf publicKey many < few) :
      shardOf publicKey many = shardOf publicKey few := by
    rw [UInt32.lt_iff_toNat_lt, toNat_shardOf] at old
    rw [← UInt32.toNat_inj, toNat_shardOf, toNat_shardOf]
    exact (place_of_grown (UInt32.le_iff_toNat_le.1 le) old).symm
  have lands (moved : shardOf publicKey many ≠ shardOf publicKey few) :
      few ≤ shardOf publicKey many ∧ shardOf publicKey many < many :=
    ⟨UInt32.not_lt.1 fun old => moved (stays old),
      shardOf_lt publicKey (UInt32.lt_of_lt_of_le pos le)⟩
  refine ⟨stays, lands, fun one moved => ?_⟩
  obtain ⟨low, high⟩ := lands moved
  have there : shardOf publicKey many = few := by
    rw [UInt32.le_iff_toNat_le] at low
    rw [UInt32.lt_iff_toNat_lt] at high
    rw [← UInt32.toNat_inj]
    omega
  have several : 1 < few.toNat + 1 := Nat.lt_add_of_pos_left (UInt32.lt_iff_toNat_lt.1 pos)
  refine ⟨?_, there⟩
  rw [toNat_shardOf, one]
  apply place_of_added (Nat.sub_add_cancel (Nat.clog_pos Nat.one_lt_two several)).symm
  rw [← one, ← toNat_shardOf, there]

/-- The sixth shard takes this key from shard one, as its bits are those of five. -/
theorem keys_move_into_new_shards_only_sixth :
    (0 : UInt32) < 5 ∧ (5 : UInt32) ≤ 6 ∧ shardOf [0x07, 0x25] 6 = 5 ∧
      (shardOf [0x07, 0x25] 5).toNat + 2 ^ 2 = 5 := by
  have pos : (0 : UInt32) < 5 := by decide
  have le : (5 : UInt32) ≤ 6 := by decide
  obtain ⟨-, -, added⟩ := keys_move_into_new_shards_only [0x07, 0x25] pos le
  obtain ⟨from', there⟩ := added rfl (by decide)
  exact ⟨pos, le, there, from'⟩

end KeySearch.Shard.Mask
