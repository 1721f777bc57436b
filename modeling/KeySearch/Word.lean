/-! Arithmetic on 64-bit words that does not wrap: sums and products that are refused when they
pass the largest word, and the product that stays at the largest word instead. Each is pinned to
the arithmetic of natural numbers by one law. -/

namespace KeySearch.Word

/-- The sum, unless it exceeds the largest word. -/
def add? (a b : UInt64) : Option UInt64 :=
  if a.toNat + b.toNat < UInt64.size then some (a + b) else none

/-- The product, unless it exceeds the largest word. -/
def mul? (a b : UInt64) : Option UInt64 :=
  if a.toNat * b.toNat < UInt64.size then some (a * b) else none

/-- The product, or the largest word where the product exceeds it. -/
def mulCapped (a b : UInt64) : UInt64 :=
  (mul? a b).getD (UInt64.ofNat (UInt64.size - 1))

/-- The difference, or zero where the subtrahend is larger. -/
def subFloored (a b : UInt64) : UInt64 :=
  if b ≤ a then a - b else 0

theorem add?_eq_some_iff {a b c : UInt64} : add? a b = some c ↔ c.toNat = a.toNat + b.toNat := by
  have hc := c.toNat_lt
  unfold add?
  split <;> rename_i h
  · rw [Option.some.injEq, ← UInt64.toNat_inj, UInt64.toNat_add, Nat.mod_eq_of_lt h]
    exact eq_comm
  · simp only [reduceCtorEq, false_iff]
    simp only [UInt64.size] at h
    omega

theorem mul?_eq_some_iff {a b c : UInt64} : mul? a b = some c ↔ c.toNat = a.toNat * b.toNat := by
  have hc := c.toNat_lt
  unfold mul?
  split <;> rename_i h
  · rw [Option.some.injEq, ← UInt64.toNat_inj, UInt64.toNat_mul, Nat.mod_eq_of_lt h]
    exact eq_comm
  · simp only [reduceCtorEq, false_iff]
    simp only [UInt64.size] at h
    omega

theorem toNat_mulCapped (a b : UInt64) :
    (mulCapped a b).toNat = min (a.toNat * b.toNat) (UInt64.size - 1) := by
  unfold mulCapped mul?
  split <;> rename_i h
  · simp only [Option.getD_some, UInt64.toNat_mul]
    rw [Nat.mod_eq_of_lt h]
    omega
  · simp only [UInt64.size] at h
    simp only [Option.getD_none, UInt64.size]
    rw [Nat.min_eq_right (by omega)]
    rfl

theorem toNat_subFloored (a b : UInt64) : (subFloored a b).toNat = a.toNat - b.toNat := by
  unfold subFloored
  split <;> rename_i h
  · exact UInt64.toNat_sub_of_le _ _ h
  · rw [UInt64.le_iff_toNat_le] at h
    simp only [UInt64.toNat_zero]
    omega

end KeySearch.Word
