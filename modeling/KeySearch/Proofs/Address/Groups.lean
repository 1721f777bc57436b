import KeySearch.Address.Bech32
import Mathlib.Algebra.GroupWithZero.Nat
import Mathlib.Data.List.Induction

/-! Bytes as values of five bits and back. A number of so many bits and the list of its bits, the
most significant first, are the same thing (`ofBits_binary`, `binary_ofBits`), whatever their count.
So cutting a list of bits into fives or eights loses nothing, and where the fives come out even they
carry no filling. -/

namespace KeySearch.Address.Bech32

/-! ### Numbers as lists of bits -/

/-- The lowest bits of a number, the most significant first. -/
def binary (width n : Nat) : List Bool := (List.range width).map fun i => n.testBit (width - 1 - i)

@[simp] theorem length_binary (width n : Nat) : (binary width n).length = width := by
  simp [binary]

theorem binary_succ (width n : Nat) :
    binary (width + 1) n = binary width (n / 2) ++ [n.testBit 0] := by
  rw [binary, List.range_succ, List.map_append, binary]
  congr 1
  · refine List.map_congr_left fun i mem => ?_
    rw [Nat.testBit_div_two, show width + 1 - 1 - i = width - 1 - i + 1 by
      have := List.mem_range.1 mem
      omega]
  · simp

theorem ofBits_concat (bs : List Bool) (b : Bool) :
    ofBits (bs ++ [b]) = 2 * ofBits bs + b.toNat := by
  rw [ofBits, List.foldl_append]
  rfl

theorem ofBits_binary (width n : Nat) : ofBits (binary width n) = n % 2 ^ width := by
  induction width generalizing n with
  | zero => simp [binary, ofBits, Nat.mod_one]
  | succ width ih =>
    rw [binary_succ, ofBits_concat, ih, Nat.pow_succ', Nat.mod_mul, Nat.testBit_zero]
    rcases Nat.mod_two_eq_zero_or_one n with even | odd
    · simp [even]
    · simp [odd]
      omega

theorem binary_ofBits (bs : List Bool) : binary bs.length (ofBits bs) = bs := by
  induction bs using List.reverseRecOn with
  | nil => rfl
  | append_singleton bs b ih =>
    have half : (2 * ofBits bs + b.toNat) / 2 = ofBits bs := by
      have := b.toNat_lt
      omega
    have last : (2 * ofBits bs + b.toNat).testBit 0 = b := by
      rw [Nat.testBit_zero]
      cases b <;> simp
    rw [List.length_append, List.length_singleton, binary_succ, ofBits_concat, half, last, ih]

theorem ofBits_lt (bs : List Bool) : ofBits bs < 2 ^ bs.length := by
  have round := ofBits_binary bs.length (ofBits bs)
  rw [binary_ofBits] at round
  rw [round]
  exact Nat.mod_lt _ (Nat.two_pow_pos _)

/-! ### Bytes -/

theorem bits_cons (b : UInt8) (bs : Bytes) : bits (b :: bs) = binary 8 b.toNat ++ bits bs := rfl

theorem length_bits (bs : Bytes) : (bits bs).length = 8 * bs.length := by
  induction bs with
  | nil => rfl
  | cons b bs ih =>
    rw [bits_cons, List.length_append, length_binary, ih, List.length_cons]
    omega

/-- Bits of whole bytes give these bytes, and none is left. -/
theorem bytesOfBits_bits (bs : Bytes) : bytesOfBits (bits bs) = (bs, []) := by
  induction bs with
  | nil => rfl
  | cons b bs ih =>
    have byte : UInt8.ofNat (ofBits (binary 8 b.toNat)) = b := by
      rw [ofBits_binary, Nat.mod_eq_of_lt b.toNat_lt, UInt8.ofNat_toNat]
    have step (rest : List Bool) : bytesOfBits (binary 8 b.toNat ++ rest) =
        (UInt8.ofNat (ofBits (binary 8 b.toNat)) :: (bytesOfBits rest).1,
          (bytesOfBits rest).2) := rfl
    rw [bits_cons, step, ih, byte]

/-! ### Values of five bits -/

theorem ungroup_cons (q : Quint) (qs : List Quint) :
    ungroup (q :: qs) = binary 5 q.val ++ ungroup qs := rfl

theorem length_ungroup (qs : List Quint) : (ungroup qs).length = 5 * qs.length := by
  induction qs with
  | nil => rfl
  | cons q qs ih =>
    rw [ungroup_cons, List.length_append, length_binary, ih, List.length_cons]
    omega

/-- The bits of fives that come out even. -/
theorem ungroup_groups {bs : List Bool} (even : 5 ∣ bs.length) : ungroup (groups bs) = bs := by
  fun_induction groups bs with
  | case1 a b c d e rest ih =>
    have five : (Fin.ofNat 32 (ofBits [a, b, c, d, e])).val = ofBits [a, b, c, d, e] :=
      Nat.mod_eq_of_lt (ofBits_lt [a, b, c, d, e])
    have bits : binary 5 (ofBits [a, b, c, d, e]) = [a, b, c, d, e] :=
      binary_ofBits [a, b, c, d, e]
    simp only [List.length_cons] at even
    rw [ungroup_cons, five, bits, ih (by omega)]
    rfl
  | case2 => rfl
  | case3 last whole empty =>
    exfalso
    -- One to four bits do not come out even.
    rcases last with _ | ⟨a, _ | ⟨b, _ | ⟨c, _ | ⟨d, _ | ⟨e, rest⟩⟩⟩⟩⟩
    pick_goal 6
    · exact whole a b c d e rest rfl
    · exact empty rfl
    all_goals
      simp only [List.length_cons, List.length_nil] at even
      omega

theorem length_groups {bs : List Bool} (even : 5 ∣ bs.length) :
    5 * (groups bs).length = bs.length := by
  rw [← length_ungroup, ungroup_groups even]

end KeySearch.Address.Bech32
