import KeySearch.Address.Bech32
import Mathlib.Data.Nat.Bitwise

/-! Why the checksum of a written text comes out as one. The register behind it is linear over
exclusive or (`push_xor`): pushing values into the exclusive or of two registers is the exclusive or
of pushing zeros into the one and the values into the other. Six values pushed into an empty
register are just its digits to base 32 (`toNat_foldl_push`), as nothing leaves it yet. So with the
right six values at the end it holds whatever one likes, in place of what six zeros would have left
there. -/

namespace KeySearch.Address.Bech32

/-! ### Linearity -/

/-- What the bits of a number make of a word: it takes up the generators that they select. -/
def select (gs : List (UInt32 × Nat)) (top : Nat) (word : UInt32) : UInt32 :=
  (gs.filter fun g => top.testBit g.2).foldl (· ^^^ ·.1) word

theorem push_eq (register : UInt32) (value : Nat) :
    push register value = select generators.zipIdx (register >>> 25).toNat
      (((register &&& 0x1ffffff) <<< 5) ^^^ UInt32.ofNat value) := rfl

/-- One generator, if its bit is set. -/
def pick (top : Nat) (g : UInt32 × Nat) : UInt32 := if top.testBit g.2 then g.1 else 0

theorem select_cons (g : UInt32 × Nat) (gs : List (UInt32 × Nat)) (top : Nat) (word : UInt32) :
    select (g :: gs) top word = select gs top (word ^^^ pick top g) := by
  rw [select, List.filter_cons, pick]
  split
  · rfl
  · rw [UInt32.xor_zero]
    rfl

theorem pick_xor (a b : Nat) (g : UInt32 × Nat) : pick (a ^^^ b) g = pick a g ^^^ pick b g := by
  rw [pick, pick, pick, Nat.testBit_xor]
  cases a.testBit g.2 <;> cases b.testBit g.2 <;> simp

theorem select_xor (gs : List (UInt32 × Nat)) (a b : Nat) (x y : UInt32) :
    select gs (a ^^^ b) (x ^^^ y) = select gs a x ^^^ select gs b y := by
  induction gs generalizing x y with
  | nil => rfl
  | cons g gs ih =>
    have apart : x ^^^ y ^^^ (pick a g ^^^ pick b g) =
        x ^^^ pick a g ^^^ (y ^^^ pick b g) := by ac_rfl
    rw [select_cons, select_cons, select_cons, pick_xor, apart, ih]

theorem push_xor (a b : UInt32) (value : Nat) :
    push (a ^^^ b) value = push a 0 ^^^ push b value := by
  have kept : ((a ^^^ b) &&& 0x1ffffff) = (a &&& 0x1ffffff) ^^^ (b &&& 0x1ffffff) := by
    rw [← UInt32.toNat_inj]
    simp only [UInt32.toNat_and, UInt32.toNat_xor, Nat.and_xor_distrib_right]
  have empty : UInt32.ofNat 0 = 0 := rfl
  rw [push_eq, push_eq, push_eq, kept, UInt32.shiftLeft_xor, UInt32.shiftRight_xor,
    UInt32.toNat_xor, UInt32.xor_assoc, select_xor, empty, UInt32.xor_zero]

/-- Values pushed into an exclusive or. -/
theorem foldl_push_xor (values : List Nat) (a b : UInt32) :
    values.foldl push (a ^^^ b) =
      (List.replicate values.length 0).foldl push a ^^^ values.foldl push b := by
  induction values generalizing a b with
  | nil => rfl
  | cons value values ih =>
    rw [List.foldl_cons, push_xor, ih, List.length_cons, List.replicate_succ, List.foldl_cons,
      List.foldl_cons]

/-! ### Digits -/

theorem select_zero (gs : List (UInt32 × Nat)) (word : UInt32) : select gs 0 word = word := by
  induction gs with
  | nil => rfl
  | cons g gs ih =>
    have unset : pick 0 g = 0 := if_neg (by rw [Nat.zero_testBit]; decide)
    rw [select_cons, unset, UInt32.xor_zero, ih]

theorem select_lt {gs : List (UInt32 × Nat)} (small : ∀ g ∈ gs, g.1.toNat < 2 ^ 30) (top : Nat)
    {word : UInt32} (lt : word.toNat < 2 ^ 30) : (select gs top word).toNat < 2 ^ 30 := by
  induction gs generalizing word with
  | nil => exact lt
  | cons g gs ih =>
    obtain ⟨first, rest⟩ := List.forall_mem_cons.1 small
    have picked : (pick top g).toNat < 2 ^ 30 := by
      rw [pick]
      split
      · exact first
      · decide
    rw [select_cons]
    refine ih rest ?_
    rw [UInt32.toNat_xor]
    exact Nat.xor_lt_two_pow lt picked

/-- The lower bits of a register, moved up by one value. -/
theorem toNat_shifted (register : UInt32) :
    ((register &&& 0x1ffffff) <<< 5).toNat = 32 * (register.toNat % 2 ^ 25) := by
  have kept : (register &&& 0x1ffffff).toNat = register.toNat % 2 ^ 25 := by
    rw [UInt32.toNat_and]
    exact Nat.and_two_pow_sub_one_eq_mod register.toNat 25
  rw [UInt32.toNat_shiftLeft, kept]
  change (register.toNat % 2 ^ 25) <<< 5 % 2 ^ 32 = _
  rw [Nat.shiftLeft_eq]
  omega

/-- The register never has more than thirty bits. -/
theorem toNat_push_lt (register : UInt32) {value : Nat} (small : value < 32) :
    (push register value).toNat < 2 ^ 30 := by
  have word : (UInt32.ofNat value).toNat = value := UInt32.toNat_ofNat_of_lt' (by
    simp only [UInt32.size]
    omega)
  rw [push_eq]
  refine select_lt (by decide) _ ?_
  rw [UInt32.toNat_xor, toNat_shifted, word]
  exact Nat.xor_lt_two_pow (by omega) (by omega)

/-- Five bits below a number that leaves room for them. -/
theorem xor_eq_add (n : Nat) {value : Nat} (small : value < 32) :
    32 * n ^^^ value = 32 * n + value := by
  have high : (32 * n ^^^ value) / 2 ^ 5 = n := by
    rw [Nat.xor_div_two_pow, Nat.div_eq_of_lt small, Nat.xor_zero]
    omega
  have low : (32 * n ^^^ value) % 2 ^ 5 = value := by
    rw [Nat.xor_mod_two_pow, Nat.mul_mod_right, Nat.zero_xor, Nat.mod_eq_of_lt small]
  omega

/-- Nothing leaves a register whose upper bits are empty. -/
theorem toNat_push {register : UInt32} (few : register.toNat < 2 ^ 25) {value : Nat}
    (small : value < 32) : (push register value).toNat = 32 * register.toNat + value := by
  have top : (register >>> 25).toNat = 0 := by
    rw [UInt32.toNat_shiftRight]
    change register.toNat >>> 25 = 0
    rw [Nat.shiftRight_eq_div_pow, Nat.div_eq_of_lt few]
  have word : (UInt32.ofNat value).toNat = value := UInt32.toNat_ofNat_of_lt' (by
    simp only [UInt32.size]
    omega)
  rw [push_eq, top, select_zero, UInt32.toNat_xor, toNat_shifted, word, Nat.mod_eq_of_lt few,
    xor_eq_add _ small]

/-- Values that still fit below what the register holds are its further digits to base 32. -/
theorem toNat_foldl_push (values : List Quint) {register : UInt32}
    (room : (register.toNat + 1) * 32 ^ values.length ≤ 2 ^ 30) :
    ((values.map (·.val)).foldl push register).toNat =
      values.foldl (fun n value => 32 * n + value.val) register.toNat := by
  induction values generalizing register with
  | nil => rfl
  | cons value values ih =>
    rw [List.length_cons, Nat.pow_succ, Nat.mul_comm _ 32, ← Nat.mul_assoc] at room
    have few : register.toNat < 2 ^ 25 := by
      have := (Nat.le_mul_of_pos_right _ (Nat.pow_pos (n := values.length) (by decide))).trans room
      omega
    have pushed := toNat_push few value.isLt
    have left : ((push register value.val).toNat + 1) * 32 ^ values.length ≤ 2 ^ 30 := by
      refine Nat.le_trans (Nat.mul_le_mul_right _ ?_) room
      have := value.isLt
      omega
    rw [List.map_cons, List.foldl_cons, List.foldl_cons, ih left, pushed]

/-! ### The checksum of a text -/

/-- The digits of a number of thirty bits, the most significant first. -/
theorem foldl_digits {n : Nat} (lt : n < 2 ^ 30) :
    (((List.range 6).map fun i => (Fin.ofNat 32 (n >>> (5 * (5 - i))) : Quint)).foldl
      (fun m (value : Quint) => 32 * m + value.val) 0) = n := by
  simp only [List.range_succ, List.range_zero, List.nil_append, List.cons_append, List.map_cons,
    List.map_nil, List.foldl_cons, List.foldl_nil, Fin.ofNat, Nat.shiftRight_eq_div_pow]
  omega

@[simp] theorem length_checksum (hrp : List Char) (data : List Quint) :
    (checksum hrp data).length = 6 := by
  rw [checksum, List.length_map, List.length_range]

theorem polymod_append (values more : List Nat) :
    polymod (values ++ more) = more.foldl push (polymod values) := List.foldl_append

/-- Behind the values and their checksum the register holds one. -/
theorem polymod_checksum (hrp : List Char) (data : List Quint) :
    polymod (expand hrp ++ (data ++ checksum hrp data).map (·.val)) = 1 := by
  let register := polymod (expand hrp ++ data.map (·.val))
  let zeros := (List.replicate 6 0).foldl push register
  have small : (zeros ^^^ 1).toNat < 2 ^ 30 := by
    rw [UInt32.toNat_xor]
    exact Nat.xor_lt_two_pow (toNat_push_lt _ (by decide)) (by decide)
  have appended : zeros = polymod (expand hrp ++ data.map (·.val) ++ List.replicate 6 0) :=
    (polymod_append _ _).symm
  have digits : ((checksum hrp data).map (·.val)).foldl push 0 = zeros ^^^ 1 := by
    rw [← UInt32.toNat_inj, toNat_foldl_push _ (by rw [length_checksum]; decide), checksum,
      ← appended]
    exact foldl_digits small
  calc polymod (expand hrp ++ (data ++ checksum hrp data).map (·.val))
      = ((checksum hrp data).map (·.val)).foldl push (register ^^^ 0) := by
        rw [List.map_append, ← List.append_assoc, polymod_append, UInt32.xor_zero]
    _ = zeros ^^^ (zeros ^^^ 1) := by
        rw [foldl_push_xor, digits, List.length_map, length_checksum]
    _ = 1 := by rw [← UInt32.xor_assoc, UInt32.xor_self, UInt32.zero_xor]

end KeySearch.Address.Bech32
