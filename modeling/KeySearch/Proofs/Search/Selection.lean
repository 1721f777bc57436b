import KeySearch.Proofs.Search.Ranking
import Mathlib.Data.Prod.Lex

/-! What a ranking selects. Positions compare as the pairs of their numbers do, and so do all the
relations that come with the order (`Position.Compares`). Since the order is antisymmetric, the
positions stand alike in all sorted arrangements of the same keys; the keys do too, unless different
ones share a position. So a ranking does not depend on the order in which the keys were found, nor
on what the sorting does with keys of equal positions. -/

namespace KeySearch

namespace Position

/-! ### The order of pairs -/

/-- The two numbers of a position, to be compared from left to right. -/
def pair (p : Position) : ℕ ×ₗ ℕ := toLex (p.account.toNat, p.address.toNat)

/-- How two positions compare: as their pairs, and alike by all relations of the order. -/
structure Compares (p q : Position) : Prop where
  lexicographic : p.order q = compare p.pair q.pair
  swap : q.order p = (p.order q).swap
  eq_iff : p.order q = .eq ↔ p = q
  lt_iff : p < q ↔ p.order q = .lt
  le_iff : p ≤ q ↔ p.order q ≠ .gt
  gt_iff : p > q ↔ p.order q = .gt
  ge_iff : p ≥ q ↔ p.order q ≠ .lt
  min_eq : min p q = if p.order q = .gt then q else p
  max_eq : max p q = if p.order q = .gt then p else q

variable {p q : Position}

theorem compare_word (a b : UInt64) : compare a b = compare a.toNat b.toNat := by
  simp only [compare, compareOfLessAndEq, UInt64.lt_iff_toNat_lt, ← UInt64.toNat_inj]

theorem order_eq_compare_pair (p q : Position) : p.order q = compare p.pair q.pair := by
  rw [order, compare_word, compare_word]
  rfl

theorem order_eq_eq_iff : p.order q = .eq ↔ p = q := by
  rw [order, Ordering.then_eq_eq, Std.compare_eq_iff_eq, Std.compare_eq_iff_eq]
  constructor
  · rintro ⟨account, address⟩
    cases p
    cases q
    cases account
    cases address
    rfl
  · rintro rfl
    exact ⟨rfl, rfl⟩

theorem order_swap (p q : Position) : q.order p = (p.order q).swap :=
  Std.OrientedOrd.eq_swap (a := q) (b := p)

theorem le_antisymm (h₁ : p ≤ q) (h₂ : q ≤ p) : p = q := by
  have equal : compare p q = .eq := Std.OrientedCmp.isLE_antisymm h₁ h₂
  exact order_eq_eq_iff.1 equal

theorem le_iff_order_ne_gt : p ≤ q ↔ p.order q ≠ .gt := Ordering.isLE_iff_ne_gt

theorem compares (p q : Position) : p.Compares q where
  lexicographic := order_eq_compare_pair p q
  swap := order_swap p q
  eq_iff := order_eq_eq_iff
  lt_iff := Iff.rfl
  le_iff := le_iff_order_ne_gt
  gt_iff := by
    change q.order p = .lt ↔ _
    rw [order_swap p q, Ordering.swap_eq_lt]
  ge_iff := by
    change q ≤ p ↔ _
    rw [le_iff_order_ne_gt, order_swap p q, ne_eq, Ordering.swap_eq_gt]
  min_eq := by
    change (if p ≤ q then p else q) = _
    simp only [le_iff_order_ne_gt, ne_eq, ite_not]
  max_eq := by
    change (if p ≤ q then q else p) = _
    simp only [le_iff_order_ne_gt, ne_eq, ite_not]

end Position

namespace Search

/-! ### Sorted arrangements -/

/-- Two lists of keys with the same positions in the same places; they are the same list if no two
different keys among `all` share a position. -/
structure SameUpToTies (all keys keys' : List Key) : Prop where
  positions : keys.map Key.position = keys'.map Key.position
  keys : (∀ a ∈ all, ∀ b ∈ all, a.position = b.position → a = b) → keys = keys'

/-- Sorted arrangements of the same keys are the same up to ties, wherever they are cut. -/
theorem sameUpToTies_take {all sorted sorted' : List Key} (perm : sorted.Perm all)
    (perm' : sorted'.Perm all) (ordered : sorted.Pairwise (·.position ≤ ·.position))
    (ordered' : sorted'.Pairwise (·.position ≤ ·.position)) (target : Nat) :
    SameUpToTies all (sorted.take target) (sorted'.take target) := by
  have alike := perm.trans perm'.symm
  constructor
  · have positions : sorted.map Key.position = sorted'.map Key.position :=
      (alike.map Key.position).eq_of_pairwise (fun _ _ _ _ => Position.le_antisymm)
        (List.pairwise_map.2 ordered) (List.pairwise_map.2 ordered')
    rw [List.map_take, List.map_take, positions]
  · intro apart
    have keys : sorted = sorted' := by
      refine alike.eq_of_pairwise (fun a b mem mem' before after => ?_) ordered ordered'
      exact apart a (perm.mem_iff.1 mem) b (perm'.mem_iff.1 mem')
        (Position.le_antisymm before after)
    rw [keys]

/-- Rankings of the same keys are the same up to ties. -/
theorem IsRanking.sameUpToTies {all all' keys keys' : List Key} {target : Nat}
    (h : IsRanking all target keys) (perm : all'.Perm all) (h' : IsRanking all' target keys') :
    SameUpToTies all keys' keys := by
  obtain ⟨sorted, arranged, ordered, rfl⟩ := h
  obtain ⟨sorted', arranged', ordered', rfl⟩ := h'
  exact sameUpToTies_take (arranged'.trans perm) arranged ordered' ordered target

/-- What is cut off stands behind what is kept. -/
theorem IsRanking.exists_rest {all keys : List Key} {target : Nat}
    (h : IsRanking all target keys) :
    keys.Pairwise (·.position ≤ ·.position) ∧
      ∃ rest, (keys ++ rest).Perm all ∧
        ∀ kept ∈ keys, ∀ cut ∈ rest, kept.position ≤ cut.position := by
  obtain ⟨sorted, perm, ordered, rfl⟩ := h
  rw [← List.take_append_drop target sorted, List.pairwise_append] at ordered
  obtain ⟨front, -, before⟩ := ordered
  refine ⟨front, sorted.drop target, ?_, before⟩
  rwa [List.take_append_drop]

/-- A ranking is sorted and as long as it may be, and what it leaves out stands behind it. It is the
same up to ties for all arrangements of the keys and for all ways of sorting them. The order behind
it is that of pairs of numbers. -/
theorem rank_is_cut_of_sorted (keys : List Key) (target : Nat) :
    (rank keys target).length = min target keys.length ∧
    (rank keys target).Pairwise (·.position ≤ ·.position) ∧
    (∃ rest, (rank keys target ++ rest).Perm keys ∧
      ∀ kept ∈ rank keys target, ∀ cut ∈ rest, kept.position ≤ cut.position) ∧
    (∀ keys', keys'.Perm keys → SameUpToTies keys (rank keys' target) (rank keys target)) ∧
    (∀ sorted : List Key, sorted.Perm keys → sorted.Pairwise (·.position ≤ ·.position) →
      SameUpToTies keys (sorted.take target) (rank keys target)) ∧
    (∀ p q : Position, p.Compares q) ∧
    ∀ p q r : Position, p ≤ q → q ≤ r → p ≤ r := by
  have ranking := isRanking_rank keys target
  obtain ⟨ordered, rest⟩ := ranking.exists_rest
  refine ⟨ranking.length_eq, ordered, rest, fun keys' perm => ?_, fun sorted perm inOrder => ?_,
    Position.compares, fun p q r => Position.le_trans⟩
  · exact ranking.sameUpToTies perm (isRanking_rank keys' target)
  · exact ranking.sameUpToTies (List.Perm.refl keys) ⟨sorted, perm, inOrder, rfl⟩

end Search

end KeySearch
