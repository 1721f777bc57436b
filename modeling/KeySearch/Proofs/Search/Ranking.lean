import KeySearch.Proofs.Search.Oracle
import KeySearch.Search.Ranking

/-! The order of positions and the ranking of keys by it. Positions are ordered totally, and the
position of a larger index is larger. A ranking takes its keys from the front of some sorted
arrangement of all keys (`IsRanking`); keys with equal positions may stand there in any order. Keys
that carry the positions they were asked for are found in the right order already, so for them
ranking is nothing but cutting. -/

namespace KeySearch

namespace Position

/-! ### The order -/

instance : Std.TransOrd Position :=
  inferInstanceAs (Std.TransCmp (compareLex (compareOn account) (compareOn address)))

variable {p q r : Position}

theorem le_trans (h₁ : p ≤ q) (h₂ : q ≤ r) : p ≤ r := Std.TransCmp.isLE_trans h₁ h₂

theorem le_of_lt (h : p < q) : p ≤ q := Ordering.isLE_of_eq_lt h

theorem le_total (p q : Position) : p ≤ q ∨ q ≤ p := by
  by_cases h : p ≤ q
  · exact .inl h
  · refine .inr (le_of_lt (Std.OrientedCmp.lt_of_gt ?_))
    exact Ordering.isLE_eq_false.1 (Bool.eq_false_iff.2 h)

theorem not_le_of_lt (h : p < q) : ¬ q ≤ p := Std.OrientedCmp.not_isLE_of_lt h

theorem lt_iff :
    p < q ↔ p.account < q.account ∨ p.account = q.account ∧ p.address < q.address := by
  change p.order q = .lt ↔ _
  rw [order, Ordering.then_eq_lt, Std.compare_eq_lt, Std.compare_eq_lt, Std.compare_eq_iff_eq]

end Position

namespace Search

/-- A larger index stands for a larger position. -/
theorem positionAt_lt (accountOnly : Bool) {i j : Nat} (lt : i < j) (bound : j < UInt64.size) :
    positionAt accountOnly (UInt64.ofNat i) < positionAt accountOnly (UInt64.ofNat j) := by
  have words : UInt64.ofNat i < UInt64.ofNat j := by
    rw [UInt64.lt_iff_toNat_lt, UInt64.toNat_ofNat_of_lt' (Nat.lt_trans lt bound),
      UInt64.toNat_ofNat_of_lt' bound]
    exact lt
  rw [Position.lt_iff]
  cases accountOnly with
  | true => exact .inl words
  | false => exact .inr ⟨rfl, words⟩

/-! ### Rankings -/

/-- The keys are the first `target` of all keys in an order of increasing positions. -/
def IsRanking (all : List Key) (target : Nat) (keys : List Key) : Prop :=
  ∃ sorted : List Key, sorted.Perm all ∧ sorted.Pairwise (·.position ≤ ·.position) ∧
    keys = sorted.take target

theorem isRanking_rank (keys : List Key) (target : Nat) :
    IsRanking keys target (rank keys target) := by
  have ordered : (keys.mergeSort ranksBefore).Pairwise fun a b => ranksBefore a b = true := by
    apply List.pairwise_mergeSort
    · intro a b c
      exact Position.le_trans
    · intro a b
      rw [Bool.or_eq_true]
      exact Position.le_total a.position b.position
  exact ⟨_, List.mergeSort_perm keys ranksBefore, ordered, rfl⟩

/-- Keys in order already are only cut. -/
theorem rank_eq_take {keys : List Key} (h : keys.Pairwise (·.position ≤ ·.position))
    (target : Nat) : rank keys target = keys.take target := by
  have same : keys.mergeSort ranksBefore = keys := List.mergeSort_of_pairwise h
  rw [rank, same]

/-- With enough keys at hand there are as many as were asked for. -/
theorem length_rank {keys : List Key} {target : Nat} (enough : target ≤ keys.length) :
    (rank keys target).length = target := by
  rw [rank, List.length_take, List.length_mergeSort, Nat.min_eq_left enough]

/-- Among keys in strict order, those before one that survives the cut survive it too. -/
theorem mem_take_of_le {all : List Key} (h : all.Pairwise (·.position < ·.position))
    {target : Nat} {key last : Key} (mem : key ∈ all) (kept : last ∈ all.take target)
    (le : key.position ≤ last.position) : key ∈ all.take target := by
  rw [← List.take_append_drop target all] at h mem
  obtain ⟨-, -, before⟩ := List.pairwise_append.1 h
  rcases List.mem_append.1 mem with front | back
  · exact front
  · exact absurd le (Position.not_le_of_lt (before last kept key back))

namespace IsRanking

variable {all keys : List Key} {target : Nat}

theorem length_eq (h : IsRanking all target keys) : keys.length = min target all.length := by
  obtain ⟨sorted, perm, -, rfl⟩ := h
  rw [List.length_take, perm.length_eq]

theorem mem_all (h : IsRanking all target keys) {key : Key} (mem : key ∈ keys) : key ∈ all := by
  obtain ⟨sorted, perm, -, rfl⟩ := h
  exact perm.mem_iff.1 (List.mem_of_mem_take mem)

end IsRanking

namespace Oracle

variable {o : Oracle} {accountOnly : Bool}

/-- The hits of keys that carry their own positions stand in strict order. -/
theorem Stamps.pairwise_hits (h : o.Stamps) {start count : Nat}
    (bound : start + count ≤ UInt64.size) :
    (o.hits accountOnly start count).Pairwise (·.position < ·.position) := by
  have indices : (List.range' start count).Pairwise (· < ·) := List.pairwise_lt_range'
  refine List.pairwise_filterMap.2 (indices.imp_of_mem ?_)
  intro i j _ mem lt key hit key' hit'
  rw [h _ key (hitAt_eq_some_iff.1 hit).1, h _ key' (hitAt_eq_some_iff.1 hit').1]
  exact positionAt_lt accountOnly lt (Nat.lt_of_lt_of_le (List.mem_range'_1.1 mem).2 bound)

end Oracle

end Search

end KeySearch
