import KeySearch.Proofs.Search.Ranking
import KeySearch.Proofs.Search.Tiling
import Mathlib.Data.List.Chain

/-! Batch after batch. An allocator hands a batch out exactly where all indices of the batch are
words and so is the one behind them, and it cuts it into tasks that lie side by side (`IsCut`). The
next batch starts where this one ends. So batches that follow one another (`Follow`) tile the
indices from their first one on without gap or repetition, and the only thing that ends them is the
end of the indices: what the allocator refuses is the first index that it has not handed out. -/

namespace KeySearch.Search

/-- Positions of indices in a row are in strict order. -/
theorem pairwise_positions (accountOnly : Bool) {start count : Nat}
    (bound : start + count ≤ UInt64.size) :
    (positions accountOnly start count).Pairwise (· < ·) := by
  have indices : (List.range' start count).Pairwise (· < ·) := List.pairwise_lt_range'
  refine List.pairwise_map.2 (indices.imp_of_mem ?_)
  intro i j _ mem lt
  exact positionAt_lt accountOnly lt (Nat.lt_of_lt_of_le (List.mem_range'_1.1 mem).2 bound)

namespace Allocator

variable {a : Allocator} {index stop : UInt64} {batch : Batch} {batches : List Batch}

/-! ### One batch -/

/-- The batch is cut as it should be from the indices from `index` on: one task for each worker, of
the width and the kind of the allocator, each beginning where the one before it ends. No number on
the way to the bounds of a task wraps. -/
structure IsCut (a : Allocator) (index : UInt64) (batch : Batch) : Prop where
  length : batch.tasks.length = a.numTasks.toNat
  task : ∀ worker < a.numTasks.toNat, ∃ task, batch.tasks[worker]? = some task ∧
    task.start.toNat = index.toNat + worker * a.taskWidth.toNat ∧
    task.stop.toNat = index.toNat + (worker + 1) * a.taskWidth.toNat ∧
    task.accountOnly = a.accountOnly
  words : ∀ worker < a.numTasks.toNat, (UInt64.ofNat worker).toNat = worker ∧
    (UInt64.ofNat worker * a.taskWidth).toNat = worker * a.taskWidth.toNat
  ascending : batch.tasks.Pairwise fun t u => t.start < u.start
  first : batch.tasks.head?.map Task.start = some index
  joined : batch.tasks.IsChain fun t u => t.stop = u.start
  last : batch.tasks.getLast?.map Task.stop = some batch.next
  next : batch.next.toNat = index.toNat + a.numTasks.toNat * a.taskWidth.toNat

theorem taskWidth_pos (a : Allocator) : 0 < a.taskWidth.toNat :=
  Nat.pos_of_mul_pos_left a.batchWidth_pos

theorem numTasks_pos (a : Allocator) : 0 < a.numTasks.toNat :=
  Nat.pos_of_mul_pos_right a.batchWidth_pos

/-- The numbers of the workers and the widths of all tasks before theirs are words. -/
theorem words_of_fits {worker : Nat} (fits : a.batchSize < UInt64.size)
    (bound : worker < a.numTasks.toNat) :
    (UInt64.ofNat worker).toNat = worker ∧
      (UInt64.ofNat worker * a.taskWidth).toNat = worker * a.taskWidth.toNat := by
  have reach : worker * a.taskWidth.toNat ≤ a.batchSize := Nat.mul_le_mul_right _ bound.le
  have number : (UInt64.ofNat worker).toNat = worker :=
    UInt64.toNat_ofNat_of_lt' (bound.trans a.numTasks.toNat_lt)
  refine ⟨number, ?_⟩
  rw [UInt64.toNat_mul, number, Nat.mod_eq_of_lt (reach.trans_lt fits)]

theorem isCut_of_nextBatch (h : a.nextBatch index = .ok batch) : a.IsCut index batch := by
  obtain ⟨tasks, next⟩ := nextBatch_eq_ok_iff.1 h
  have length : batch.tasks.length = a.numTasks.toNat := by
    rw [tasks, List.length_map, List.length_range]
  have task {worker : Nat} (bound : worker < batch.tasks.length) :=
    task_of_nextBatch h (List.getElem?_eq_getElem bound)
  have fits : a.batchSize < UInt64.size := by
    have : batch.next.toNat < UInt64.size := batch.next.toNat_lt
    omega
  refine ⟨length, ?_, fun worker bound => words_of_fits fits bound, ?_, ?_, ?_, ?_, next⟩
  · intro worker bound
    obtain ⟨-, kind, start, stop⟩ := task (length ▸ bound)
    exact ⟨_, List.getElem?_eq_getElem (length ▸ bound), start, stop, kind⟩
  · rw [List.pairwise_iff_getElem]
    intro i j low high lt
    obtain ⟨-, -, start, -⟩ := task low
    obtain ⟨-, -, start', -⟩ := task high
    have apart := Nat.mul_lt_mul_of_pos_right lt a.taskWidth_pos
    rw [UInt64.lt_iff_toNat_lt, start, start']
    omega
  · have bound : 0 < batch.tasks.length := length ▸ a.numTasks_pos
    obtain ⟨-, -, start, -⟩ := task bound
    rw [List.head?_eq_getElem?, List.getElem?_eq_getElem bound, Option.map_some,
      Option.some.injEq, ← UInt64.toNat_inj, start, Nat.zero_mul, Nat.add_zero]
  · rw [List.isChain_iff_getElem]
    intro worker bound
    obtain ⟨-, -, -, stop⟩ := task (Nat.lt_of_succ_lt bound)
    obtain ⟨-, -, start, -⟩ := task bound
    rw [← UInt64.toNat_inj, stop, start]
  · have bound : batch.tasks.length - 1 < batch.tasks.length :=
      Nat.sub_lt (length ▸ a.numTasks_pos) Nat.one_pos
    obtain ⟨-, -, -, stop⟩ := task bound
    rw [List.getLast?_eq_getElem?, List.getElem?_eq_getElem bound, Option.map_some,
      Option.some.injEq, ← UInt64.toNat_inj, stop, next, length,
      Nat.sub_add_cancel a.numTasks_pos, batchSize]

/-! ### Batches in a row -/

/-- The batches are handed out one after the other, from the first index up to the last one, each
from where the one before it ended. -/
inductive Follow (a : Allocator) : UInt64 → List Batch → UInt64 → Prop
  | nil (index : UInt64) : Follow a index [] index
  | cons {index stop : UInt64} {batch : Batch} {batches : List Batch}
      (handed : a.nextBatch index = .ok batch) (rest : Follow a batch.next batches stop) :
      Follow a index (batch :: batches) stop

/-- The candidates of batches, one task after the other. -/
def candidatesOf (batches : List Batch) : List Position :=
  batches.flatMap fun batch => batch.tasks.flatMap Task.candidates

namespace Follow

theorem toNat_stop (h : a.Follow index batches stop) :
    stop.toNat = index.toNat + batches.length * a.batchSize := by
  induction h with
  | nil index => rw [List.length_nil, Nat.zero_mul, Nat.add_zero]
  | cons handed _ ih =>
    rw [ih, (nextBatch_eq_ok_iff.1 handed).2, List.length_cons, Nat.succ_mul]
    omega

theorem candidatesOf_eq (h : a.Follow index batches stop) :
    candidatesOf batches = positions a.accountOnly index.toNat (stop.toNat - index.toNat) := by
  induction h with
  | nil index => rw [Nat.sub_self]; rfl
  | @cons index stop batch batches handed rest ih =>
    have tiles := tiles_of_nextBatch handed
    have split : stop.toNat - index.toNat =
        (batch.next.toNat - index.toNat) + (stop.toNat - batch.next.toNat) := by
      have := tiles.le
      have := rest.toNat_stop
      omega
    rw [candidatesOf, List.flatMap_cons, ← candidatesOf, tiles.flatMap_candidates, ih, split,
      positions_add, Nat.add_sub_cancel' tiles.le]

end Follow

/-- How a walk of at most so many rounds ends: all were made, or the next batch is refused. -/
inductive Ends (a : Allocator) (rounds : Nat) (batches : List Batch) (stop : UInt64) :
    Option Error → Prop
  | made (all : batches.length = rounds) : Ends a rounds batches stop none
  | refused (fewer : batches.length < rounds) (beyond : UInt64.size ≤ stop.toNat + a.batchSize) :
      Ends a rounds batches stop (some (.indexSpaceExhausted stop))

theorem exists_follow (a : Allocator) (index : UInt64) (rounds : Nat) :
    ∃ stop, a.Follow index (a.batches index rounds).1 stop ∧
      a.Ends rounds (a.batches index rounds).1 stop (a.batches index rounds).2 := by
  induction rounds generalizing index with
  | zero => exact ⟨index, .nil index, .made rfl⟩
  | succ rounds ih =>
    rw [Allocator.batches]
    cases handed : a.nextBatch index with
    | error refusal =>
      obtain ⟨beyond, rfl⟩ := nextBatch_eq_error_iff.1 handed
      exact ⟨index, .nil index, .refused (Nat.succ_pos rounds) beyond⟩
    | ok batch =>
      obtain ⟨stop, follow, ends⟩ := ih batch.next
      refine ⟨stop, .cons handed follow, ?_⟩
      dsimp only
      generalize a.batches batch.next rounds = walk at ends
      obtain ⟨rest, refusal⟩ := walk
      cases ends with
      | made all => exact .made (congrArg Nat.succ all)
      | refused fewer beyond => exact .refused (Nat.succ_lt_succ fewer) beyond

/-- A batch is handed out exactly where it and the index behind it fit into words, and it is cut as
it should be. Any number of rounds, each from where the one before it ended, go through the
positions of the indices in their order, each once, up to the index that the first refusal tells.
-/
theorem batches_tile_the_indices (a : Allocator) (index : UInt64) :
    ((∃ batch, a.nextBatch index = .ok batch) ↔
      index.toNat + a.numTasks.toNat * a.taskWidth.toNat ≤ UInt64.size - 1) ∧
    (∀ refusal, a.nextBatch index = .error refusal → refusal = .indexSpaceExhausted index) ∧
    (∀ batch, a.nextBatch index = .ok batch → a.IsCut index batch) ∧
    ∀ rounds, ∃ stop, a.Follow index (a.batches index rounds).1 stop ∧
      a.Ends rounds (a.batches index rounds).1 stop (a.batches index rounds).2 ∧
      stop.toNat = index.toNat +
        (a.batches index rounds).1.length * (a.numTasks.toNat * a.taskWidth.toNat) ∧
      candidatesOf (a.batches index rounds).1 =
        positions a.accountOnly index.toNat (stop.toNat - index.toNat) ∧
      (candidatesOf (a.batches index rounds).1).Pairwise fun p q => p.order q = .lt := by
  refine ⟨?_, fun refusal refused => (nextBatch_eq_error_iff.1 refused).2,
    fun batch handed => isCut_of_nextBatch handed, fun rounds => ?_⟩
  · have fits : a.batchSize = a.numTasks.toNat * a.taskWidth.toNat := rfl
    constructor
    · rintro ⟨batch, handed⟩
      have next := (nextBatch_eq_ok_iff.1 handed).2
      have : batch.next.toNat < UInt64.size := batch.next.toNat_lt
      omega
    · intro room
      have : 0 < UInt64.size := by decide
      exact nextBatch_of_lt (by omega)
  · obtain ⟨stop, follow, ends⟩ := a.exists_follow index rounds
    have covered := follow.candidatesOf_eq
    refine ⟨stop, follow, ends, follow.toNat_stop, covered, ?_⟩
    rw [covered]
    have within : index.toNat + (stop.toNat - index.toNat) ≤ UInt64.size := by
      have : stop.toNat < UInt64.size := stop.toNat_lt
      have := follow.toNat_stop
      omega
    exact pairwise_positions a.accountOnly within

/-- Four tasks of eight accounts may end at the last word, which no further batch can start at. -/
theorem batches_tile_the_indices_lastWord :
    ∃ a : Allocator, a.numTasks = 4 ∧ a.taskWidth = 8 ∧ a.accountOnly = true ∧
      ∃ batch, a.nextBatch 0xffffffffffffffdf = .ok batch ∧
        batch.next = 0xffffffffffffffff ∧ batch.tasks.length = 4 ∧
        a.nextBatch batch.next = .error (.indexSpaceExhausted 0xffffffffffffffff) := by
  let a : Allocator := ⟨4, 8, true, by decide, by decide⟩
  refine ⟨a, rfl, rfl, rfl, ?_⟩
  obtain ⟨handed, -, cut, -⟩ := batches_tile_the_indices a 0xffffffffffffffdf
  obtain ⟨batch, found⟩ := handed.2 (by decide)
  have next : batch.next = 0xffffffffffffffff := UInt64.toNat_inj.1 (cut batch found).next
  obtain ⟨refused, cause, -⟩ := batches_tile_the_indices a batch.next
  refine ⟨batch, found, next, (cut batch found).length, ?_⟩
  rw [next] at refused cause ⊢
  cases last : a.nextBatch 0xffffffffffffffff with
  | ok other => exact absurd (refused.1 ⟨other, last⟩) (by decide)
  | error refusal => rw [cause refusal last]

end Allocator

end KeySearch.Search
