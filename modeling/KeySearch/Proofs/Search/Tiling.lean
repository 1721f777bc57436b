import KeySearch.Proofs.Search.Oracle
import KeySearch.Search.Allocator

/-! Tasks side by side. `Tiles` says that tasks of one kind fill the indices from one number up to
another without gap or overlap. The tasks of a batch tile the indices from where the batch starts to
where the next one does, and there is a batch exactly where those indices are all words. What holds
candidate by candidate in the tasks of a tiling holds in the whole range, and the candidates and the
hits of the tasks, one task after the other, are the positions and the hits of the range. -/

namespace KeySearch.Search

/-! ### Positions -/

/-- The positions of `count` indices in a row. -/
def positions (accountOnly : Bool) (start count : Nat) : List Position :=
  (List.range' start count).map fun index => positionAt accountOnly (UInt64.ofNat index)

theorem positionAt_inj {accountOnly : Bool} {i j : UInt64} :
    positionAt accountOnly i = positionAt accountOnly j ↔ i = j := by
  cases accountOnly <;> simp [positionAt]

section

variable {accountOnly : Bool} {start count : Nat}

theorem positions_add (accountOnly : Bool) (start count more : Nat) :
    positions accountOnly start (count + more) =
      positions accountOnly start count ++ positions accountOnly (start + count) more := by
  rw [positions, ← List.range'_append_1, List.map_append]
  rfl

theorem mem_positions {position : Position} :
    position ∈ positions accountOnly start count ↔
      ∃ index, start ≤ index ∧ index < start + count ∧
        position = positionAt accountOnly (UInt64.ofNat index) := by
  simp only [positions, List.mem_map, List.mem_range'_1, and_assoc, eq_comm]

@[simp] theorem length_positions : (positions accountOnly start count).length = count := by
  simp [positions]

/-- Indices that are all words stand for different positions. -/
theorem nodup_positions (bound : start + count ≤ UInt64.size) :
    (positions accountOnly start count).Nodup := by
  refine List.nodup_iff_pairwise_ne.2 (List.pairwise_map.2 ?_)
  refine (List.pairwise_lt_range' (s := start) (n := count)).imp_of_mem ?_
  intro i j low high lt same
  have low := (List.mem_range'_1.1 low).2
  have high := (List.mem_range'_1.1 high).2
  have words := congrArg UInt64.toNat (positionAt_inj.1 same)
  rw [UInt64.toNat_ofNat_of_lt' (by omega), UInt64.toNat_ofNat_of_lt' (by omega)] at words
  omega

theorem positions_prefix {fewer : Nat} (le : fewer ≤ count) :
    positions accountOnly start fewer <+: positions accountOnly start count := by
  obtain ⟨more, rfl⟩ := Nat.exists_eq_add_of_le le
  rw [positions_add]
  exact List.prefix_append _ _

end

theorem Task.firstCandidates_eq (t : Task) (count : Nat) :
    t.firstCandidates count =
      positions t.accountOnly t.start.toNat (min count (t.stop.toNat - t.start.toNat)) := by
  rw [firstCandidates, positions, length, Word.toNat_subFloored, List.range'_eq_map_range,
    List.map_map]
  refine List.map_congr_left fun i _ => ?_
  simp only [position, Function.comp, UInt64.ofNat_add, UInt64.ofNat_toNat]

theorem Task.candidates_eq (t : Task) :
    t.candidates = positions t.accountOnly t.start.toNat (t.stop.toNat - t.start.toNat) := by
  rw [candidates, firstCandidates_eq, length, Word.toNat_subFloored, Nat.min_self]

/-! ### Tiles -/

/-- Tasks of one kind that lie side by side from one index to another. -/
inductive Tiles (accountOnly : Bool) : Nat → List Task → Nat → Prop
  | nil (index : Nat) : Tiles accountOnly index [] index
  | cons {start stop : Nat} {task : Task} {tasks : List Task}
      (kind : task.accountOnly = accountOnly) (starts : task.start.toNat = start)
      (le : task.start.toNat ≤ task.stop.toNat)
      (rest : Tiles accountOnly task.stop.toNat tasks stop) :
      Tiles accountOnly start (task :: tasks) stop

/-- The hits of one task. -/
def Oracle.hitsOf (o : Oracle) (t : Task) : List Key :=
  o.hits t.accountOnly t.start.toNat (t.stop.toNat - t.start.toNat)

namespace Tiles

variable {accountOnly : Bool} {start stop : Nat} {tasks : List Task}

theorem le (h : Tiles accountOnly start tasks stop) : start ≤ stop := by
  induction h with
  | nil => exact Nat.le_refl _
  | cons _ starts le _ ih => omega

/-- Every index of the range lies in one of the tasks. -/
theorem exists_mem (h : Tiles accountOnly start tasks stop) {index : Nat} (low : start ≤ index)
    (high : index < stop) :
    ∃ task ∈ tasks, task.accountOnly = accountOnly ∧ task.start.toNat ≤ index ∧
      index < task.stop.toNat := by
  induction h with
  | nil => omega
  | @cons start stop task tasks kind starts _ _ ih =>
    by_cases inside : index < task.stop.toNat
    · exact ⟨task, List.mem_cons_self, kind, by omega, inside⟩
    · obtain ⟨other, mem, facts⟩ := ih (by omega) high
      exact ⟨other, List.mem_cons_of_mem _ mem, facts⟩

theorem flatMap_hitsOf (o : Oracle) (h : Tiles accountOnly start tasks stop) :
    tasks.flatMap o.hitsOf = o.hits accountOnly start (stop - start) := by
  induction h with
  | nil => simp [Oracle.hits_zero]
  | @cons start stop task tasks kind starts le rest ih =>
    have split : stop - start =
        (task.stop.toNat - task.start.toNat) + (stop - task.stop.toNat) := by
      have := rest.le
      omega
    rw [List.flatMap_cons, ih, split, Oracle.hits_add, Oracle.hitsOf, kind, starts,
      show start + (task.stop.toNat - start) = task.stop.toNat by omega]

theorem flatMap_candidates (h : Tiles accountOnly start tasks stop) :
    tasks.flatMap Task.candidates = positions accountOnly start (stop - start) := by
  induction h with
  | nil => simp [positions]
  | @cons start stop task tasks kind starts le rest ih =>
    have split : stop - start =
        (task.stop.toNat - task.start.toNat) + (stop - task.stop.toNat) := by
      have := rest.le
      omega
    rw [List.flatMap_cons, ih, split, positions_add, Task.candidates_eq, kind, starts,
      show start + (task.stop.toNat - start) = task.stop.toNat by omega]

end Tiles

namespace Allocator

/-- The candidates of one batch. -/
def batchSize (a : Allocator) : Nat := a.numTasks.toNat * a.taskWidth.toNat

theorem batchSize_pos (a : Allocator) : 0 < a.batchSize := a.batchWidth_pos

/-- No number on the way to the start of a task wraps. -/
theorem toNat_start_task (a : Allocator) (index : UInt64) (worker : Nat)
    (h : index.toNat + worker * a.taskWidth.toNat < UInt64.size) :
    (a.task index worker).start.toNat = index.toNat + worker * a.taskWidth.toNat := by
  have width : 1 ≤ a.taskWidth.toNat := Nat.pos_of_mul_pos_left a.batchWidth_pos
  have small : worker ≤ worker * a.taskWidth.toNat := Nat.le_mul_of_pos_right _ width
  simp only [UInt64.size] at h
  rw [task, UInt64.toNat_add, UInt64.toNat_mul, UInt64.toNat_ofNat',
    Nat.mod_eq_of_lt (show worker < 2 ^ 64 by omega), Nat.mod_eq_of_lt (by omega),
    Nat.mod_eq_of_lt (by omega)]

theorem toNat_stop_task (a : Allocator) (index : UInt64) (worker : Nat)
    (h : index.toNat + (worker + 1) * a.taskWidth.toNat < UInt64.size) :
    (a.task index worker).stop.toNat = index.toNat + (worker + 1) * a.taskWidth.toNat := by
  rw [Nat.add_mul, Nat.one_mul] at h ⊢
  have start := toNat_start_task a index worker (by omega)
  simp only [UInt64.size] at h
  change ((a.task index worker).start + a.taskWidth).toNat = _
  rw [UInt64.toNat_add, start, Nat.mod_eq_of_lt (by omega), Nat.add_assoc]

/-- The tasks of some workers in a row tile their part of the batch. -/
theorem tiles_tasks (a : Allocator) (index : UInt64) (first count : Nat)
    (h : index.toNat + (first + count) * a.taskWidth.toNat < UInt64.size) :
    Tiles a.accountOnly (index.toNat + first * a.taskWidth.toNat)
      ((List.range' first count).map (a.task index))
      (index.toNat + (first + count) * a.taskWidth.toNat) := by
  induction count generalizing first with
  | zero => exact .nil _
  | succ count ih =>
    rw [show first + (count + 1) = first + 1 + count by omega] at h ⊢
    have reach : (first + 1) * a.taskWidth.toNat ≤ (first + 1 + count) * a.taskWidth.toNat :=
      Nat.mul_le_mul_right _ (by omega)
    have step : (first + 1) * a.taskWidth.toNat =
        first * a.taskWidth.toNat + a.taskWidth.toNat := by
      rw [Nat.add_mul, Nat.one_mul]
    have starts := toNat_start_task a index first (by omega)
    have stops := toNat_stop_task a index first (by omega)
    rw [List.range'_succ, List.map_cons]
    refine .cons rfl starts (by omega) ?_
    rw [stops]
    exact ih (first + 1) h

/-! ### Batches -/

theorem next_eq_some_iff {a : Allocator} {index next : UInt64} :
    a.batchWidth?.bind (Word.add? index) = some next ↔
      next.toNat = index.toNat + a.batchSize := by
  constructor
  · intro h
    obtain ⟨width, product, sum⟩ := Option.bind_eq_some_iff.1 h
    rw [Word.add?_eq_some_iff.1 sum, Word.mul?_eq_some_iff.1 product, batchSize]
  · intro h
    have fits : a.batchSize < UInt64.size := by
      have := next.toNat_lt
      simp only [UInt64.size]
      omega
    have width : (UInt64.ofNat a.batchSize).toNat = a.batchSize := UInt64.toNat_ofNat_of_lt' fits
    exact Option.bind_eq_some_iff.2 ⟨.ofNat a.batchSize, Word.mul?_eq_some_iff.2 width,
      Word.add?_eq_some_iff.2 (by rw [h, width])⟩

theorem nextBatch_eq_ok_iff {a : Allocator} {index : UInt64} {batch : Batch} :
    a.nextBatch index = .ok batch ↔
      batch.tasks = (List.range a.numTasks.toNat).map (a.task index) ∧
        batch.next.toNat = index.toNat + a.batchSize := by
  rw [← next_eq_some_iff, nextBatch]
  cases a.batchWidth?.bind (Word.add? index) with
  | none => simp
  | some next =>
    simp only [Except.ok.injEq, Option.some.injEq]
    exact ⟨fun h => h ▸ ⟨rfl, rfl⟩, fun ⟨tasks, sum⟩ => by cases batch; cases tasks; cases sum; rfl⟩

theorem nextBatch_of_lt {a : Allocator} {index : UInt64}
    (h : index.toNat + a.batchSize < UInt64.size) : ∃ batch, a.nextBatch index = .ok batch :=
  ⟨⟨_, .ofNat (index.toNat + a.batchSize)⟩,
    nextBatch_eq_ok_iff.2 ⟨rfl, UInt64.toNat_ofNat_of_lt' h⟩⟩

/-- A batch that would reach past the last index is refused. -/
theorem nextBatch_of_le {a : Allocator} {index : UInt64}
    (h : UInt64.size ≤ index.toNat + a.batchSize) :
    a.nextBatch index = .error (.indexSpaceExhausted index) := by
  have none : a.batchWidth?.bind (Word.add? index) = none := by
    refine Option.eq_none_iff_forall_ne_some.2 fun next found => ?_
    have := next_eq_some_iff.1 found
    have := next.toNat_lt
    simp only [UInt64.size] at h
    omega
  rw [nextBatch, none]

theorem nextBatch_eq_error_iff {a : Allocator} {index : UInt64} {error : Error} :
    a.nextBatch index = .error error ↔
      UInt64.size ≤ index.toNat + a.batchSize ∧ error = .indexSpaceExhausted index := by
  by_cases h : index.toNat + a.batchSize < UInt64.size
  · obtain ⟨batch, handed⟩ := nextBatch_of_lt h
    rw [handed]
    exact ⟨nofun, fun refused => absurd h (Nat.not_lt_of_le refused.1)⟩
  · have beyond := Nat.le_of_not_lt h
    rw [nextBatch_of_le beyond, Except.error.injEq]
    exact ⟨fun same => ⟨beyond, same.symm⟩, fun refused => refused.2.symm⟩

/-- The tasks of a batch by their numbers. -/
theorem task_of_nextBatch {a : Allocator} {index : UInt64} {batch : Batch}
    (h : a.nextBatch index = .ok batch) {worker : Nat} {task : Task}
    (found : batch.tasks[worker]? = some task) :
    worker < a.numTasks.toNat ∧ task.accountOnly = a.accountOnly ∧
      task.start.toNat = index.toNat + worker * a.taskWidth.toNat ∧
      task.stop.toNat = index.toNat + (worker + 1) * a.taskWidth.toNat := by
  obtain ⟨tasks, next⟩ := nextBatch_eq_ok_iff.1 h
  rw [tasks, List.getElem?_map, Option.map_eq_some_iff] at found
  obtain ⟨place, there, rfl⟩ := found
  obtain ⟨bound, rfl⟩ := List.getElem?_eq_some_iff.1 there
  rw [List.length_range] at bound
  rw [List.getElem_range]
  have inside : (worker + 1) * a.taskWidth.toNat ≤ a.batchSize := Nat.mul_le_mul_right _ bound
  have below : worker * a.taskWidth.toNat ≤ (worker + 1) * a.taskWidth.toNat :=
    Nat.mul_le_mul_right _ (Nat.le_succ worker)
  have room : index.toNat + a.batchSize < UInt64.size := next ▸ batch.next.toNat_lt
  exact ⟨bound, rfl, toNat_start_task a index worker (by omega),
    toNat_stop_task a index worker (by omega)⟩

theorem tiles_of_nextBatch {a : Allocator} {index : UInt64} {batch : Batch}
    (h : a.nextBatch index = .ok batch) :
    Tiles a.accountOnly index.toNat batch.tasks batch.next.toNat := by
  obtain ⟨tasks, next⟩ := nextBatch_eq_ok_iff.1 h
  have tiles := tiles_tasks a index 0 a.numTasks.toNat (by
    rw [Nat.zero_add, ← batchSize, ← next]
    exact batch.next.toNat_lt)
  rwa [Nat.zero_mul, Nat.zero_add, Nat.add_zero, ← List.range_eq_range', ← batchSize, ← tasks,
    ← next] at tiles

end Allocator

end KeySearch.Search
