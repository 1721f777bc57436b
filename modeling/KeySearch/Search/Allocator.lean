import KeySearch.Search.Config
import KeySearch.Search.Error
import KeySearch.Search.Task

/-! The allocator cuts the indices from some point on into a batch of equally wide tasks, one beside
the other, and tells where the next batch starts. It refuses a batch that would reach past the last
index, so no number in a batch wraps. -/

namespace KeySearch.Search

structure Allocator where
  numTasks : UInt64
  taskWidth : UInt64
  accountOnly : Bool
  numTasks_ne_zero : numTasks ≠ 0
  taskWidth_ne_zero : taskWidth ≠ 0

/-- The tasks of one iteration, and the index behind the last of them. -/
structure Batch where
  tasks : List Task
  next : UInt64
  deriving DecidableEq

namespace Allocator

/-- The allocator for settings that pass `Config.validate`. -/
def ofConfig (c : Config) : Except ConfigError Allocator :=
  if tasks : c.numTasks = 0 then .error .zeroTasks
  else if width : c.taskWidth = 0 then .error .zeroTaskWidth
  else .ok ⟨c.numTasks, c.taskWidth, c.accountOnly, tasks, width⟩

/-- The indices of one batch, unless there are more than a word can count. -/
def batchWidth? (a : Allocator) : Option UInt64 := Word.mul? a.numTasks a.taskWidth

/-- The task of one worker in the batch that starts at an index. -/
def task (a : Allocator) (index : UInt64) (worker : Nat) : Task :=
  let start := index + UInt64.ofNat worker * a.taskWidth
  ⟨start, start + a.taskWidth, a.accountOnly⟩

/-- The batch that starts at an index. -/
def nextBatch (a : Allocator) (index : UInt64) : Except Error Batch :=
  match a.batchWidth?.bind (Word.add? index) with
  | some next => .ok ⟨(List.range a.numTasks.toNat).map (a.task index), next⟩
  | none => .error (.indexSpaceExhausted index)

/-- At most `rounds` batches, each from where the one before it ended, with the refusal that cut
them short, if there was one. -/
def batches (a : Allocator) (index : UInt64) : (rounds : Nat) → List Batch × Option Error
  | 0 => ([], none)
  | rounds + 1 =>
    match a.nextBatch index with
    | .error refusal => ([], some refusal)
    | .ok batch =>
      let (rest, refusal) := a.batches batch.next rounds
      (batch :: rest, refusal)

theorem batchWidth_pos (a : Allocator) : 0 < a.numTasks.toNat * a.taskWidth.toNat := by
  have h₁ : a.numTasks.toNat ≠ 0 := fun h => a.numTasks_ne_zero (UInt64.toNat_inj.1 h)
  have h₂ : a.taskWidth.toNat ≠ 0 := fun h => a.taskWidth_ne_zero (UInt64.toNat_inj.1 h)
  exact Nat.mul_pos (Nat.pos_of_ne_zero h₁) (Nat.pos_of_ne_zero h₂)

theorem next_of_nextBatch {a : Allocator} {index : UInt64} {batch : Batch}
    (h : a.nextBatch index = .ok batch) :
    batch.next.toNat = index.toNat + a.numTasks.toNat * a.taskWidth.toNat := by
  unfold nextBatch batchWidth? at h
  split at h
  · rename_i next found
    obtain ⟨width, product, sum⟩ := Option.bind_eq_some_iff.1 found
    rw [Word.mul?_eq_some_iff] at product
    rw [Word.add?_eq_some_iff] at sum
    cases h
    show next.toNat = _
    omega
  · cases h

theorem lt_next_of_nextBatch {a : Allocator} {index : UInt64} {batch : Batch}
    (h : a.nextBatch index = .ok batch) : index.toNat < batch.next.toNat := by
  have := next_of_nextBatch h
  have := a.batchWidth_pos
  omega

end Allocator

end KeySearch.Search
