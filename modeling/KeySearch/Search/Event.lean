import KeySearch.Search.Error
import KeySearch.Shard.Constraints

/-! What a search reports while it runs. An event has a severity, a message and fields, all of which
follow from what it tells; keys and seeds have no place in it. -/

namespace KeySearch.Search

inductive Severity where
  | debug | info | warn | error
  deriving DecidableEq

def Severity.toText : Severity → String
  | .debug => "DEBUG"
  | .info => "INFO"
  | .warn => "WARN"
  | .error => "ERROR"

inductive FieldValue where
  | number (n : Nat)
  | text (s : String)
  deriving DecidableEq

inductive Event where
  /-- A search for no keys at all. -/
  | nothingAsked
  | started (target : UInt64) (numShards : UInt32) (actual projected : Option UInt32)
      (startIndex numTasks taskWidth : UInt64)
  /-- A worker is through with its task, or has broken off because the search is to stop. -/
  | taskFinished (worker : Nat) (start stop : UInt64) (matched : Nat)
  | taskFailed (worker : Nat) (failure : Failure)
  /-- An iteration is complete; so many keys are at hand, and the next one starts there. -/
  | progress (iteration : UInt64) (matched : Nat) (slidingIndex : UInt64)
  /-- The search has found its keys. The seconds that it took belong to this event as well, and are
  left out because no clock runs beside the search. -/
  | completed (keys : Nat) (iterations candidates : UInt64)
  | limitReached (limit : UInt64) (matched : Nat)
  | cancelledBefore (iteration : UInt64)
  /-- The cancellation was noticed when the workers of an iteration had stopped. -/
  | cancelledWithin
  deriving DecidableEq

namespace Event

def severity : Event → Severity
  | .nothingAsked | .taskFinished .. => .debug
  | .started .. | .progress .. | .completed .. => .info
  | .limitReached .. | .cancelledBefore _ | .cancelledWithin => .warn
  | .taskFailed .. => .error

def message : Event → String
  | .nothingAsked => "no keys requested"
  | .started .. => "starting key search"
  | .taskFinished .. => "task finished"
  | .taskFailed .. => "task failed"
  | .progress .. => "progress"
  | .completed .. => "key search complete"
  | .limitReached .. => "iteration limit reached"
  | .cancelledBefore _ | .cancelledWithin => "key search cancelled"

def fields : Event → List (String × FieldValue)
  | .nothingAsked | .cancelledWithin => []
  | .started target numShards actual projected startIndex numTasks taskWidth =>
    [("target_count", .number target.toNat), ("num_shards", .number numShards.toNat),
      ("actual_shard", .text (Shard.Constraints.describeShard actual)),
      ("projected_shard", .text (Shard.Constraints.describeShard projected)),
      ("start_index", .number startIndex.toNat), ("num_tasks", .number numTasks.toNat),
      ("task_width", .number taskWidth.toNat)]
  | .taskFinished worker start stop matched =>
    [("worker", .number worker), ("range_start", .number start.toNat),
      ("range_end", .number stop.toNat), ("matches", .number matched)]
  | .taskFailed worker failure =>
    [("worker", .number worker), ("error", .text (Error.derivation failure).message)]
  | .progress iteration matched slidingIndex =>
    [("iteration", .number iteration.toNat), ("matches", .number matched),
      ("sliding_index", .number slidingIndex.toNat)]
  | .completed keys iterations candidates =>
    [("keys", .number keys), ("iterations", .number iterations.toNat),
      ("candidates", .number candidates.toNat)]
  | .limitReached limit matched => [("limit", .number limit.toNat), ("matches", .number matched)]
  | .cancelledBefore iteration => [("iteration", .number iteration.toNat)]

end Event

end KeySearch.Search
