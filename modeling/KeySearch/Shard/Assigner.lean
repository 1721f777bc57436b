import KeySearch.Key
import KeySearch.Shard.Constraints

/-! Which shard a key lies in is decided by an assigner, on the actual and on the projected axis. An
assigner may keep state in the world like a key service, and its answers may depend on it. An
evaluator asks the assigner once for every axis that the constraints bind, also where the other axis
has failed already, and never for a free axis. -/

namespace KeySearch.Shard

/-- Places keys among a number of shards, over worlds of type `σ`. -/
structure Assigner (σ : Type) where
  actual : Key → UInt32 → σ → UInt32 × σ
  projected : Key → UInt32 → σ → UInt32 × σ

/-- How often an assigner was asked on either axis. -/
structure Tally where
  (actual projected : Nat)
  deriving DecidableEq

namespace Assigner

variable {σ τ : Type}

/-- The assigner that answers by two functions. -/
def ofFn (actual projected : Key → UInt32 → UInt32) : Assigner σ where
  actual key numShards world := (actual key numShards, world)
  projected key numShards world := (projected key numShards, world)

/-- The assigner that answers by one function on both axes. -/
def uniform (shard : Key → UInt32 → UInt32) : Assigner σ := ofFn shard shard

/-- The assigner as part of a larger world, of which it sees the second half. -/
def onSnd (a : Assigner τ) : Assigner (σ × τ) where
  actual key numShards world :=
    let (shard, second) := a.actual key numShards world.2
    (shard, (world.1, second))
  projected key numShards world :=
    let (shard, second) := a.projected key numShards world.2
    (shard, (world.1, second))

/-- The same assigner in a world that also counts how often it is asked. -/
def counted (a : Assigner σ) : Assigner (σ × Tally) where
  actual key numShards world :=
    let (shard, inner) := a.actual key numShards world.1
    (shard, (inner, { world.2 with actual := world.2.actual + 1 }))
  projected key numShards world :=
    let (shard, inner) := a.projected key numShards world.1
    (shard, (inner, { world.2 with projected := world.2.projected + 1 }))

end Assigner

variable {σ : Type}

/-- Whether one axis is free or its shard the one asked for; a free axis asks nobody. -/
def axisHolds {numShards : UInt32} (wanted : Option (ShardId numShards)) (ask : σ → UInt32 × σ)
    (world : σ) : Bool × σ :=
  match wanted with
  | none => (true, world)
  | some shard =>
    let (found, world) := ask world
    (found == shard.val, world)

/-- Whether a key lies where the constraints want it; the actual axis is asked first, and the
projected axis in any case. -/
def satisfies (c : Constraints) (a : Assigner σ) (key : Key) (world : σ) : Bool × σ :=
  let (actual, world) := axisHolds c.actual (a.actual key c.numShards) world
  let (projected, world) := axisHolds c.projected (a.projected key c.numShards) world
  (actual && projected, world)

/-- Constraints together with the assigner that they are checked by. -/
structure Evaluator (σ : Type) where
  constraints : Constraints
  assigner : Assigner σ

def Evaluator.satisfies (e : Evaluator σ) (key : Key) (world : σ) : Bool × σ :=
  Shard.satisfies e.constraints e.assigner key world

end KeySearch.Shard
