import KeySearch.ConfigError

/-! The placement that is asked of keys: how many shards there are, and on either axis (the actual
and the projected shard) at most one shard that a key has to lie in. A value of the type names
existing shards only. -/

namespace KeySearch.Shard

/-- One of `numShards` shards. -/
abbrev ShardId (numShards : UInt32) := { shard : UInt32 // shard < numShards }

/-- A free axis is `none`. -/
structure Constraints where
  numShards : UInt32
  numShards_pos : 0 < numShards
  actual : Option (ShardId numShards)
  projected : Option (ShardId numShards)
  deriving DecidableEq

namespace Constraints

/-- The shard asked for on one axis, or the fault that it does not exist. -/
def checkAxis (numShards : UInt32) (fault : UInt32 → UInt32 → ConfigError) :
    Option UInt32 → Except ConfigError (Option (ShardId numShards))
  | none => .ok none
  | some shard =>
    if h : shard < numShards then .ok (some ⟨shard, h⟩) else .error (fault shard numShards)

/-- The first fault counts: no shards at all, then the actual axis, then the projected one. -/
def make (numShards : UInt32) (actual projected : Option UInt32) :
    Except ConfigError Constraints :=
  if pos : 0 < numShards then do
    let actual ← checkAxis numShards .actualShardOutOfRange actual
    let projected ← checkAxis numShards .projectedShardOutOfRange projected
    return ⟨numShards, pos, actual, projected⟩
  else .error .zeroShards

/-- Both axes free. -/
def unconstrained (numShards : UInt32) : Except ConfigError Constraints := make numShards none none

def actualShard (c : Constraints) : Option UInt32 := c.actual.map (·.val)

def projectedShard (c : Constraints) : Option UInt32 := c.projected.map (·.val)

/-- The shard asked for on an axis, as it is shown. -/
def describeShard (shard : Option UInt32) : String :=
  Text.Record.optional (fun s => Text.Decimal.render s.toNat) shard

def describe (c : Constraints) : String :=
  Text.Record.render "Constraints"
    [("num_shards", Text.Decimal.render c.numShards.toNat),
      ("actual_shard", describeShard c.actualShard),
      ("projected_shard", describeShard c.projectedShard)]

end Constraints

end KeySearch.Shard
