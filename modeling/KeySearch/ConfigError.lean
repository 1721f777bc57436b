import KeySearch.Text.Decimal
import KeySearch.Text.Record

/-! What can be wrong with the settings of a search, be it the shards asked for or the division of
the work. -/

namespace KeySearch

inductive ConfigError where
  | zeroShards
  | actualShardOutOfRange (shard numShards : UInt32)
  | projectedShardOutOfRange (shard numShards : UInt32)
  | zeroTasks
  | zeroTaskWidth
  deriving DecidableEq

namespace ConfigError

/-- A shard on the named axis that does not exist among so many. -/
def shardMessage (axis : String) (shard numShards : UInt32) : String :=
  axis ++ " shard " ++ Text.Decimal.render shard.toNat ++ " is out of range for " ++
    Text.Decimal.render numShards.toNat ++ " shards"

def message : ConfigError → String
  | .zeroShards => "number of shards must be at least 1"
  | .actualShardOutOfRange shard numShards => shardMessage "actual" shard numShards
  | .projectedShardOutOfRange shard numShards => shardMessage "projected" shard numShards
  | .zeroTasks => "number of parallel tasks must be positive"
  | .zeroTaskWidth => "task width must be positive"

def describeShard (name : String) (shard numShards : UInt32) : String :=
  Text.Record.render name
    [("shard", Text.Decimal.render shard.toNat),
      ("num_shards", Text.Decimal.render numShards.toNat)]

def describe : ConfigError → String
  | .zeroShards => "ZeroShards"
  | .actualShardOutOfRange shard numShards =>
    describeShard "ActualShardOutOfRange" shard numShards
  | .projectedShardOutOfRange shard numShards =>
    describeShard "ProjectedShardOutOfRange" shard numShards
  | .zeroTasks => "ZeroTasks"
  | .zeroTaskWidth => "ZeroTaskWidth"

end ConfigError

end KeySearch
