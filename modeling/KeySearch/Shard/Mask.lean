import KeySearch.Shard.Assigner

/-! The usual assigner: a shard is the low bits of the number at the end of the public key. So many
bits are kept as the shard count needs; where that passes the last shard, one bit fewer is kept.
The projected shard keeps the bits in any case, which is where the key will lie once there are as
many shards as the bits can tell apart. Only as many bytes are read as the count of shards can call
for. -/

namespace KeySearch.Shard.Mask

/-- The bits needed to tell `numShards` shards apart. -/
def width (numShards : UInt32) : Nat :=
  if numShards ≤ 1 then 0 else (numShards - 1).toNat.log2 + 1

/-- The mask of the `bits` lowest bits. -/
def lowBits (bits : Nat) : UInt32 := UInt32.ofNat ((1 <<< bits) - 1)

def high (numShards : UInt32) : UInt32 := lowBits (width numShards)

/-- One bit fewer than `high`, or no bit. -/
def low (numShards : UInt32) : UInt32 := lowBits (width numShards - 1)

/-- How many bytes at the end of a key are read. -/
def reach (numShards : UInt32) : Nat := min (numShards.toNat / 256 + 1) 4

/-- The number at the end of a public key. -/
def trailing (publicKey : Bytes) (numShards : UInt32) : UInt32 :=
  (publicKey.drop (publicKey.length - reach numShards)).foldl
    (fun value b => (value <<< 8) ||| b.toUInt32) 0

/-- The shard under the high mask, or under the low mask where there is no such shard. -/
def shardOf (publicKey : Bytes) (numShards : UInt32) : UInt32 :=
  let value := trailing publicKey numShards
  let shard := value &&& high numShards
  if shard < numShards then shard else value &&& low numShards

/-- The shard under the high mask, whether it exists yet or not. -/
def projectedOf (publicKey : Bytes) (numShards : UInt32) : UInt32 :=
  trailing publicKey numShards &&& high numShards

/-- The assigner of both. -/
def assigner {σ : Type} : Assigner σ :=
  .ofFn (fun key => shardOf key.publicKey) (fun key => projectedOf key.publicKey)

end KeySearch.Shard.Mask
