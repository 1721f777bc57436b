import KeySearch.Derivation.Deriver
import KeySearch.Shard.Assigner

/-! Services for rehearsing a search without key material. A stub key is cheap to make and tells
its position; its public half ends in a mixed number, so that it spreads over shards like a real
one. Stub services can also give the key of another position than the one asked for, and the
assigners place a key by the sum of its two indices. -/

namespace KeySearch.Rehearsal

open KeySearch.Derivation (Deriver)
open KeySearch.Shard (Assigner)

/-! ### Keys -/

/-- A permutation of the words in which every bit of the argument changes about half of the others.
-/
def mix (x : UInt64) : UInt64 :=
  let x := x + 0x9e3779b97f4a7c15
  let x := (x ^^^ (x >>> 30)) * 0xbf58476d1ce4e5b9
  let x := (x ^^^ (x >>> 27)) * 0x94d049bb133111eb
  x ^^^ (x >>> 31)

/-- The key that stands in for the one at a position. -/
def stubKey (p : Position) : Key where
  position := p
  privateKey := List.replicate 32 0x11
  publicKey := 0x02 :: List.replicate 24 0 ++
    Bytes.ofUInt64 (mix ((p.account * 0x100000001) ^^^ p.address))
  address := "stub-" ++ Text.Decimal.render p.account.toNat ++ "-" ++
    Text.Decimal.render p.address.toNat

/-- The position that a stub service answers with: both indices changed by the same bits, and then
perhaps exchanged. -/
def moved (flips : UInt64) (swap : Bool) (p : Position) : Position :=
  let account := p.account ^^^ flips
  let address := p.address ^^^ flips
  if swap then ⟨address, account⟩ else ⟨account, address⟩

def stub {σ : Type} (flips : UInt64) (swap : Bool) : Deriver σ :=
  .ofFn fun _ position => .ok (stubKey (moved flips swap position))

/-! ### Assigners -/

/-- The sum of the indices of a key. -/
def indexSum (key : Key) : UInt64 := key.position.account + key.position.address

variable {σ : Type}

/-- The remainder of the sum on both axes. -/
def byRemainder : Assigner σ :=
  .uniform fun key numShards => (indexSum key % numShards.toUInt64).toUInt32

/-- The same shard for every key. -/
def always (shard : UInt32) : Assigner σ := .uniform fun _ _ => shard

/-- The remainder of the sum on the actual axis, and of half the sum on the projected one. -/
def byHalves : Assigner σ :=
  .ofFn (fun key numShards => (indexSum key % numShards.toUInt64).toUInt32)
    (fun key numShards => (indexSum key / 2 % numShards.toUInt64).toUInt32)

/-- The entry of a table at the sum of the indices, going round; zero in an empty table. -/
def lookUp (table : List UInt32) (key : Key) : UInt32 :=
  table.getD ((indexSum key).toNat % table.length) 0

/-- A table for each axis. -/
def byTables (actual projected : List UInt32) : Assigner σ :=
  .ofFn (fun key _ => lookUp actual key) (fun key _ => lookUp projected key)

end KeySearch.Rehearsal
