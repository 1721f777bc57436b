import KeySearch.Position
import KeySearch.Word

/-! Tasks: half-open ranges of indices, each index standing for one position. A range whose end lies
before its start is empty. -/

namespace KeySearch.Search

structure Task where
  start : UInt64
  stop : UInt64
  /-- Whether the indices are accounts rather than addresses. -/
  accountOnly : Bool
  deriving DecidableEq

/-- The position that an index stands for: an account at address zero, or an address of account
zero. -/
def positionAt (accountOnly : Bool) (index : UInt64) : Position :=
  if accountOnly then ⟨index, 0⟩ else ⟨0, index⟩

namespace Task

def length (t : Task) : UInt64 := Word.subFloored t.stop t.start

def isEmpty (t : Task) : Bool := t.length == 0

def position (t : Task) (index : UInt64) : Position := positionAt t.accountOnly index

/-- The first candidates in increasing order, at most `count`. -/
def firstCandidates (t : Task) (count : Nat) : List Position :=
  (List.range (min count t.length.toNat)).map fun i => t.position (t.start + UInt64.ofNat i)

/-- All candidates in increasing order. -/
def candidates (t : Task) : List Position := t.firstCandidates t.length.toNat

end Task

end KeySearch.Search
