import KeySearch.Address.Encoder
import KeySearch.Derivation.Deriver
import KeySearch.Derivation.Node

/-! Wallets: the hierarchical key service. A wallet is fixed by purpose, coin type and the encoder
of its addresses, and it remembers the account node that it reached last, so that the keys of one
account share the way down to it. The memory is state of the world and no part of the wallet.
`derive` is one call from start to end; a `Call` takes the same two touches of the memory one at a
time, so that several calls can take turns. `deriveAfresh` never looks at the memory. -/

namespace KeySearch.Derivation

structure Wallet where
  purpose : UInt32
  coinType : UInt32
  encoder : Address.Encoder
  deriving DecidableEq

/-- An account node, with the seed and the account that it belongs to. -/
structure AccountNode where
  seed : Seed
  account : UInt64
  node : Node
  deriving DecidableEq

/-- What a wallet remembers: the account node it reached last. -/
abbrev Memory := Option AccountNode

/-- The remembered node, if it is the one of this seed and account. -/
def Memory.find? (memory : Memory) (seed : Seed) (account : UInt64) : Option Node :=
  match memory with
  | some entry => if entry.account = account ∧ entry.seed = seed then some entry.node else none
  | none => none

namespace Wallet

/-- The purpose of single-key witness wallets. -/
def mainPurpose : UInt32 := 84

def mainCoinType : UInt32 := 0

def main : Wallet := ⟨mainPurpose, mainCoinType, .main⟩

def path (w : Wallet) (position : Position) : Except Error Path :=
  Path.ofPosition w.purpose w.coinType position

/-- The key below an account node. -/
def keyBelow (w : Wallet) (account : Node) (path : Path) (position : Position) : Outcome := do
  let node ← account.descend path.belowAccount
  let publicKey := node.secret.publicKey
  let address ← w.encoder.encodePublicKey publicKey
  return ⟨position, node.secret.toBytes, publicKey, address⟩

/-! ### One call -/

/-- What a look into the memory leads to. -/
inductive Look where
  | answered (outcome : Outcome)
  /-- The account node of this path is not there. -/
  | missed (path : Path)

/-- The first touch of the memory, behind the check of the path; it changes nothing. -/
def look (w : Wallet) (seed : Seed) (position : Position) (memory : Memory) : Look :=
  match w.path position with
  | .error e => .answered (.error e)
  | .ok path =>
    match memory.find? seed position.account with
    | some node => .answered (w.keyBelow node path position)
    | none => .missed path

/-- The second touch after a miss: the account node is computed and remembered, whatever becomes of
the key below it. -/
def remember (w : Wallet) (seed : Seed) (position : Position) (path : Path) (memory : Memory) :
    Outcome × Memory :=
  match Node.ofSeed seed path.toAccount with
  | .error e => (.error e, memory)
  | .ok node => (w.keyBelow node path position, some ⟨seed, position.account, node⟩)

/-- A whole call, with nothing between its touches. -/
def derive (w : Wallet) (seed : Seed) (position : Position) (memory : Memory) : Outcome × Memory :=
  match w.look seed position memory with
  | .answered outcome => (outcome, memory)
  | .missed path => w.remember seed position path memory

/-- A call on its way, for calls that take turns. -/
inductive Call where
  | started (seed : Seed) (position : Position)
  | missed (seed : Seed) (position : Position) (path : Path)
  | answered (seed : Seed) (position : Position) (outcome : Outcome)

/-- One touch of the memory. -/
def Call.step (w : Wallet) (memory : Memory) : Call → Call × Memory
  | .started seed position =>
    match w.look seed position memory with
    | .answered outcome => (.answered seed position outcome, memory)
    | .missed path => (.missed seed position path, memory)
  | .missed seed position path =>
    let answer := w.remember seed position path memory
    (.answered seed position answer.1, answer.2)
  | .answered seed position outcome => (.answered seed position outcome, memory)

/-- The key of a position, by the whole way from the root. -/
def deriveAfresh (w : Wallet) (seed : Seed) (position : Position) : Outcome := do
  let path ← w.path position
  let node ← Node.ofSeed seed path.toList
  let publicKey := node.secret.publicKey
  let address ← w.encoder.encodePublicKey publicKey
  return ⟨position, node.secret.toBytes, publicKey, address⟩

/-- The wallet as a key service whose world is its memory. -/
def deriver (w : Wallet) : Deriver Memory where
  derive seed position memory :=
    let (outcome, memory) := w.derive seed position memory
    (⟨outcome, false⟩, memory)

def describe (w : Wallet) : String :=
  Text.Record.render "HdKeyDeriver"
    [("purpose", Text.Decimal.render w.purpose.toNat),
      ("coin_type", Text.Decimal.render w.coinType.toNat),
      ("hrp", Text.Quoted.render w.encoder.hrp)]

end Wallet

end KeySearch.Derivation
