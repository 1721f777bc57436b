import KeySearch.Derivation.Error
import KeySearch.Position

/-! The path from the root of a wallet to one key: purpose, coin type and account, all hardened,
then the receiving chain and the address. Every number that a caller chooses has to leave the top
bit of a word free, because that bit marks a hardened number. -/

namespace KeySearch.Derivation

/-- The bit that marks a hardened number. -/
def hardened : UInt32 := 0x80000000

/-- The first number that is too large for a path. -/
def indexBound : Nat := 0x80000000

/-- The chain of addresses handed out for receiving. -/
def receiveChain : UInt32 := 0

/-- A number of the path as a word, if it leaves the top bit free. -/
def pathNumber (level : Level) (index : UInt64) : Except Error UInt32 :=
  if index.toNat < indexBound then .ok index.toUInt32 else .error (.indexOutOfRange level index)

/-- The five numbers of a path as they enter the derivation. -/
structure Path where
  (purpose coinType account chain address : UInt32)
  deriving DecidableEq

namespace Path

/-- The path of a position; of several numbers that are too large the first one is reported. -/
def ofPosition (purpose coinType : UInt32) (position : Position) : Except Error Path := do
  let purpose ← pathNumber .purpose purpose.toUInt64
  let coinType ← pathNumber .coinType coinType.toUInt64
  let account ← pathNumber .account position.account
  let address ← pathNumber .address position.address
  return ⟨purpose ||| hardened, coinType ||| hardened, account ||| hardened, receiveChain, address⟩

/-- The numbers down to the account. -/
def toAccount (p : Path) : List UInt32 := [p.purpose, p.coinType, p.account]

/-- The numbers from the account down to the key. -/
def belowAccount (p : Path) : List UInt32 := [p.chain, p.address]

def toList (p : Path) : List UInt32 := p.toAccount ++ p.belowAccount

end Path

end KeySearch.Derivation
