import KeySearch.Text.Decimal
import KeySearch.Text.Record

/-! Positions of keys: an account and an address within it. Positions are ordered by account first
and by address within an account. -/

namespace KeySearch

structure Position where
  account : UInt64
  address : UInt64
  deriving DecidableEq, Inhabited

namespace Position

/-- The account decides, and between equal accounts the address. -/
def order (p q : Position) : Ordering :=
  (compare p.account q.account).then (compare p.address q.address)

instance : Ord Position := ⟨order⟩
instance : LT Position := ltOfOrd
instance : LE Position := leOfOrd
instance : Min Position := minOfLe
instance : Max Position := maxOfLe

/-- Positions in increasing order. -/
def sort (ps : List Position) : List Position := ps.mergeSort fun p q => (p.order q).isLE

/-! ### Texts -/

def toText (p : Position) : String :=
  "account " ++ Text.Decimal.render p.account.toNat ++ " / address " ++
    Text.Decimal.render p.address.toNat

/-- The two fields of a position as they are shown within a record. -/
def fields (p : Position) : List (String × String) :=
  [("account_index", Text.Decimal.render p.account.toNat),
    ("address_index", Text.Decimal.render p.address.toNat)]

def describe (p : Position) : String := Text.Record.render "DerivationIndexPair" p.fields

end Position

end KeySearch
