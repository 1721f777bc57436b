import KeySearch.Text.Decimal
import KeySearch.Text.Quoted
import KeySearch.Text.Record

/-! Why a key could not be derived. -/

namespace KeySearch.Derivation

/-- The numbers of a derivation path that a caller chooses. -/
inductive Level where
  | purpose | coinType | account | address
  deriving DecidableEq

def Level.toText : Level → String
  | .purpose => "purpose"
  | .coinType => "coin type"
  | .account => "account"
  | .address => "address"

inductive Error where
  /-- A number of the path reaches into the range of hardened numbers. -/
  | indexOutOfRange (level : Level) (index : UInt64)
  /-- A step of the derivation left the range of secret keys. -/
  | invalidKey
  /-- The address could not be written, for the given reason. -/
  | encoding (reason : String)
  /-- A failure of some other key service, in its own words. -/
  | other (text : String)
  deriving DecidableEq

namespace Error

def message : Error → String
  | .indexOutOfRange level index =>
    level.toText ++ " index " ++ Text.Decimal.render index.toNat ++ " exceeds the BIP32 range"
  | .invalidKey => "derived key material is not a valid secp256k1 scalar"
  | .encoding reason => "address encoding failed: " ++ reason
  | .other text => text

def describe : Error → String
  | .indexOutOfRange level index =>
    Text.Record.render "IndexOutOfRange"
      [("kind", Text.Quoted.render level.toText), ("index", Text.Decimal.render index.toNat)]
  | .invalidKey => "InvalidKey"
  | .encoding reason => Text.Record.wrap "Encoding" (Text.Quoted.render reason)
  | .other text => Text.Record.wrap "Other" (Text.Quoted.render text)

end Error

end KeySearch.Derivation
