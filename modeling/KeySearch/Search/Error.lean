import KeySearch.ConfigError
import KeySearch.Derivation.Error
import KeySearch.Position

/-! Why a search ended without keys. -/

namespace KeySearch.Search

/-- A key that could not be derived, with the reason. -/
structure Failure where
  position : Position
  cause : Derivation.Error
  deriving DecidableEq

inductive Error where
  | configuration (fault : ConfigError)
  | derivation (failure : Failure)
  | cancelled
  /-- The search was allowed this many iterations. -/
  | iterationLimit (limit : UInt64)
  /-- The next batch, from this index on, would reach past the last index. -/
  | indexSpaceExhausted (index : UInt64)
  deriving DecidableEq

namespace Error

def message : Error → String
  | .configuration fault => "configuration error: " ++ fault.message
  | .derivation failure =>
    "derivation failed at " ++ failure.position.toText ++ ": " ++ failure.cause.message
  | .cancelled => "search cancelled"
  | .iterationLimit limit =>
    "no complete result after " ++ Text.Decimal.render limit.toNat ++ " iterations"
  | .indexSpaceExhausted index =>
    "derivation index space exhausted after index " ++ Text.Decimal.render index.toNat

/-- The message of the error underneath, where there is one. -/
def source : Error → Option String
  | .configuration fault => some fault.message
  | .derivation failure => some failure.cause.message
  | _ => none

def describe : Error → String
  | .configuration fault => Text.Record.wrap "Configuration" fault.describe
  | .derivation failure =>
    Text.Record.render "Derivation"
      [("indices", failure.position.describe), ("source", failure.cause.describe)]
  | .cancelled => "Cancelled"
  | .iterationLimit limit =>
    Text.Record.wrap "IterationLimit" (Text.Decimal.render limit.toNat)
  | .indexSpaceExhausted index =>
    Text.Record.wrap "IndexSpaceExhausted" (Text.Decimal.render index.toNat)

end Error

end KeySearch.Search
