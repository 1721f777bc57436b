import KeySearch.Position
import KeySearch.Text.Hex
import KeySearch.Text.Quoted

/-! A derived key: its position, both halves of the key pair as bytes, and its address. The text for
people leaves the private half out. -/

namespace KeySearch

structure Key where
  position : Position
  privateKey : Bytes
  publicKey : Bytes
  address : String
  deriving DecidableEq

namespace Key

/-- The key without its private half. -/
def describe (k : Key) : String :=
  Text.Record.renderPartly "GeneratedKey" <| k.position.fields ++
    [("public_key", Text.Quoted.render (Text.Hex.render k.publicKey)),
      ("address", Text.Quoted.render k.address)]

end Key

end KeySearch
