import KeySearch.Address.Bech32
import KeySearch.Derivation.Error
import KeySearch.Digest.Hash160

/-! Addresses of public keys: version zero of the witness program that is the fingerprint of the
key, in Bech32 behind the human-readable part of the network. -/

namespace KeySearch.Address

/-- The human-readable part of the main network. -/
def mainHrp : String := "bc"

/-- Writes addresses behind one human-readable part, which is not checked before it is used. -/
structure Encoder where
  hrp : String
  deriving DecidableEq

namespace Encoder

def main : Encoder := ⟨mainHrp⟩

def witnessVersion : Bech32.Quint := ⟨0, by decide⟩

/-- The witness version and the program in values of five bits. -/
def payload (program : Bytes) : List Bech32.Quint :=
  witnessVersion :: Bech32.groups (Bech32.bits program)

/-- The address of the fingerprint of a public key. -/
def encodeHash (e : Encoder) (hash : Bytes) : Except Derivation.Error String :=
  (Bech32.encode e.hrp (payload hash)).mapError fun error => .encoding error.message

def encodePublicKey (e : Encoder) (publicKey : Bytes) : Except Derivation.Error String :=
  e.encodeHash (Digest.hash160 publicKey)

def describe (e : Encoder) : String :=
  Text.Record.render "AddressEncoder" [("hrp", Text.Quoted.render e.hrp)]

end Encoder

end KeySearch.Address
