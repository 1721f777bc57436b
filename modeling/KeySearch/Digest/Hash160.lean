import KeySearch.Digest.Sha256
import KeySearch.Digest.Ripemd160

/-! The twenty-byte fingerprint of a public key: the RIPEMD-160 digest of its SHA-256 digest. -/

namespace KeySearch.Digest

def hash160 (data : Bytes) : Bytes := Ripemd160.digest (Sha256.digest data)

@[simp] theorem length_hash160 (data : Bytes) : (hash160 data).length = 20 := rfl

end KeySearch.Digest
