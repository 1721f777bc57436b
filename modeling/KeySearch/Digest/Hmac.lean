import KeySearch.Digest.Sha512

/-! Keyed digests over SHA-512 (HMAC), and the stretching of a password by many of them (PBKDF2). A
key enters only through the two chains that its padded forms lead to, so these are computed once and
kept as a `PreparedKey`. -/

namespace KeySearch.Digest

/-- The SHA-512 chains after the inner and the outer padded key. -/
structure PreparedKey where
  (inner outer : Sha512.Chain)
  deriving DecidableEq

namespace PreparedKey

/-- A key of one block: longer keys are digested first, and zeros fill the rest. -/
def block (key : Bytes) : Bytes :=
  let short := if key.length > 128 then Sha512.digest key else key
  short ++ List.replicate (128 - short.length) 0

def ofKey (key : Bytes) : PreparedKey where
  inner := Sha512.compress .start ((block key).map (· ^^^ 0x36))
  outer := Sha512.compress .start ((block key).map (· ^^^ 0x5c))

/-- The tag of a message: the outer digest of the inner one. -/
def tag (key : PreparedKey) (message : Bytes) : Bytes :=
  (Sha512.finish key.outer 128 (Sha512.finish key.inner 128 message).toBytes).toBytes

@[simp] theorem length_tag (key : PreparedKey) (message : Bytes) :
    (key.tag message).length = 64 := rfl

end PreparedKey

def hmacSha512 (key message : Bytes) : Bytes := (PreparedKey.ofKey key).tag message

@[simp] theorem length_hmacSha512 (key message : Bytes) :
    (hmacSha512 key message).length = 64 := rfl

/-! ### Stretching -/

/-- Adds `n` further tags, each of the tag before it, to `sum`. -/
def stretchFrom (key : PreparedKey) (tag sum : Bytes) : (n : Nat) → Bytes
  | 0 => sum
  | n + 1 =>
    let next := key.tag tag
    stretchFrom key next (sum.zipWith (· ^^^ ·) next) n

/-- One block of key material from a password and a salt, by `rounds` tags. -/
def stretch (password salt : Bytes) (rounds : Nat) : Bytes :=
  let key := PreparedKey.ofKey password
  let first := key.tag (salt ++ Bytes.ofUInt32 1)
  stretchFrom key first first (rounds - 1)

theorem length_stretchFrom (key : PreparedKey) (tag sum : Bytes) (n : Nat)
    (h : sum.length = 64) : (stretchFrom key tag sum n).length = 64 := by
  induction n generalizing tag sum with
  | zero => exact h
  | succ n ih => exact ih _ _ (by simp [h])

@[simp] theorem length_stretch (password salt : Bytes) (rounds : Nat) :
    (stretch password salt rounds).length = 64 :=
  length_stretchFrom _ _ _ _ rfl

end KeySearch.Digest
