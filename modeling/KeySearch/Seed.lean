import KeySearch.Digest.Hmac
import KeySearch.Text.Blank
import KeySearch.Text.Decimal

/-! Seeds, from which all keys of a wallet come: any bytes, or the stretching of a mnemonic phrase.
Of a phrase only its words count, of a passphrase every character. The text for people tells how
long a seed is and nothing else. -/

namespace KeySearch

structure Seed where
  bytes : Bytes
  deriving DecidableEq

namespace Seed

/-- The length of a seed made from a phrase. -/
def stretchedLength : Nat := 64

/-- The rounds of stretching that a phrase goes through. -/
def stretchRounds : Nat := 2048

/-- The phrase as it is stretched: its words, joined by single spaces. -/
def password (phrase : String) : Bytes := Bytes.ofChars (Text.unwords (Text.words phrase.toList))

/-- The passphrase as it is stretched, behind a fixed word. -/
def salt (passphrase : String) : Bytes := Bytes.ofString "mnemonic" ++ Bytes.ofString passphrase

def ofMnemonic (phrase passphrase : String) : Seed :=
  ⟨Digest.stretch (password phrase) (salt passphrase) stretchRounds⟩

def length (s : Seed) : Nat := s.bytes.length

def isEmpty (s : Seed) : Bool := s.bytes.isEmpty

/-- The length of a seed in place of its bytes. -/
def describe (s : Seed) : String :=
  "Seed(<" ++ Text.Decimal.render s.length ++ " bytes redacted>)"

@[simp] theorem length_ofMnemonic (phrase passphrase : String) :
    (ofMnemonic phrase passphrase).length = stretchedLength := by
  simp only [length, ofMnemonic, Digest.length_stretch, stretchedLength]

end Seed

end KeySearch
