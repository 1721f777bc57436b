import KeySearch.Key
import KeySearch.Text.JsonString

/-! Positions and keys as JSON objects without spaces, their fields in a fixed order: the indices as
decimal numbers, the byte strings in lower-case hexadecimal, the address as a string. `decode` reads
this layout with any spelling of the strings, and refuses numbers beyond 64 bits. -/

namespace KeySearch

open Text

namespace Position

/-- The two indices with their names, without the braces of an object. -/
def jsonFields (p : Position) : List Char :=
  "\"account_index\":".toList ++ Decimal.encode p.account.toNat ++
    (",\"address_index\":".toList ++ Decimal.encode p.address.toNat)

def encode (p : Position) : List Char := '\x7b' :: (p.jsonFields ++ ['\x7d'])

def json (p : Position) : String := String.ofList p.encode

end Position

namespace Key

def encode (k : Key) : List Char :=
  '\x7b' :: (k.position.jsonFields ++
    (",\"private_key\":".toList ++ (JsonString.encode (Hex.encode k.privateKey) ++
      (",\"public_key\":".toList ++ (JsonString.encode (Hex.encode k.publicKey) ++
        (",\"address\":".toList ++ (JsonString.encode k.address.toList ++ ['\x7d'])))))))

def json (k : Key) : String := String.ofList k.encode

/-! ### Reading -/

/-- A number of at most 64 bits behind the given characters. -/
def decodeIndex (token cs : List Char) : Option (UInt64 × List Char) := do
  let cs ← expect token cs
  let (n, cs) ← Decimal.decode cs
  if n < UInt64.size then some (UInt64.ofNat n, cs) else none

/-- Bytes in hexadecimal, as a string behind the given characters. -/
def decodeBytes (token cs : List Char) : Option (Bytes × List Char) := do
  let cs ← expect token cs
  let (digits, cs) ← JsonString.decode cs
  let bs ← Hex.decode digits
  return (bs, cs)

def decode (cs : List Char) : Option Key := do
  let (account, cs) ← decodeIndex "\x7b\"account_index\":".toList cs
  let (address, cs) ← decodeIndex ",\"address_index\":".toList cs
  let (privateKey, cs) ← decodeBytes ",\"private_key\":".toList cs
  let (publicKey, cs) ← decodeBytes ",\"public_key\":".toList cs
  let cs ← expect ",\"address\":".toList cs
  let (text, cs) ← JsonString.decode cs
  if cs = ['\x7d'] then
    some ⟨⟨account, address⟩, privateKey, publicKey, String.ofList text⟩
  else none

/-- The key that a JSON text stands for. -/
def ofJson? (s : String) : Option Key := decode s.toList

end Key

end KeySearch
