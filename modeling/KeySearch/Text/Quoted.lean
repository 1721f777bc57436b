import KeySearch.Text.Unprintable

/-! Texts between quotes, for people to read. A quote and a backslash inside get a backslash before
them, the usual control characters a letter (`\n`, `\t`, `\r`, `\0`), other unprintable characters
their code point in braces (`\u` and lower-case hexadecimal digits), and all else stands for
itself, the apostrophe included. -/

namespace KeySearch.Text.Quoted

def escape (c : Char) : List Char :=
  if c = '"' ∨ c = '\\' then ['\\', c]
  else if c = '\n' then ['\\', 'n']
  else if c = '\t' then ['\\', 't']
  else if c = '\r' then ['\\', 'r']
  else if c = '\x00' then ['\\', '0']
  else if isUnprintable c then "\\u\x7b".toList ++ Nat.toDigits 16 c.toNat ++ ['\x7d']
  else [c]

def encode (cs : List Char) : List Char := '"' :: cs.flatMap escape ++ ['"']

/-- The text between quotes. -/
def render (s : String) : String := String.ofList (encode s.toList)

end KeySearch.Text.Quoted
