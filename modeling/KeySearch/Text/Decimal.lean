/-! Natural numbers in decimal digits. Reading takes all the digits at the head of a text, so a
written number is read back in front of anything that does not go on with a digit. -/

namespace KeySearch.Text.Decimal

def encode (n : Nat) : List Char := Nat.toDigits 10 n

/-- The number at the head of a text, and what follows it. -/
def decode (cs : List Char) : Option (Nat × List Char) :=
  match cs.takeWhile Char.isDigit with
  | [] => none
  | digits => some (Nat.ofDigitChars 10 digits 0, cs.dropWhile Char.isDigit)

theorem takeWhile_encode_append (n : Nat) {rest : List Char}
    (h : ∀ c ∈ rest.head?, c.isDigit = false) :
    (encode n ++ rest).takeWhile Char.isDigit = encode n ∧
      (encode n ++ rest).dropWhile Char.isDigit = rest := by
  have all : ∀ c ∈ encode n, c.isDigit = true := fun c hc =>
    Nat.isDigit_of_mem_toDigits (by decide) (by decide) hc
  rw [List.takeWhile_append_of_pos all, List.dropWhile_append_of_pos all]
  cases rest with
  | nil => simp
  | cons c rest => simp_all

theorem decode_encode_append (n : Nat) {rest : List Char}
    (h : ∀ c ∈ rest.head?, c.isDigit = false) :
    decode (encode n ++ rest) = some (n, rest) := by
  obtain ⟨taken, dropped⟩ := takeWhile_encode_append n h
  unfold decode
  split
  · rename_i empty
    rw [taken] at empty
    exact absurd empty Nat.toDigits_ne_nil
  · rw [taken, dropped, encode, Nat.ofDigitChars_ten_toDigits]

/-- The decimal text of a number. -/
def render (n : Nat) : String := String.ofList (encode n)

end KeySearch.Text.Decimal
