import KeySearch.Bytes

/-! Hexadecimal text of byte strings: two lower-case digits a byte in writing, either case in
reading. Reading a written text gives the bytes back. -/

namespace KeySearch.Text.Hex

def digit (n : Nat) : Char := "0123456789abcdef".toList.getD n '0'

def value? (c : Char) : Option Nat :=
  if '0' ≤ c ∧ c ≤ '9' then some (c.toNat - 48)
  else if 'a' ≤ c ∧ c ≤ 'f' then some (c.toNat - 87)
  else if 'A' ≤ c ∧ c ≤ 'F' then some (c.toNat - 55)
  else none

def encodeByte (b : UInt8) : List Char := [digit (b.toNat / 16), digit (b.toNat % 16)]

def encode (bs : Bytes) : List Char := bs.flatMap encodeByte

/-- Refuses an odd count of digits and everything that is no digit. -/
def decode : List Char → Option Bytes
  | [] => some []
  | [_] => none
  | a :: b :: rest => do
    let high ← value? a
    let low ← value? b
    let bs ← decode rest
    return UInt8.ofNat (16 * high + low) :: bs

theorem value?_digit : ∀ n : Fin 16, value? (digit n) = some n.val := by decide

theorem decode_encode (bs : Bytes) : decode (encode bs) = some bs := by
  induction bs with
  | nil => rfl
  | cons b bs ih =>
    have hb := b.toNat_lt
    have high := value?_digit ⟨b.toNat / 16, by omega⟩
    have low := value?_digit ⟨b.toNat % 16, by omega⟩
    simp only [encode, List.flatMap_cons] at ih ⊢
    simp only [encodeByte, List.cons_append, List.nil_append, decode, high, low, ih,
      Option.bind_eq_bind, Option.bind_some, Option.pure_def, Option.some.injEq, List.cons.injEq,
      and_true]
    rw [← UInt8.toNat_inj, UInt8.toNat_ofNat']
    omega

/-- The hexadecimal text of bytes. -/
def render (bs : Bytes) : String := String.ofList (encode bs)

/-- The bytes that a hexadecimal text stands for. -/
def parse? (s : String) : Option Bytes := decode s.toList

end KeySearch.Text.Hex
