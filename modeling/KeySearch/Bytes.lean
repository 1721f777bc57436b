/-! Byte strings are lists, so that cutting and joining them are list operations. The module holds
the big-endian reading of a byte string as a number (`toNat`), the writing of a number with a fixed
count of bytes (`ofNat`), and the bytes of machine words and of text. Reading undoes writing for the
numbers that so many bytes can hold, of which there are `capacity`. -/

namespace KeySearch

abbrev Bytes := List UInt8

namespace Bytes

/-! ### Numbers -/

/-- The number that the bytes denote, the first byte being the most significant. -/
def toNat (bs : Bytes) : Nat := bs.foldl (fun n b => 256 * n + b.toNat) 0

/-- The last `width` digits of `n` to base 256, the most significant first. -/
def ofNat : (width : Nat) → (n : Nat) → Bytes
  | 0, _ => []
  | width + 1, n => ofNat width (n / 256) ++ [UInt8.ofNat n]

/-- How many numbers can be written with `width` bytes. -/
def capacity : (width : Nat) → Nat
  | 0 => 1
  | width + 1 => 256 * capacity width

@[simp] theorem length_ofNat (width n : Nat) : (ofNat width n).length = width := by
  induction width generalizing n with
  | zero => rfl
  | succ width ih => simp [ofNat, ih]

@[simp] theorem toNat_nil : toNat [] = 0 := rfl

theorem toNat_append_singleton (bs : Bytes) (b : UInt8) :
    toNat (bs ++ [b]) = 256 * toNat bs + b.toNat := by
  simp [toNat]

theorem toNat_ofNat (width n : Nat) : toNat (ofNat width n) = n % capacity width := by
  induction width generalizing n with
  | zero => simp [ofNat, capacity, Nat.mod_one]
  | succ width ih =>
    rw [ofNat, toNat_append_singleton, ih, capacity, Nat.mod_mul, UInt8.toNat_ofNat']
    omega

theorem toNat_ofNat_of_lt {width n : Nat} (h : n < capacity width) : toNat (ofNat width n) = n := by
  rw [toNat_ofNat, Nat.mod_eq_of_lt h]

theorem toNat_lt (bs : Bytes) : toNat bs < capacity bs.length := by
  suffices ∀ (n : Nat) (k : Nat), n < capacity k →
      bs.foldl (fun n b => 256 * n + b.toNat) n < capacity (k + bs.length) from by
    simpa [toNat] using this 0 0 (by decide)
  induction bs with
  | nil => intro n k h; simpa using h
  | cons b bs ih =>
    intro n k h
    have hb := b.toNat_lt
    have := ih (256 * n + b.toNat) (k + 1) (by rw [capacity]; omega)
    simpa [Nat.add_assoc, Nat.add_comm 1] using this

/-! ### Machine words -/

/-- The four bytes of a word, the most significant first. -/
def ofUInt32 (w : UInt32) : Bytes :=
  [(w >>> 24).toUInt8, (w >>> 16).toUInt8, (w >>> 8).toUInt8, w.toUInt8]

/-- The four bytes of a word, the least significant first. -/
def ofUInt32Little (w : UInt32) : Bytes :=
  [w.toUInt8, (w >>> 8).toUInt8, (w >>> 16).toUInt8, (w >>> 24).toUInt8]

/-- The eight bytes of a word, the most significant first. -/
def ofUInt64 (w : UInt64) : Bytes :=
  [(w >>> 56).toUInt8, (w >>> 48).toUInt8, (w >>> 40).toUInt8, (w >>> 32).toUInt8,
    (w >>> 24).toUInt8, (w >>> 16).toUInt8, (w >>> 8).toUInt8, w.toUInt8]

/-- Big-endian words of four bytes; a shorter rest is dropped. -/
def words32 : Bytes → List UInt32
  | a :: b :: c :: d :: rest =>
    (a.toUInt32 <<< 24 ||| b.toUInt32 <<< 16 ||| c.toUInt32 <<< 8 ||| d.toUInt32) :: words32 rest
  | _ => []

/-- Little-endian words of four bytes; a shorter rest is dropped. -/
def words32Little : Bytes → List UInt32
  | a :: b :: c :: d :: rest =>
    (d.toUInt32 <<< 24 ||| c.toUInt32 <<< 16 ||| b.toUInt32 <<< 8 ||| a.toUInt32) ::
      words32Little rest
  | _ => []

/-- Big-endian words of eight bytes; a shorter rest is dropped. -/
def words64 : Bytes → List UInt64
  | a :: b :: c :: d :: e :: f :: g :: h :: rest =>
    (a.toUInt64 <<< 56 ||| b.toUInt64 <<< 48 ||| c.toUInt64 <<< 40 ||| d.toUInt64 <<< 32 |||
      e.toUInt64 <<< 24 ||| f.toUInt64 <<< 16 ||| g.toUInt64 <<< 8 ||| h.toUInt64) :: words64 rest
  | _ => []

@[simp] theorem length_ofUInt32 (w : UInt32) : (ofUInt32 w).length = 4 := rfl
@[simp] theorem length_ofUInt32Little (w : UInt32) : (ofUInt32Little w).length = 4 := rfl
@[simp] theorem length_ofUInt64 (w : UInt64) : (ofUInt64 w).length = 8 := rfl

/-! ### Text -/

/-- The UTF-8 bytes of characters, one character after the other. -/
def ofChars (cs : List Char) : Bytes := cs.flatMap String.utf8EncodeChar

/-- The UTF-8 bytes of a text. -/
def ofString (s : String) : Bytes := ofChars s.toList

end Bytes

end KeySearch
