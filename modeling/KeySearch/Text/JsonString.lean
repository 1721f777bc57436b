import KeySearch.Text.Hex

/-! Strings of the JSON format. `Spells` lists the ways in which the format can spell a character:
as it stands, by a letter behind a backslash, by its number in four hexadecimal digits, and beyond
16 bits by the numbers of a surrogate pair. Writing escapes what must be escaped and nothing else:
the quote, the backslash and the control characters below the space, by a letter where there is one
and otherwise with lower-case digits. Reading understands every spelling and nothing else, stops at
the closing quote and hands back what follows it, so a string can be read in front of anything.
`expect` reads the fixed text between the values of an object. -/

namespace KeySearch.Text

/-- What follows the given characters, if the text starts with them. -/
def expect : (token : List Char) → List Char → Option (List Char)
  | [], cs => some cs
  | t :: token, c :: cs => if t = c then expect token cs else none
  | _ :: _, [] => none

theorem expect_append (token rest : List Char) : expect token (token ++ rest) = some rest := by
  induction token with
  | nil => rfl
  | cons t token ih => simp [expect, ih]

theorem eq_append_of_expect {token cs rest : List Char} (h : expect token cs = some rest) :
    cs = token ++ rest := by
  induction token generalizing cs with
  | nil => exact Option.some.inj h
  | cons t token ih =>
    cases cs with
    | nil => cases h
    | cons c cs =>
      rw [expect] at h
      split at h
      next same => rw [same, ih h, List.cons_append]
      next => cases h

namespace JsonString

/-! ### Writing -/

/-- The letter of a two-character escape and the character that it means. -/
def letters : List (Char × Char) :=
  [('"', '"'), ('\\', '\\'), ('b', '\x08'), ('t', '\t'), ('n', '\n'), ('f', '\x0c'), ('r', '\r')]

def escape (c : Char) : List Char :=
  match letters.find? (·.2 == c) with
  | some (letter, _) => ['\\', letter]
  | none =>
    if c.toNat < 0x20 then
      ['\\', 'u', '0', '0', Hex.digit (c.toNat / 16), Hex.digit (c.toNat % 16)]
    else [c]

def encode (cs : List Char) : List Char := '"' :: cs.flatMap escape ++ ['"']

/-! ### Spellings -/

/-- The escapes by a letter: the solidus has one that writing never uses. -/
def allLetters : List (Char × Char) := ('/', '/') :: letters

/-- Whether a character may stand for itself. -/
def isPlain (c : Char) : Bool := 0x20 ≤ c.toNat && c != '"' && c != '\\'

/-- Whether a 16-bit number is the first half of a pair. -/
def isHigh (n : Nat) : Bool := 0xD800 ≤ n && n < 0xDC00

/-- Whether a 16-bit number is the second half of a pair. -/
def isLow (n : Nat) : Bool := 0xDC00 ≤ n && n < 0xE000

/-- The character that the two halves of a pair stand for. -/
def ofPair (high low : Nat) : Char :=
  Char.ofNat (0x10000 + 0x400 * (high - 0xD800) + (low - 0xDC00))

/-- Four hexadecimal digits of either case, and their number. -/
inductive IsCodeUnit : List Char → Nat → Prop
  | digits {a b c d : Char} {i j k l : Nat} (first : Hex.value? a = some i)
      (second : Hex.value? b = some j) (third : Hex.value? c = some k)
      (fourth : Hex.value? d = some l) : IsCodeUnit [a, b, c, d] (16 * (16 * (16 * i + j) + k) + l)

/-- The spellings of a character within a string. Half a pair stands for nothing. -/
inductive Spells : List Char → Char → Prop
  | plain {c : Char} (plain : isPlain c = true) : Spells [c] c
  | letter {l c : Char} (mem : (l, c) ∈ allLetters) : Spells ['\\', l] c
  | number {ds : List Char} {n : Nat} (codeUnit : IsCodeUnit ds n) (notHigh : isHigh n = false)
      (notLow : isLow n = false) : Spells ('\\' :: 'u' :: ds) (Char.ofNat n)
  | pair {ds es : List Char} {m n : Nat} (first : IsCodeUnit ds m) (high : isHigh m = true)
      (second : IsCodeUnit es n) (low : isLow n = true) :
      Spells ('\\' :: 'u' :: (ds ++ '\\' :: 'u' :: es)) (ofPair m n)

/-- Spelled characters, one after the other. -/
inductive SpellsAll : List Char → List Char → Prop
  | nil : SpellsAll [] []
  | cons {front rest cs : List Char} {c : Char} (first : Spells front c)
      (others : SpellsAll rest cs) : SpellsAll (front ++ rest) (c :: cs)

/-- A string of the format, and the characters that it stands for. -/
def IsString (text cs : List Char) : Prop :=
  ∃ body, SpellsAll body cs ∧ text = '"' :: body ++ ['"']

/-! ### Reading -/

/-- The number in the four digits at the head of a text, and what follows it. -/
def decodeUnit : List Char → Option (Nat × List Char)
  | a :: b :: c :: d :: rest => do
    let i ← Hex.value? a
    let j ← Hex.value? b
    let k ← Hex.value? c
    let l ← Hex.value? d
    return (16 * (16 * (16 * i + j) + k) + l, rest)
  | _ => none

/-- The character that is spelled by numbers, the first of which is at the head of the text. -/
def decodeNumber (cs : List Char) : Option (Char × List Char) := do
  let (m, cs) ← decodeUnit cs
  if isHigh m then
    let cs ← expect ['\\', 'u'] cs
    let (n, cs) ← decodeUnit cs
    if isLow n then some (ofPair m n, cs) else none
  else if isLow m then none
  else some (Char.ofNat m, cs)

/-- The character whose escape the text goes on with. -/
def decodeEscape : List Char → Option (Char × List Char)
  | [] => none
  | l :: rest =>
    if l = 'u' then decodeNumber rest
    else (allLetters.find? (·.1 == l)).map fun (_, c) => (c, rest)

/-- The character that is spelled at the head of a text, and what follows it. -/
def decodeChar : List Char → Option (Char × List Char)
  | [] => none
  | c :: rest =>
    if c = '\\' then decodeEscape rest else if isPlain c then some (c, rest) else none

variable {cs front rest : List Char} {c : Char} {n : Nat}

theorem decodeUnit_eq_some_iff :
    decodeUnit cs = some (n, rest) ↔ ∃ ds, IsCodeUnit ds n ∧ cs = ds ++ rest := by
  constructor
  · intro h
    fun_cases decodeUnit cs with
    | case1 a b c d rest' =>
      simp only [decodeUnit, Option.bind_eq_bind, Option.bind_eq_some_iff, Option.pure_def,
        Option.some.injEq, Prod.mk.injEq] at h
      obtain ⟨i, first, j, second, k, third, l, fourth, rfl, rfl⟩ := h
      exact ⟨[a, b, c, d], .digits first second third fourth, rfl⟩
    | case2 => simp_all [decodeUnit]
  · rintro ⟨_, ⟨first, second, third, fourth⟩, rfl⟩
    simp [decodeUnit, first, second, third, fourth]

theorem exists_of_decodeNumber (h : decodeNumber cs = some (c, rest)) :
    ∃ front, Spells ('\\' :: 'u' :: front) c ∧ cs = front ++ rest := by
  simp only [decodeNumber, Option.bind_eq_bind, Option.bind_eq_some_iff, Prod.exists] at h
  obtain ⟨m, behind, unit, h⟩ := h
  obtain ⟨ds, first, rfl⟩ := decodeUnit_eq_some_iff.1 unit
  split at h
  next high =>
    simp only [Option.bind_eq_some_iff, Prod.exists] at h
    obtain ⟨next, token, n, after, unit', h⟩ := h
    obtain rfl := eq_append_of_expect token
    obtain ⟨es, second, rfl⟩ := decodeUnit_eq_some_iff.1 unit'
    split at h
    next low =>
      obtain ⟨rfl, rfl⟩ := Prod.mk.inj (Option.some.inj h)
      exact ⟨_, .pair first high second low, by simp⟩
    next => cases h
  next notHigh =>
    split at h
    next => cases h
    next notLow =>
      obtain ⟨rfl, rfl⟩ := Prod.mk.inj (Option.some.inj h)
      exact ⟨ds, .number first (Bool.eq_false_iff.2 notHigh) (Bool.eq_false_iff.2 notLow), rfl⟩

theorem exists_of_decodeEscape (h : decodeEscape cs = some (c, rest)) :
    ∃ front, Spells ('\\' :: front) c ∧ cs = front ++ rest := by
  cases cs with
  | nil => cases h
  | cons l behind =>
    rw [decodeEscape] at h
    split at h
    next number =>
      obtain ⟨front, spells, rfl⟩ := exists_of_decodeNumber h
      exact ⟨'u' :: front, spells, by rw [number, List.cons_append]⟩
    next =>
      obtain ⟨⟨l', c'⟩, found, same⟩ := Option.map_eq_some_iff.1 h
      obtain ⟨rfl, rfl⟩ := Prod.mk.inj same
      have isLetter : l' = l := by simpa using List.find?_some found
      exact ⟨[l], .letter (isLetter ▸ List.mem_of_find?_eq_some found), rfl⟩

/-- What is read is a spelling of the character. -/
theorem exists_of_decodeChar (h : decodeChar cs = some (c, rest)) :
    ∃ front, Spells front c ∧ cs = front ++ rest := by
  cases cs with
  | nil => cases h
  | cons d behind =>
    rw [decodeChar] at h
    split at h
    next escaped =>
      obtain ⟨front, spells, rfl⟩ := exists_of_decodeEscape h
      exact ⟨'\\' :: front, spells, by rw [escaped, List.cons_append]⟩
    next =>
      split at h
      next plain =>
        obtain ⟨rfl, rfl⟩ := Prod.mk.inj (Option.some.inj h)
        exact ⟨[d], .plain plain, rfl⟩
      next => cases h

/-- A spelled character begins with something, and not as the closing quote does. -/
theorem Spells.exists_head (h : Spells front c) : ∃ d behind, front = d :: behind ∧ d ≠ '"' := by
  cases h with
  | plain plain =>
    refine ⟨c, [], rfl, ?_⟩
    rintro rfl
    exact absurd plain (by decide)
  | letter | number | pair => exact ⟨_, _, rfl, by decide⟩

/-- Reading a character takes something off the text, so reading a string ends. -/
theorem length_of_decodeChar (h : decodeChar cs = some (c, rest)) : rest.length < cs.length := by
  obtain ⟨front, spells, rfl⟩ := exists_of_decodeChar h
  obtain ⟨d, behind, rfl, -⟩ := spells.exists_head
  simp only [List.cons_append, List.length_cons, List.length_append]
  omega

/-- The characters up to the closing quote, and what follows it. -/
def decodeBody (cs : List Char) : Option (List Char × List Char) :=
  if cs.head? = some '"' then some ([], cs.tail)
  else
    match _h : decodeChar cs with
    | none => none
    | some (c, rest) => (decodeBody rest).map fun (cs, after) => (c :: cs, after)
  termination_by cs.length
  decreasing_by exact length_of_decodeChar _h

/-- A string at the head of a text, and what follows it. -/
def decode (cs : List Char) : Option (List Char × List Char) := do
  decodeBody (← expect ['"'] cs)

end JsonString

end KeySearch.Text
