import KeySearch.Key.Json

/-! Keys and their JSON texts. `HasText` gives the layout of the text of a key, with each string in
any spelling that the format has for it, whatever a writer chooses to escape. Every such text is
read as the key: a spelled character in front of anything, spelled characters up to the quote that
closes them, digits up to the comma. As the text that is written is one of them, no two keys share
it. -/

namespace KeySearch

namespace Text.JsonString

variable {cs front rest : List Char} {c : Char} {n : Nat}

/-! ### Strings -/

theorem decodeUnit_append {ds : List Char} (h : IsCodeUnit ds n) (rest : List Char) :
    decodeUnit (ds ++ rest) = some (n, rest) := decodeUnit_eq_some_iff.2 ⟨ds, h, rfl⟩

/-- A letter is found with its own meaning, and none of them announces a number. -/
theorem find?_allLetters : ∀ p ∈ allLetters,
    allLetters.find? (·.1 == p.1) = some p ∧ p.1 ≠ 'u' := by decide

/-- A spelled character is read in front of anything. -/
theorem decodeChar_append (h : Spells front c) (rest : List Char) :
    decodeChar (front ++ rest) = some (c, rest) := by
  cases h with
  | plain plain =>
    have unescaped : c ≠ '\\' := by
      rintro rfl
      exact absurd plain (by decide)
    simp [decodeChar, unescaped, plain]
  | letter mem =>
    obtain ⟨found, notNumber⟩ := find?_allLetters _ mem
    simp [decodeChar, decodeEscape, notNumber, found]
  | number codeUnit notHigh notLow =>
    simp [decodeChar, decodeEscape, decodeNumber, decodeUnit_append codeUnit, notHigh, notLow]
  | pair first high second low =>
    simp [decodeChar, decodeEscape, decodeNumber, decodeUnit_append first, high, expect,
      decodeUnit_append second, low]

/-- Half a pair is the spelling of nothing. -/
example : decodeChar "\\uD83D\"".toList = none := by decide

theorem decodeBody_of_decodeChar (continues : cs.head? ≠ some '"')
    (h : decodeChar cs = some (c, rest)) :
    decodeBody cs = (decodeBody rest).map fun (cs, after) => (c :: cs, after) := by
  rw [decodeBody, if_neg continues]
  split
  next nothing => cases h.symm.trans nothing
  next same =>
    obtain ⟨rfl, rfl⟩ := Prod.mk.inj (Option.some.inj (h.symm.trans same))
    rfl

theorem decodeBody_append {body chars : List Char} (h : SpellsAll body chars) (rest : List Char) :
    decodeBody (body ++ '"' :: rest) = some (chars, rest) := by
  induction h with
  | nil =>
    rw [decodeBody]
    rfl
  | @cons front behind chars c first _ ih =>
    obtain ⟨d, _, rfl, noQuote⟩ := first.exists_head
    rw [List.append_assoc,
      decodeBody_of_decodeChar (by simpa using noQuote) (decodeChar_append first _), ih,
      Option.map_some]

theorem exists_of_decodeBody {chars : List Char} (h : decodeBody cs = some (chars, rest)) :
    ∃ body, SpellsAll body chars ∧ cs = body ++ '"' :: rest := by
  fun_induction decodeBody cs generalizing chars with
  | case1 cs closes =>
    obtain ⟨rfl, rfl⟩ := Prod.mk.inj (Option.some.inj h)
    obtain ⟨behind, rfl⟩ := List.head?_eq_some_iff.1 closes
    exact ⟨[], .nil, rfl⟩
  | case2 => cases h
  | case3 cs continues c behind read ih =>
    obtain ⟨_, others, same⟩ := Option.map_eq_some_iff.1 h
    obtain ⟨rfl, rfl⟩ := Prod.mk.inj same
    obtain ⟨body, spells, rfl⟩ := ih others
    obtain ⟨front, first, rfl⟩ := exists_of_decodeChar read
    exact ⟨front ++ body, .cons first spells, (List.append_assoc _ _ _).symm⟩

/-- A text is read as a string exactly if it begins with a spelling of it between quotes. -/
theorem decode_eq_some_iff {chars : List Char} :
    decode cs = some (chars, rest) ↔ ∃ text, IsString text chars ∧ cs = text ++ rest := by
  constructor
  · intro h
    obtain ⟨behind, quote, h⟩ := Option.bind_eq_some_iff.1 h
    obtain ⟨body, spells, rfl⟩ := exists_of_decodeBody h
    exact ⟨_, ⟨body, spells, rfl⟩, by simpa using eq_append_of_expect quote⟩
  · rintro ⟨_, ⟨body, spells, rfl⟩, rfl⟩
    simpa [decode, expect] using decodeBody_append spells rest

theorem IsString.decode_append {text chars : List Char} (h : IsString text chars)
    (rest : List Char) : decode (text ++ rest) = some (chars, rest) :=
  decode_eq_some_iff.2 ⟨text, h, rfl⟩

/-! ### What is written -/

theorem isCodeUnit_of_lt {n : Nat} (h : n < 0x100) :
    IsCodeUnit ['0', '0', Hex.digit (n / 16), Hex.digit (n % 16)] n := by
  have zero : Hex.value? '0' = some 0 := rfl
  have high := Hex.value?_digit ⟨n / 16, by omega⟩
  have low := Hex.value?_digit ⟨n % 16, by omega⟩
  have value : 16 * (16 * (16 * 0 + 0) + n / 16) + n % 16 = n := by omega
  simpa only [value] using IsCodeUnit.digits zero zero high low

/-- What is written for a character is one of its spellings. -/
theorem spells_escape (c : Char) : Spells (escape c) c := by
  rw [escape]
  split
  next l c' found =>
    have isMeant : c' = c := by simpa using List.find?_some found
    exact .letter (isMeant ▸ List.mem_cons_of_mem _ (List.mem_of_find?_eq_some found))
  next notFound =>
    have others : ∀ p ∈ letters, p.2 ≠ c := by simpa using List.find?_eq_none.1 notFound
    split
    next control =>
      have spelled := Spells.number (isCodeUnit_of_lt (Nat.lt_trans control (by decide)))
        (by simp [isHigh]; omega) (by simp [isLow]; omega)
      rwa [Char.ofNat_toNat] at spelled
    next visible =>
      have noQuote := others ('"', '"') (by decide)
      have noBackslash := others ('\\', '\\') (by decide)
      exact .plain (by simp [isPlain, Nat.not_lt.1 visible, noQuote.symm, noBackslash.symm])

theorem spellsAll_flatMap_escape (cs : List Char) : SpellsAll (cs.flatMap escape) cs := by
  induction cs with
  | nil => exact .nil
  | cons c cs ih => exact .cons (spells_escape c) ih

theorem isString_encode (cs : List Char) : IsString (encode cs) cs :=
  ⟨_, spellsAll_flatMap_escape cs, rfl⟩

end Text.JsonString

namespace Key

open Text

/-- A JSON text of a key: its fields in their order and nothing between them, the indices in decimal
digits, the byte strings in lower-case hexadecimal, and each string in any spelling. -/
inductive HasText : Key → List Char → Prop
  | object {account address : UInt64} {privateKey publicKey : Bytes} {label : String}
      {s t u : List Char} (privateText : JsonString.IsString s (Hex.encode privateKey))
      (publicText : JsonString.IsString t (Hex.encode publicKey))
      (labelText : JsonString.IsString u label.toList) :
      HasText ⟨⟨account, address⟩, privateKey, publicKey, label⟩
        ("\x7b\"account_index\":".toList ++ Decimal.encode account.toNat ++
          ",\"address_index\":".toList ++ Decimal.encode address.toNat ++
          ",\"private_key\":".toList ++ s ++ ",\"public_key\":".toList ++ t ++
          ",\"address\":".toList ++ u ++ ['\x7d'])

variable {k : Key} {text rest : List Char}

/-- An index is read up to the comma behind it. -/
theorem decodeIndex_append (token : List Char) (n : UInt64) {next : List Char}
    (comma : next.head? = some ',') (rest : List Char) :
    decodeIndex token (token ++ (Decimal.encode n.toNat ++ (next ++ rest))) =
      some (n, next ++ rest) := by
  have ends : ∀ c ∈ (next ++ rest).head?, c.isDigit = false := by
    rw [List.head?_append, comma]
    rintro c ⟨⟩
    rfl
  have fits : n.toNat < UInt64.size := n.toNat_lt_size
  simp [decodeIndex, expect_append, Decimal.decode_encode_append n.toNat ends, fits]

theorem decodeBytes_append (token : List Char) {bs : Bytes}
    (h : JsonString.IsString text (Hex.encode bs)) (rest : List Char) :
    decodeBytes token (token ++ (text ++ rest)) = some (bs, rest) := by
  simp [decodeBytes, expect_append, h.decode_append, Hex.decode_encode]

/-- Whatever spellings a text of a key uses, it is read as that key. -/
theorem decode_of_hasText (h : k.HasText text) : decode text = some k := by
  obtain ⟨privateText, publicText, labelText⟩ := h
  have first : ",\"address_index\":".toList.head? = some ',' := by decide
  have second : ",\"private_key\":".toList.head? = some ',' := by decide
  simp only [decode, List.append_assoc, Option.bind_eq_bind, Option.bind_some,
    decodeIndex_append _ _ first, decodeIndex_append _ _ second,
    decodeBytes_append _ privateText, decodeBytes_append _ publicText, expect_append,
    labelText.decode_append, if_true, String.ofList_toList]

theorem encode_eq (k : Key) : k.encode = "\x7b\"account_index\":".toList ++
    Decimal.encode k.position.account.toNat ++ ",\"address_index\":".toList ++
    Decimal.encode k.position.address.toNat ++ ",\"private_key\":".toList ++
    JsonString.encode (Hex.encode k.privateKey) ++ ",\"public_key\":".toList ++
    JsonString.encode (Hex.encode k.publicKey) ++ ",\"address\":".toList ++
    JsonString.encode k.address.toList ++ ['\x7d'] := by
  have opening : "\x7b\"account_index\":".toList = '\x7b' :: "\"account_index\":".toList := by
    decide
  rw [opening, encode]
  -- The equation lemma of `jsonFields` would evaluate the texts of the names.
  delta Position.jsonFields
  simp only [List.append_assoc, List.cons_append]

/-- The text that is written spells every string in the writer's own way. -/
theorem hasText_encode (k : Key) : k.HasText k.encode := by
  rw [encode_eq]
  exact .object (JsonString.isString_encode _) (JsonString.isString_encode _)
    (JsonString.isString_encode _)

/-- The JSON text of a key loses nothing of it. Whatever spellings a text of a key uses for its
strings, it is read as that key and as no other. What is written is such a text, so the key comes
back from it, and two keys have the same text exactly if they are equal. -/
theorem json_loses_nothing :
    (∀ (k : Key) (text : String), k.HasText text.toList → ofJson? text = some k) ∧
    (∀ k : Key, k.HasText k.json.toList) ∧
    (∀ k : Key, ofJson? k.json = some k) ∧
    ∀ k k' : Key, k.json = k'.json ↔ k == k' := by
  have written (k : Key) : k.HasText k.json.toList := by
    rw [json, String.toList_ofList]
    exact hasText_encode k
  have back (k : Key) : ofJson? k.json = some k := decode_of_hasText (written k)
  refine ⟨fun k text h => decode_of_hasText h, written, back, fun k k' => ?_⟩
  rw [beq_iff_eq]
  refine ⟨fun same => ?_, congrArg json⟩
  have read : some k = some k' := by rw [← back k, same, back k']
  exact Option.some.inj read

/-- The address holds a quote, a solidus and a character beyond 16 bits, spelled by number, by letter
and by a pair, next to the greatest index, a leading zero digit and an empty byte string. -/
theorem json_loses_nothing_spelledOut :
    ofJson? ("\x7b\"account_index\":" ++ "18446744073709551615" ++ ",\"address_index\":" ++ "0" ++
        ",\"private_key\":" ++ "\"0a\"" ++ ",\"public_key\":" ++ "\"\"" ++
        ",\"address\":" ++ "\"\\u0022\\/\\uD83d\\uDE00\"" ++ "\x7d") =
      some ⟨⟨0xFFFFFFFFFFFFFFFF, 0⟩, [0x0A], [], "\"/😀"⟩ := by
  have greatest : Decimal.encode (0xFFFFFFFFFFFFFFFF : UInt64).toNat =
    "18446744073709551615".toList := by decide
  have zero : Decimal.encode (0 : UInt64).toNat = "0".toList := by decide
  have privateKey : JsonString.encode (Hex.encode [0x0A]) = "\"0a\"".toList := by decide
  have publicKey : JsonString.encode (Hex.encode []) = "\"\"".toList := by decide
  have quote : JsonString.IsCodeUnit ['0', '0', '2', '2'] 0x22 :=
    .digits (i := 0) (j := 0) (k := 2) (l := 2) rfl rfl rfl rfl
  have high : JsonString.IsCodeUnit ['D', '8', '3', 'd'] 0xD83D :=
    .digits (i := 13) (j := 8) (k := 3) (l := 13) rfl rfl rfl rfl
  have low : JsonString.IsCodeUnit ['D', 'E', '0', '0'] 0xDE00 :=
    .digits (i := 13) (j := 14) (k := 0) (l := 0) rfl rfl rfl rfl
  have spelled := JsonString.SpellsAll.cons (.number quote rfl rfl) <|
    .cons (.letter (l := '/') (c := '/') (by decide)) <| .cons (.pair high rfl low rfl) .nil
  have address : JsonString.IsString "\"\\u0022\\/\\uD83d\\uDE00\"".toList "\"/😀".toList :=
    ⟨_, spelled, by decide⟩
  refine json_loses_nothing.1 _ _ ?_
  simp only [String.toList_append, ← greatest, ← zero, ← privateKey, ← publicKey]
  exact .object (JsonString.isString_encode _) (JsonString.isString_encode _) address

end Key

end KeySearch
