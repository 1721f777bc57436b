import KeySearch.Seed

/-! What a mnemonic phrase stands for. The words of a text are its maximal runs of characters other
than white space (`Runs`), which says where each of them begins and ends and nothing of how they are
found. Words joined by single spaces have themselves as words, so the joined phrase is a normal form
of all phrases with the same words. As no two texts have the same bytes, what is stretched tells the
words and the passphrase, and it tells nothing else. -/

namespace KeySearch

namespace Bytes

/-- Different texts have different bytes. -/
theorem ofChars_injective : Function.Injective ofChars := by
  intro cs ds same
  have encoded : cs.utf8Encode = ds.utf8Encode := congrArg List.toByteArray same
  rwa [← String.toByteArray_ofList, ← String.toByteArray_ofList, String.toByteArray_inj,
    String.ofList_inj] at encoded

theorem ofString_injective : Function.Injective ofString :=
  fun _ _ same => String.toList_inj.1 (ofChars_injective same)

theorem ofString_append (s t : String) : ofString (s ++ t) = ofString s ++ ofString t := by
  rw [ofString, String.toList_append, ofChars, List.flatMap_append]
  rfl

end Bytes

namespace Text

/-! ### Words -/

/-- Nothing but white space. -/
def IsGap (cs : List Char) : Prop := ∀ c ∈ cs, isBlank c = true

/-- One character or more, none of them white space. -/
structure IsWord (w : List Char) : Prop where
  nonempty : w ≠ []
  solid : ∀ c ∈ w, isBlank c = false

/-- The text is at its end or goes on with white space. -/
def Pauses (cs : List Char) : Prop := ∀ c ∈ cs.head?, isBlank c = true

/-- The maximal runs of a text without white space, in order: each begins with the text or behind a
gap, and ends with the text or before a gap. -/
inductive Runs : List Char → List (List Char) → Prop
  | gap {cs : List Char} (blank : IsGap cs) : Runs cs []
  | word {front w rest : List Char} {ws : List (List Char)} (blank : IsGap front) (word : IsWord w)
    (pauses : Pauses rest) (later : Runs rest ws) : Runs (front ++ w ++ rest) (w :: ws)

variable {cs front gap rest w : List Char} {ws : List (List Char)}

/-- White space divides a text into parts with words of their own. -/
theorem words_append_cons {c : Char} (h : isBlank c = true) (front rest : List Char) :
    words (front ++ c :: rest) = words front ++ words rest := by
  rw [words, List.splitOnP_append_cons front rest h, List.filter_append]
  rfl

theorem words_gap_append (blank : IsGap gap) (cs : List Char) : words (gap ++ cs) = words cs := by
  induction gap with
  | nil => rfl
  | cons c gap ih =>
    obtain ⟨first, others⟩ := List.forall_mem_cons.1 blank
    rw [List.cons_append, words_blank_cons _ first, ih others]

theorem words_of_isGap (blank : IsGap gap) : words gap = [] := by
  rw [← List.append_nil gap, words_gap_append blank]
  rfl

theorem words_of_isWord (h : IsWord w) : words w = [w] := by
  rw [words, List.splitOnP_eq_singleton h.solid]
  simp [h.nonempty]

theorem words_append_of_pauses (front : List Char) (pauses : Pauses rest) :
    words (front ++ rest) = words front ++ words rest := by
  cases rest with
  | nil =>
    rw [List.append_nil]
    exact (List.append_nil _).symm
  | cons c rest =>
    have blank : isBlank c = true := pauses c rfl
    rw [words_append_cons blank, words_blank_cons _ blank]

/-- Any gap between two parts does for any other. -/
theorem words_append_gap_append (blank : IsGap gap) (nonempty : gap ≠ []) (front rest : List Char) :
    words (front ++ (gap ++ rest)) = words front ++ words rest := by
  have pauses : Pauses (gap ++ rest) := by
    obtain ⟨c, others, rfl⟩ := List.exists_cons_of_ne_nil nonempty
    rintro _ ⟨⟩
    exact blank c List.mem_cons_self
  rw [words_append_of_pauses front pauses, words_gap_append blank]

theorem Runs.words_eq (h : Runs cs ws) : words cs = ws := by
  induction h with
  | gap blank => exact words_of_isGap blank
  | word blank word pauses _ ih =>
    rw [List.append_assoc, words_gap_append blank, words_append_of_pauses _ pauses,
      words_of_isWord word, ih]
    rfl

theorem exists_runs (cs : List Char) : ∃ ws, Runs cs ws := by
  induction cs with
  | nil => exact ⟨[], .gap fun _ mem => absurd mem List.not_mem_nil⟩
  | cons c cs ih =>
    obtain ⟨ws, runs⟩ := ih
    by_cases blank : isBlank c = true
    -- White space widens the gap before the first run.
    · cases runs with
      | gap others => exact ⟨_, .gap (List.forall_mem_cons.2 ⟨blank, others⟩)⟩
      | @word front w rest ws others word pauses later =>
        have wider : IsGap (c :: front) := List.forall_mem_cons.2 ⟨blank, others⟩
        exact ⟨_, .word wider word pauses later⟩
    -- Any other character is a run of its own before a gap, and otherwise prolongs the first run.
    · have solid : isBlank c = false := Bool.eq_false_iff.2 blank
      have nothing : IsGap [] := fun _ mem => absurd mem List.not_mem_nil
      have single : IsWord [c] := ⟨List.cons_ne_nil _ _, List.forall_mem_singleton.2 solid⟩
      cases runs with
      | gap others =>
        refine ⟨_, .word nothing single (fun d head => ?_) (.gap others)⟩
        exact others d (List.mem_of_mem_head? head)
      | @word front w rest ws others word pauses later =>
        cases front with
        | nil =>
          exact ⟨_, .word nothing
            ⟨List.cons_ne_nil _ _, List.forall_mem_cons.2 ⟨solid, word.solid⟩⟩ pauses later⟩
        | cons d front =>
          refine ⟨_, .word nothing single (fun e head => ?_)
            (.word others word pauses later)⟩
          obtain rfl := Option.some.inj head
          exact others d List.mem_cons_self

/-- The words of a text are its maximal runs without white space. -/
theorem runs_iff : Runs cs ws ↔ words cs = ws := by
  refine ⟨Runs.words_eq, ?_⟩
  rintro rfl
  obtain ⟨ws, runs⟩ := exists_runs cs
  rwa [runs.words_eq]

theorem Runs.isWord (h : Runs cs ws) : ∀ w ∈ ws, IsWord w := by
  induction h with
  | gap => exact fun _ mem => absurd mem List.not_mem_nil
  | word _ word _ _ ih => exact List.forall_mem_cons.2 ⟨word, ih⟩

/-- Words joined by single spaces are the words of the joined text. -/
theorem words_unwords (h : ∀ w ∈ ws, IsWord w) : words (unwords ws) = ws := by
  induction ws with
  | nil => rfl
  | cons w ws ih =>
    obtain ⟨first, others⟩ := List.forall_mem_cons.1 h
    cases ws with
    | nil =>
      rw [unwords, List.intercalate_singleton]
      exact words_of_isWord first
    | cons v ws =>
      have space : isBlank ' ' = true := by decide
      rw [unwords, List.intercalate_cons_cons, List.append_assoc, List.singleton_append,
        words_append_cons space, words_of_isWord first, ← unwords, ih others]
      rfl

theorem words_unwords_words (cs : List Char) : words (unwords (words cs)) = words cs :=
  words_unwords (runs_iff.2 rfl).isWord

theorem unwords_words_inj {cs' : List Char} :
    unwords (words cs) = unwords (words cs') ↔ words cs = words cs' := by
  refine ⟨fun same => ?_, congrArg unwords⟩
  rw [← words_unwords_words cs, same, words_unwords_words]

end Text

namespace Seed

open Text

variable {phrase phrase' passphrase passphrase' : String}

/-- The phrase in the form in which it is stretched. -/
def normalize (phrase : String) : String := String.ofList (unwords (words phrase.toList))

theorem toList_normalize (phrase : String) :
    (normalize phrase).toList = unwords (words phrase.toList) := String.toList_ofList

theorem words_normalize (phrase : String) :
    words (normalize phrase).toList = words phrase.toList := by
  rw [toList_normalize, words_unwords_words]

theorem normalize_normalize (phrase : String) :
    normalize (normalize phrase) = normalize phrase := by
  rw [normalize, words_normalize]
  rfl

theorem password_eq_ofString (phrase : String) :
    password phrase = Bytes.ofString (normalize phrase) := by
  rw [password, Bytes.ofString, toList_normalize]

theorem password_eq_iff :
    password phrase = password phrase' ↔ words phrase.toList = words phrase'.toList := by
  rw [password, password, Bytes.ofChars_injective.eq_iff, unwords_words_inj]

theorem salt_eq_iff : salt passphrase = salt passphrase' ↔ passphrase = passphrase' := by
  rw [salt, salt, List.append_cancel_left_eq, Bytes.ofString_injective.eq_iff]

/-- A phrase has its part in the seed by its words. -/
theorem ofMnemonic_congr (same : words phrase.toList = words phrase'.toList)
    (passphrase : String) : ofMnemonic phrase passphrase = ofMnemonic phrase' passphrase := by
  rw [ofMnemonic, ofMnemonic, password_eq_iff.2 same]

/-- A seed is what a password and a salt are stretched to, in a fixed number of rounds. The words of a
phrase are its maximal runs without white space. They are all that it has to do with the seed: the
password is the same for two phrases exactly if the words are; it is the text of
the phrase in normal form, which has the same words and is its own normal form; and white space at
either end, or more of it or of another kind between two words, makes no difference. Behind its
fixed word the salt is the passphrase as it stands, so password and salt together tell the words and
the passphrase. -/
theorem mnemonic_stands_for_its_words :
    (∀ phrase passphrase : String, ofMnemonic phrase passphrase =
      ⟨Digest.stretch (password phrase) (salt passphrase) stretchRounds⟩) ∧
    (∀ (phrase : String) ws, words phrase.toList = ws ↔ Runs phrase.toList ws) ∧
    (∀ phrase phrase' : String, words phrase.toList = words phrase'.toList →
      ∀ passphrase, ofMnemonic phrase passphrase = ofMnemonic phrase' passphrase) ∧
    (∀ phrase phrase' : String,
      password phrase = password phrase' ↔ words phrase.toList = words phrase'.toList) ∧
    (∀ phrase : String, password phrase = Bytes.ofString (normalize phrase) ∧
      words (normalize phrase).toList = words phrase.toList ∧
      normalize (normalize phrase) = normalize phrase) ∧
    (∀ lead trail gap gap' : String, IsGap lead.toList → IsGap trail.toList → IsGap gap.toList →
      IsGap gap'.toList → gap ≠ "" → gap' ≠ "" →
      ∀ front rest passphrase, ofMnemonic (lead ++ front ++ gap ++ rest ++ trail) passphrase =
        ofMnemonic (front ++ gap' ++ rest) passphrase) ∧
    (∀ passphrase, salt passphrase = Bytes.ofString ("mnemonic" ++ passphrase)) ∧
    ∀ phrase phrase' passphrase passphrase' : String,
      password phrase = password phrase' ∧ salt passphrase = salt passphrase' ↔
        words phrase.toList = words phrase'.toList ∧ passphrase = passphrase' := by
  refine ⟨fun phrase passphrase => rfl, fun phrase ws => runs_iff.symm,
    fun phrase phrase' same => ofMnemonic_congr same, fun phrase phrase' => password_eq_iff,
    fun phrase => ⟨password_eq_ofString phrase, words_normalize phrase, normalize_normalize phrase⟩,
    ?_, fun passphrase => (Bytes.ofString_append _ _).symm,
    fun phrase phrase' passphrase passphrase' => and_congr password_eq_iff salt_eq_iff⟩
  intro lead trail gap gap' leads trails blank blank' nonempty nonempty' front rest passphrase
  have divides {between : String} (blank : IsGap between.toList) (nonempty : between ≠ "") :
      words (front ++ between ++ rest).toList = words front.toList ++ words rest.toList := by
    have some : between.toList ≠ [] := fun none => nonempty (String.toList_eq_nil_iff.1 none)
    rw [String.toList_append, String.toList_append, List.append_assoc,
      words_append_gap_append blank some]
  have pauses : Pauses trail.toList := fun c head => trails c (List.mem_of_mem_head? head)
  apply ofMnemonic_congr
  calc words (lead ++ front ++ gap ++ rest ++ trail).toList
    _ = words (lead.toList ++ (front ++ gap ++ rest).toList ++ trail.toList) := by
        simp only [String.toList_append, List.append_assoc]
    _ = words (front ++ gap ++ rest).toList := by
        rw [words_append_of_pauses _ pauses, words_gap_append leads, words_of_isGap trails,
          List.append_nil]
    _ = words (front ++ gap' ++ rest).toList := (divides blank nonempty).trans
        (divides blank' nonempty').symm

/-- An ideographic space in front, an em space with a tab in between and a line end behind make no
difference to what is stretched; without any space there is another word, and another password. -/
theorem mnemonic_stands_for_its_words_ideographic :
    ofMnemonic ("\u3000" ++ "ab" ++ "\u2003\t" ++ "cd" ++ "\n") " x" =
        ofMnemonic ("ab" ++ " " ++ "cd") " x" ∧
      ofMnemonic ("\u3000" ++ "ab" ++ "\u2003\t" ++ "cd" ++ "\n") " x" =
        ⟨Digest.stretch (Bytes.ofString "ab cd") (Bytes.ofString "mnemonic x") stretchRounds⟩ ∧
      password "ab cd" ≠ password "abcd" ∧ salt " x" ≠ salt "x" := by
  obtain ⟨stretched, -, -, passwords, normal, gaps, salts, both⟩ := mnemonic_stands_for_its_words
  have lead : IsGap "\u3000".toList := List.all_eq_true.1 (by decide)
  have trail : IsGap "\n".toList := List.all_eq_true.1 (by decide)
  have between : IsGap "\u2003\t".toList := List.all_eq_true.1 (by decide)
  have space : IsGap " ".toList := List.all_eq_true.1 (by decide)
  have tidy := gaps _ _ _ _ lead trail between space (by decide) (by decide) "ab" "cd" " x"
  have text : normalize ("ab" ++ " " ++ "cd") = "ab cd" := by decide
  refine ⟨tidy, ?_, fun same => ?_, fun same => ?_⟩
  · rw [tidy, stretched, (normal _).1, text, salts]
    rfl
  · have words : Text.words "ab cd".toList ≠ Text.words "abcd".toList := by decide
    exact words ((passwords _ _).1 same)
  · have apart : " x" ≠ "x" := by decide
    exact apart ((both "" "" " x" "x").1 ⟨rfl, same⟩).2

end Seed

end KeySearch
