import KeySearch.Proofs.Address.HumanReadable
import Mathlib.Logic.Basic

/-! What is wrong with a human-readable part. The length is looked at first; then the first byte
that may not stand behind the bytes before it is the fault (`FirstFault`), be it that it is not
visible or that it brings in letters of the other case. A part without fault is plain text: each of
its bytes is a character of its own, as the bytes of all other characters are out of range. -/

namespace KeySearch.Address.Bech32

/-! ### The first fault -/

/-- A byte that may stand in a human-readable part. -/
def IsVisible (b : UInt8) : Prop := 33 ≤ b ∧ b ≤ 126

/-- The bytes are visible, without letters of both cases. -/
def IsClean (bs : Bytes) : Prop :=
  (∀ b ∈ bs, IsVisible b) ∧ (bs.any isLower = false ∨ bs.any isUpper = false)

/-- The error for the first thing that is wrong with a human-readable part. -/
inductive FirstFault : Bytes → Error → Prop
  | length {hrp : Bytes} (unfit : hrp = [] ∨ 83 < hrp.length) : FirstFault hrp .invalidLength
  | hidden {front rest : Bytes} {b : UInt8} (fits : (front ++ b :: rest).length ≤ 83)
      (clean : IsClean front) (hidden : ¬ IsVisible b) :
      FirstFault (front ++ b :: rest) (.invalidChar (Char.ofNat b.toNat))
  | mixed {front rest : Bytes} {b : UInt8} (fits : (front ++ b :: rest).length ≤ 83)
      (clean : IsClean front) (visible : IsVisible b)
      (both : (front ++ [b]).any isLower = true ∧ (front ++ [b]).any isUpper = true) :
      FirstFault (front ++ b :: rest) .mixedCase

theorem checkBytes_append (seen : Cases) (front rest : Bytes) :
    checkBytes seen (front ++ rest) =
      checkBytes seen front >>= fun seen => checkBytes seen rest := by
  induction front generalizing seen with
  | nil => rfl
  | cons b front ih =>
    rw [List.cons_append, checkBytes, checkBytes]
    split
    · rfl
    · dsimp only
      split
      · rfl
      · exact ih _

/-- Where bytes are refused there is a first one that is. -/
theorem exists_of_checkBytes_error {seen : Cases} {bs : Bytes} {error : Error}
    (h : checkBytes seen bs = .error error) :
    ∃ front b rest last, bs = front ++ b :: rest ∧ checkBytes seen front = .ok last ∧
      checkBytes last [b] = .error error := by
  induction bs generalizing seen with
  | nil => cases h
  | cons b bs ih =>
    cases first : checkBytes seen [b] with
    | error e =>
      refine ⟨[], b, bs, seen, rfl, rfl, ?_⟩
      rw [← List.singleton_append, checkBytes_append, first] at h
      cases h
      exact first
    | ok next =>
      rw [← List.singleton_append, checkBytes_append, first] at h
      obtain ⟨front, c, rest, last, rfl, before, refused⟩ := ih h
      refine ⟨b :: front, c, rest, last, rfl, ?_, refused⟩
      rw [← List.singleton_append, checkBytes_append, first]
      exact before

theorem seen_of_checkBytes {seen last : Cases} {bs : Bytes} (h : checkBytes seen bs = .ok last) :
    last = ⟨seen.lower || bs.any isLower, seen.upper || bs.any isUpper⟩ := by
  induction bs generalizing seen with
  | nil =>
    cases h
    simp
  | cons b bs ih =>
    rw [checkBytes] at h
    split at h
    · cases h
    · dsimp only at h
      split at h
      · cases h
      · rw [ih h, Cases.see_eq, List.any_cons, List.any_cons, Bool.or_assoc, Bool.or_assoc]

theorem isClean_iff {bs : Bytes} :
    IsClean bs ↔ checkBytes ⟨false, false⟩ bs = .ok ⟨bs.any isLower, bs.any isUpper⟩ := by
  have accepted : (∃ last, checkBytes ⟨false, false⟩ bs = .ok last) ↔
      (∀ b ∈ bs, 33 ≤ b ∧ b ≤ 126) ∧ (bs.any isLower && bs.any isUpper) = false :=
    exists_checkBytes_iff rfl
  rw [Bool.and_eq_false_iff] at accepted
  constructor
  · intro clean
    obtain ⟨last, checked⟩ := accepted.2 clean
    rw [checked, seen_of_checkBytes checked]
    rfl
  · intro checked
    exact accepted.1 ⟨_, checked⟩

theorem not_isVisible_iff {b : UInt8} : ¬ IsVisible b ↔ b < 33 ∨ 126 < b := by
  rw [IsVisible, not_and_or, UInt8.not_le, UInt8.not_le]

theorem checkBytes_singleton_eq_error_iff {seen : Cases} {b : UInt8} {error : Error} :
    checkBytes seen [b] = .error error ↔
      ¬ IsVisible b ∧ error = .invalidChar (Char.ofNat b.toNat) ∨
        IsVisible b ∧ ((seen.lower || isLower b) = true ∧ (seen.upper || isUpper b) = true) ∧
          error = .mixedCase := by
  rw [checkBytes, Cases.see_eq]
  by_cases visible : IsVisible b
  · have ifHidden : ¬ (b < 33 ∨ 126 < b) := fun hidden => not_isVisible_iff.2 hidden visible
    rw [if_neg ifHidden]
    dsimp only
    rw [← Bool.and_eq_true]
    by_cases both : ((seen.lower || isLower b) && (seen.upper || isUpper b)) = true
    · rw [if_pos both, Except.error.injEq, eq_comm]
      simp only [visible, both, not_true_eq_false, false_and, true_and, false_or]
    · rw [if_neg both]
      simp only [checkBytes, visible, both, reduceCtorEq, not_true_eq_false, false_and, and_false,
        or_false]
  · rw [if_pos (not_isVisible_iff.1 visible), Except.error.injEq, eq_comm]
    simp only [visible, not_false_eq_true, false_and, true_and, or_false]

theorem checkHrp_eq_error_iff_of_fits {hrp : Bytes} {error : Error} (nonempty : hrp ≠ [])
    (short : hrp.length ≤ 83) :
    checkHrp hrp = .error error ↔ checkBytes ⟨false, false⟩ hrp = .error error := by
  have fits : ¬ (hrp.isEmpty = true ∨ 83 < hrp.length) := by
    rw [not_or, List.isEmpty_iff, Nat.not_lt]
    exact ⟨nonempty, short⟩
  rw [checkHrp, if_neg fits]
  cases checkBytes ⟨false, false⟩ hrp <;> simp [Except.map]

/-- Behind clean bytes it is the next byte alone that is refused or not. -/
theorem checkBytes_of_clean {front rest : Bytes} {b : UInt8} {error : Error}
    (clean : IsClean front)
    (refused : checkBytes ⟨front.any isLower, front.any isUpper⟩ [b] = .error error) :
    checkBytes ⟨false, false⟩ (front ++ b :: rest) = .error error := by
  rw [checkBytes_append, isClean_iff.1 clean, ← List.singleton_append]
  change checkBytes _ ([b] ++ rest) = _
  rw [checkBytes_append, refused]
  rfl

theorem checkHrp_eq_error_iff {hrp : Bytes} {error : Error} :
    checkHrp hrp = .error error ↔ FirstFault hrp error := by
  constructor
  · intro refused
    by_cases unfit : hrp = [] ∨ 83 < hrp.length
    · rw [checkHrp, if_pos (by rwa [List.isEmpty_iff])] at refused
      cases refused
      exact .length unfit
    · rw [not_or, Nat.not_lt] at unfit
      rw [checkHrp_eq_error_iff_of_fits unfit.1 unfit.2] at refused
      obtain ⟨front, b, rest, last, rfl, before, stop⟩ := exists_of_checkBytes_error refused
      have seen := seen_of_checkBytes before
      rw [Bool.false_or, Bool.false_or] at seen
      have clean : IsClean front := isClean_iff.2 (seen ▸ before)
      rw [seen, checkBytes_singleton_eq_error_iff] at stop
      rcases stop with ⟨hidden, rfl⟩ | ⟨visible, both, rfl⟩
      · exact .hidden unfit.2 clean hidden
      · exact .mixed unfit.2 clean visible (by simpa [List.any_append] using both)
  · intro fault
    have nonempty (front rest : Bytes) (b : UInt8) : front ++ b :: rest ≠ [] := by simp
    cases fault with
    | length unfit => rw [checkHrp, if_pos (by rwa [List.isEmpty_iff])]
    | @hidden front rest b fits clean hidden =>
      rw [checkHrp_eq_error_iff_of_fits (nonempty front rest b) fits]
      exact checkBytes_of_clean clean (checkBytes_singleton_eq_error_iff.2 (.inl ⟨hidden, rfl⟩))
    | @mixed front rest b fits clean visible both =>
      rw [checkHrp_eq_error_iff_of_fits (nonempty front rest b) fits]
      refine checkBytes_of_clean clean
        (checkBytes_singleton_eq_error_iff.2 (.inr ⟨visible, ?_, rfl⟩))
      simpa [List.any_append] using both

/-- A human-readable part keeps the rules or has a first fault. -/
theorem exists_firstFault_iff {hrp : Bytes} : (∃ fault, FirstFault hrp fault) ↔ ¬ IsHrp hrp := by
  simp only [← checkHrp_eq_error_iff]
  constructor
  · rintro ⟨fault, refused⟩ rules
    rw [checkHrp_eq_ok_iff.2 ⟨rules, rfl⟩] at refused
    cases refused
  · intro improper
    cases checked : checkHrp hrp with
    | error fault => exact ⟨fault, rfl⟩
    | ok lower => exact absurd (checkHrp_eq_ok_iff.1 checked).1 improper

/-! ### Visible characters -/

/-- A character whose bytes are visible has one byte, its number. -/
theorem utf8EncodeChar_of_visible {c : Char} (h : ∀ b ∈ String.utf8EncodeChar c, IsVisible b) :
    c.toNat < 127 ∧ String.utf8EncodeChar c = [UInt8.ofNat c.toNat] := by
  have small {n : Nat} (lt : n < 256) (visible : IsVisible (UInt8.ofNat n)) : n ≤ 126 := by
    have le := UInt8.le_iff_toNat_le.1 visible.2
    rwa [UInt8.toNat_ofNat_of_lt' lt] at le
  have number : c.val.toNat = c.toNat := rfl
  unfold String.utf8EncodeChar at h ⊢
  dsimp only at h ⊢
  rw [number] at h ⊢
  -- The first byte of a longer encoding is 192 or more.
  split at h
  · rename_i le
    rw [if_pos le]
    exact ⟨Nat.lt_succ_of_le (small (by omega) (h _ List.mem_cons_self)), rfl⟩
  · exfalso
    split at h
    · have := small (by omega) (h _ List.mem_cons_self)
      omega
    · split at h
      · have := small (by omega) (h _ List.mem_cons_self)
        omega
      · have := small (by omega) (h _ List.mem_cons_self)
        omega

theorem lowerByte_ofNat {c : Char} (lt : c.toNat < 127) :
    lowerByte (UInt8.ofNat c.toNat) = c.toLower := by
  have all : ∀ n < 127, lowerByte (UInt8.ofNat n) = (Char.ofNat n).toLower := by decide
  rw [all c.toNat lt, Char.ofNat_toNat]

/-- Visible bytes are put into lower case one by one as their characters are. -/
theorem map_lowerByte_ofChars {cs : List Char} (h : ∀ b ∈ Bytes.ofChars cs, IsVisible b) :
    (Bytes.ofChars cs).map lowerByte = cs.map Char.toLower := by
  induction cs with
  | nil => rfl
  | cons c cs ih =>
    rw [Bytes.ofChars, List.flatMap_cons, ← Bytes.ofChars] at h ⊢
    obtain ⟨first, rest⟩ := List.forall_mem_append.1 h
    obtain ⟨lt, single⟩ := utf8EncodeChar_of_visible first
    rw [single, List.map_append, ih rest, List.map_cons, List.map_nil, lowerByte_ofNat lt,
      List.singleton_append, List.map_cons]

theorem IsHrp.map_lowerByte {hrp : String} (h : IsHrp (Bytes.ofString hrp)) :
    (Bytes.ofString hrp).map lowerByte = hrp.toLower.toList := by
  have lower : hrp.toLower.toList = hrp.toList.map Char.toLower := String.toList_map
  rw [lower]
  exact map_lowerByte_ofChars h.visible

end KeySearch.Address.Bech32
