import KeySearch.Address.Encoder

/-! Human-readable parts. The bytes are read in order, with a note of the letters seen so far, and
are accepted exactly if there are 1 to 83 of them, all visible, without letters of both cases
(`IsHrp`). With such a part every public key has an address. -/

namespace KeySearch.Address

namespace Bech32

def isLower (b : UInt8) : Bool := 0x61 ≤ b && b ≤ 0x7a

def isUpper (b : UInt8) : Bool := 0x41 ≤ b && b ≤ 0x5a

/-- The rules for a human-readable part. -/
structure IsHrp (hrp : Bytes) : Prop where
  nonempty : hrp ≠ []
  short : hrp.length ≤ 83
  visible : ∀ b ∈ hrp, 33 ≤ b ∧ b ≤ 126
  oneCase : hrp.any isLower = false ∨ hrp.any isUpper = false

theorem Cases.see_eq (seen : Cases) (b : UInt8) :
    seen.see b = ⟨seen.lower || isLower b, seen.upper || isUpper b⟩ := rfl

/-- The bytes are accepted behind letters of one case if all are visible and add none of the other.
-/
theorem exists_checkBytes_iff {seen : Cases} (one : (seen.lower && seen.upper) = false)
    {bs : Bytes} :
    (∃ last, checkBytes seen bs = .ok last) ↔
      (∀ b ∈ bs, 33 ≤ b ∧ b ≤ 126) ∧
        ((seen.lower || bs.any isLower) && (seen.upper || bs.any isUpper)) = false := by
  induction bs generalizing seen with
  | nil => simp [checkBytes, one]
  | cons b rest ih =>
    rw [checkBytes, List.forall_mem_cons, List.any_cons, List.any_cons, ← Bool.or_assoc,
      ← Bool.or_assoc]
    by_cases hidden : b < 33 ∨ 126 < b
    · rw [if_pos hidden]
      refine iff_of_false (by simp) fun rules => ?_
      rcases hidden with low | high
      · exact UInt8.not_lt.2 rules.1.1.1 low
      · exact UInt8.not_lt.2 rules.1.1.2 high
    · rw [not_or, UInt8.not_lt, UInt8.not_lt] at hidden
      rw [if_neg (by simpa [UInt8.not_lt] using hidden), Cases.see_eq, and_iff_right hidden]
      dsimp only
      by_cases mixed : ((seen.lower || isLower b) && (seen.upper || isUpper b)) = true
      · rw [if_pos mixed]
        refine iff_of_false (by simp) fun rules => ?_
        rw [Bool.and_eq_true] at mixed
        simp [mixed] at rules
      · rw [if_neg mixed]
        exact ih (Bool.eq_false_iff.2 mixed)

theorem checkHrp_eq_ok_iff {hrp : Bytes} {lower : List Char} :
    checkHrp hrp = .ok lower ↔ IsHrp hrp ∧ hrp.map lowerByte = lower := by
  have bytes : (∃ last, checkBytes ⟨false, false⟩ hrp = .ok last) ↔
      (∀ b ∈ hrp, 33 ≤ b ∧ b ≤ 126) ∧ (hrp.any isLower && hrp.any isUpper) = false :=
    exists_checkBytes_iff rfl
  rw [Bool.and_eq_false_iff] at bytes
  unfold checkHrp
  by_cases size : hrp.isEmpty = true ∨ 83 < hrp.length
  · rw [if_pos size]
    refine iff_of_false (by simp) fun ⟨rules, _⟩ => ?_
    rcases size with empty | long
    · exact rules.nonempty (List.isEmpty_iff.1 empty)
    · exact Nat.not_le_of_lt long rules.short
  · rw [if_neg size]
    rw [not_or, List.isEmpty_iff, Nat.not_lt] at size
    cases checked : checkBytes ⟨false, false⟩ hrp with
    | error e =>
      refine iff_of_false (by simp [Except.map]) fun ⟨rules, _⟩ => ?_
      obtain ⟨last, accepted⟩ := bytes.2 ⟨rules.visible, rules.oneCase⟩
      rw [checked] at accepted
      cases accepted
    | ok last =>
      obtain ⟨visible, oneCase⟩ := bytes.1 ⟨last, checked⟩
      have rules : IsHrp hrp := ⟨size.1, size.2, visible, oneCase⟩
      simp [Except.map, rules]

end Bech32

/-- Behind a proper human-readable part every public key has an address. -/
theorem Encoder.exists_encodePublicKey {e : Encoder} (h : Bech32.IsHrp (Bytes.ofString e.hrp))
    (publicKey : Bytes) : ∃ address, e.encodePublicKey publicKey = .ok address := by
  have checked := Bech32.checkHrp_eq_ok_iff.2 ⟨h, rfl⟩
  rw [encodePublicKey, encodeHash, Bech32.encode, checked]
  exact ⟨_, rfl⟩

/-- The part of the main network. -/
theorem isHrp_mainHrp : Bech32.IsHrp (Bytes.ofString mainHrp) := by
  have bytes : Bytes.ofString mainHrp = [0x62, 0x63] := by cbv
  rw [bytes]
  exact ⟨List.cons_ne_nil _ _, by decide, by simp, by decide⟩

end KeySearch.Address
