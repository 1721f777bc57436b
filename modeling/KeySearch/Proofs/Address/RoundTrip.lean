import KeySearch.Proofs.Address.Checksum
import KeySearch.Proofs.Address.Faults
import KeySearch.Proofs.Address.Groups
import Mathlib.Data.List.TakeDrop

/-! Addresses say what they were made from. No character of the alphabet is the separator, so the
last separator of a text is the one that was written behind the human-readable part, whatever stands
in that part; the characters behind it stand for the values that were written, with a checksum that
comes out as one (`decode?_written`). Of an address these values are the witness version and the
fingerprint in fives, which come out even. So the address of a fingerprint determines it, together
with the human-readable part in lower case, and there is one unless that part has a fault. -/

namespace KeySearch.Address

namespace Bech32

/-! ### Characters -/

theorem toChar_mem (q : Quint) : toChar q ∈ alphabet := by
  revert q
  decide

theorem ofChar?_toChar (q : Quint) : ofChar? (toChar q) = some q := by
  revert q
  decide

theorem mapM_ofChar?_map_toChar (qs : List Quint) : (qs.map toChar).mapM ofChar? = some qs := by
  induction qs with
  | nil => rfl
  | cons q qs ih =>
    rw [List.map_cons, List.mapM_cons, ofChar?_toChar, ih]
    rfl

theorem mem_alphabet_of_mem_map {qs : List Quint} {c : Char} (mem : c ∈ qs.map toChar) :
    c ∈ alphabet := by
  obtain ⟨q, -, rfl⟩ := List.mem_map.1 mem
  exact toChar_mem q

theorem separator_notMem (qs : List Quint) : '1' ∉ qs.map toChar := by
  intro mem
  have : '1' ∉ alphabet := by decide
  exact this (mem_alphabet_of_mem_map mem)

/-! ### Texts -/

theorem splitLast_append {before after : List Char} (h : '1' ∉ after) :
    splitLast (before ++ '1' :: after) = some (before, after) := by
  have pass : ∀ c ∈ after.reverse, (c != '1') = true := by
    intro c mem
    rw [bne_iff_ne]
    rintro rfl
    exact h (List.mem_reverse.1 mem)
  have stop : ('1' != '1') = false := by decide
  have span : ((before ++ '1' :: after).reverse.span (· != '1')) =
      (after.reverse, '1' :: before.reverse) := by
    rw [List.span_eq_takeWhile_dropWhile, List.reverse_append, List.reverse_cons,
      List.append_assoc, List.takeWhile_append_of_pos pass, List.dropWhile_append_of_pos pass,
      List.singleton_append, List.takeWhile_cons, List.dropWhile_cons, stop]
    simp
  simp only [splitLast, span, List.reverse_reverse]

/-- The text of values behind a human-readable part in lower case. -/
def written (lower : List Char) (data : List Quint) : String :=
  String.ofList (lower ++ '1' :: (data ++ checksum lower data).map toChar)

theorem encode_eq (hrp : String) (data : List Quint) :
    encode hrp data = (checkHrp (Bytes.ofString hrp)).map fun lower => written lower data := rfl

/-- A text reads back as what it was written from. -/
theorem decode?_written (lower : List Char) (data : List Quint) :
    decode? (written lower data) = some (lower, data) := by
  have valid : isValid lower (data ++ checksum lower data) = true := by
    rw [isValid, polymod_checksum]
    rfl
  have length : (data ++ checksum lower data).length = data.length + 6 := by
    rw [List.length_append, length_checksum]
  rw [decode?, written, String.toList_ofList, splitLast_append (separator_notMem _)]
  simp only [Option.bind_eq_bind, Option.bind_some, mapM_ofChar?_map_toChar, valid, length,
    Nat.le_add_left, decide_true, Bool.and_self, if_true, Nat.add_sub_cancel, List.take_left]

end Bech32

open Bech32

/-! ### Addresses -/

namespace Encoder

variable {e : Encoder} {hash : Bytes}

theorem encodeHash_eq_ok_iff {address : String} :
    e.encodeHash hash = .ok address ↔ IsHrp (Bytes.ofString e.hrp) ∧
      address = written e.hrp.toLower.toList (payload hash) := by
  rw [encodeHash, encode_eq]
  cases checked : checkHrp (Bytes.ofString e.hrp) with
  | error fault =>
    have improper : ¬IsHrp (Bytes.ofString e.hrp) := by
      intro proper
      rw [checkHrp_eq_ok_iff.2 ⟨proper, rfl⟩] at checked
      cases checked
    change Except.error _ = Except.ok _ ↔ _
    simp only [reduceCtorEq, improper, false_and]
  | ok lower =>
    obtain ⟨proper, rfl⟩ := checkHrp_eq_ok_iff.1 checked
    rw [proper.map_lowerByte, and_iff_right proper]
    change Except.ok _ = Except.ok _ ↔ _
    rw [Except.ok.injEq, eq_comm]

theorem encodeHash_eq_error_iff {error : Derivation.Error} :
    e.encodeHash hash = .error error ↔
      ∃ fault, FirstFault (Bytes.ofString e.hrp) fault ∧ error = .encoding fault.message := by
  simp only [← checkHrp_eq_error_iff]
  rw [encodeHash, encode_eq]
  cases checkHrp (Bytes.ofString e.hrp) with
  | error fault =>
    change Except.error _ = Except.error _ ↔ _
    simp only [Except.error.injEq, exists_eq_left', eq_comm]
  | ok lower =>
    change Except.ok _ = Except.error _ ↔ _
    simp only [reduceCtorEq, false_and, exists_false]

/-- The fingerprint comes out even in values of five bits. -/
theorem bytesOfBits_ungroup_groups (sized : hash.length = 20) :
    bytesOfBits (ungroup (groups (bits hash))) = (hash, []) := by
  rw [ungroup_groups ⟨32, by rw [length_bits, sized]⟩, bytesOfBits_bits]

theorem length_payload (sized : hash.length = 20) : (payload hash).length = 33 := by
  have even : 5 ∣ (bits hash).length := ⟨32, by rw [length_bits, sized]⟩
  have fives := length_groups even
  rw [length_bits, sized] at fives
  rw [payload, List.length_cons]
  omega

/-- How an address reads: a human-readable part in lower case, the separator, and 39 characters that
stand for values with a valid checksum; the first of them is the version, the next 32 are the bits
of the fingerprint without filling, and the last six are the checksum. -/
structure Reads (address : String) (lower : List Char) (hash : Bytes) (chars : List Char)
    (values : List Quint) : Prop where
  text : address.toList = lower ++ '1' :: chars
  length : chars.length = 39
  mem_alphabet : ∀ c ∈ chars, c ∈ alphabet
  split : splitLast address.toList = some (lower, chars)
  stands_for : chars.mapM ofChar? = some values
  valid : polymod (expand lower ++ values.map (·.val)) = 1
  version : values.head?.map (·.val) = some 0
  program : bytesOfBits (ungroup ((values.take 33).drop 1)) = (hash, [])
  decoded : decode? address = some (lower, values.take 33)

theorem reads_written (lower : List Char) (sized : hash.length = 20) :
    ∃ chars values, Reads (written lower (payload hash)) lower hash chars values := by
  have payloadLength := length_payload sized
  have taken : (payload hash ++ checksum lower (payload hash)).take 33 = payload hash := by
    rw [← payloadLength, List.take_left]
  have toList : (written lower (payload hash)).toList =
      lower ++ '1' :: (payload hash ++ checksum lower (payload hash)).map toChar :=
    String.toList_ofList
  refine ⟨_, payload hash ++ checksum lower (payload hash), toList, ?_,
    fun c => mem_alphabet_of_mem_map, ?_, mapM_ofChar?_map_toChar _, polymod_checksum _ _, rfl, ?_,
    ?_⟩
  · rw [List.length_map, List.length_append, payloadLength, length_checksum]
  · rw [toList, splitLast_append (separator_notMem _)]
  · rw [taken]
    exact bytesOfBits_ungroup_groups sized
  · rw [taken, decode?_written]

/-- Written addresses are the same exactly for the same human-readable part and fingerprint. -/
theorem written_inj {lower lower' : List Char} {hash' : Bytes} (sized : hash.length = 20)
    (sized' : hash'.length = 20) :
    written lower (payload hash) = written lower' (payload hash') ↔
      lower = lower' ∧ hash = hash' := by
  constructor
  · intro same
    obtain ⟨chars, values, reads⟩ := reads_written lower sized
    obtain ⟨chars', values', reads'⟩ := reads_written lower' sized'
    have decoded := reads.decoded
    rw [same, reads'.decoded, Option.some.injEq, Prod.mk.injEq] at decoded
    have program := reads.program
    rw [← decoded.2, reads'.program, Prod.mk.injEq] at program
    exact ⟨decoded.1.symm, program.1.symm⟩
  · rintro ⟨rfl, rfl⟩
    rfl

/-- A fingerprint has an address exactly behind a proper human-readable part; what is wrong with
another one does not depend on the fingerprint. The address reads back as the part in lower case and
the fingerprint, so it is that of no other ones, and public keys have the same address exactly if
their fingerprints are the same. -/
theorem addresses_read_back (e : Encoder) :
    (∀ hash : Bytes, hash.length = 20 →
      ((∃ address, e.encodeHash hash = .ok address) ↔ IsHrp (Bytes.ofString e.hrp)) ∧
      (∀ error, e.encodeHash hash = .error error ↔
        ∃ fault, FirstFault (Bytes.ofString e.hrp) fault ∧ error = .encoding fault.message) ∧
      ∀ address, e.encodeHash hash = .ok address →
        (∃ chars values, Reads address e.hrp.toLower.toList hash chars values) ∧
        ∀ (e' : Encoder) (hash' : Bytes) (address' : String), hash'.length = 20 →
          e'.encodeHash hash' = .ok address' →
            (address = address' ↔ e.hrp.toLower = e'.hrp.toLower ∧ hash = hash')) ∧
    ∀ publicKey publicKey' address, e.encodePublicKey publicKey = .ok address →
      (e.encodePublicKey publicKey' = .ok address ↔
        Digest.hash160 publicKey = Digest.hash160 publicKey') := by
  refine ⟨fun hash sized => ⟨?_, fun error => encodeHash_eq_error_iff,
    fun address encoded => ⟨?_, ?_⟩⟩, ?_⟩
  · simp only [encodeHash_eq_ok_iff, exists_and_left, exists_eq, and_true]
  · obtain ⟨-, rfl⟩ := encodeHash_eq_ok_iff.1 encoded
    exact reads_written _ sized
  · intro e' hash' address' sized' encoded'
    obtain ⟨-, rfl⟩ := encodeHash_eq_ok_iff.1 encoded
    obtain ⟨-, rfl⟩ := encodeHash_eq_ok_iff.1 encoded'
    rw [written_inj sized sized', String.toList_inj]
  · intro publicKey publicKey' address encoded
    obtain ⟨proper, rfl⟩ := encodeHash_eq_ok_iff.1 encoded
    rw [encodePublicKey, encodeHash_eq_ok_iff, and_iff_right proper,
      written_inj (Digest.length_hash160 publicKey) (Digest.length_hash160 publicKey'),
      and_iff_right rfl]

/-- A part in upper case that holds a separator itself is found whole again, in lower case. -/
theorem addresses_read_back_separatorInside :
    (List.replicate 20 (0x42 : UInt8)).length = 20 ∧
      ∃ address chars, (⟨"A12"⟩ : Encoder).encodeHash (List.replicate 20 0x42) = .ok address ∧
        splitLast address.toList = some (['a', '1', '2'], chars) ∧ chars.length = 39 := by
  have sized : (List.replicate 20 (0x42 : UInt8)).length = 20 := by decide
  have bytes : Bytes.ofString "A12" = [0x41, 0x31, 0x32] := by cbv
  have proper : IsHrp (Bytes.ofString "A12") := by
    rw [bytes]
    exact ⟨List.cons_ne_nil _ _, by decide, by simp, by decide⟩
  have lower : "A12".toLower.toList = ['a', '1', '2'] := by
    rw [← proper.map_lowerByte, bytes]
    rfl
  obtain ⟨found, -, reads⟩ := (addresses_read_back ⟨"A12"⟩).1 _ sized
  obtain ⟨address, encoded⟩ := found.2 proper
  obtain ⟨⟨chars, values, read⟩, -⟩ := reads address encoded
  exact ⟨sized, address, chars, encoded, lower ▸ read.split, read.length⟩

end Encoder

end KeySearch.Address
