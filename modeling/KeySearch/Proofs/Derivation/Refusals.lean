import KeySearch.Proofs.Derivation.Validity

/-! Why a wallet refuses to derive a key, and what a refused call leaves behind. The numbers of the
path are checked before anything else, in their order, so the first one that is too large is all that
such a call tells, and the memory is never touched (`derive_of_offender`). A path that is made spells
its numbers, the first three of them marked (`Path.Spells`). Behind it only the digests and the
human-readable part can be at fault, and the latter comes last: by then the account node is
remembered, and what is wrong does not depend on the key. -/

namespace KeySearch.Derivation

/-! ### Marked numbers -/

/-- The top bit of the number is set. -/
def isMarked (number : UInt32) : Bool := number.toNat.testBit 31

/-- The number with its top bit cleared. -/
def unmarked (number : UInt32) : UInt32 := number &&& ~~~hardened

theorem toNat_or_hardened {number : UInt32} (h : number.toNat < indexBound) :
    (number ||| hardened).toNat = number.toNat + indexBound := by
  rw [UInt32.toNat_or]
  exact Nat.or_two_pow_eq_add_of_lt (n := 31) h

theorem isMarked_eq (number : UInt32) : isMarked number = decide (indexBound ≤ number.toNat) := by
  have word := number.toNat_lt
  rw [isMarked, Nat.testBit_eq_decide_div_mod_eq, decide_eq_decide, indexBound]
  omega

theorem toNat_unmarked (number : UInt32) : (unmarked number).toNat = number.toNat % indexBound := by
  rw [unmarked, UInt32.toNat_and]
  exact Nat.and_two_pow_sub_one_eq_mod number.toNat 31

theorem isMarked_or_hardened {number : UInt32} (h : number.toNat < indexBound) :
    isMarked (number ||| hardened) = true := by
  rw [isMarked_eq, toNat_or_hardened h, decide_eq_true_eq]
  exact Nat.le_add_left _ _

theorem isMarked_of_lt {number : UInt32} (h : number.toNat < indexBound) :
    isMarked number = false := by
  rw [isMarked_eq, decide_eq_false_iff_not]
  exact Nat.not_le_of_lt h

theorem toNat_unmarked_or_hardened {number : UInt32} (h : number.toNat < indexBound) :
    (unmarked (number ||| hardened)).toNat = number.toNat := by
  rw [toNat_unmarked, toNat_or_hardened h, Nat.add_mod_right, Nat.mod_eq_of_lt h]

theorem toNat_unmarked_of_lt {number : UInt32} (h : number.toNat < indexBound) :
    (unmarked number).toNat = number.toNat := by
  rw [toNat_unmarked, Nat.mod_eq_of_lt h]

theorem toNat_toUInt32_of_lt {index : UInt64} (h : index.toNat < indexBound) :
    index.toUInt32.toNat = index.toNat := by
  rw [UInt64.toNat_toUInt32]
  exact Nat.mod_eq_of_lt (Nat.lt_trans h (by decide))

/-! ### Paths -/

/-- The five numbers of the path are those of the wallet and the position with a zero in between,
and just the first three are marked. -/
structure Path.Spells (path : Path) (w : Wallet) (position : Position) : Prop where
  marks : path.toList.map isMarked = [true, true, true, false, false]
  chain : path.chain = 0
  numbers : path.toList.map (fun number => (unmarked number).toNat) =
    [w.purpose.toNat, w.coinType.toNat, position.account.toNat, 0, position.address.toNat]

/-- A path spells one list of numbers only. -/
theorem Path.Spells.inj {path : Path} {w w' : Wallet} {position position' : Position}
    (h : path.Spells w position) (h' : path.Spells w' position') :
    w'.purpose = w.purpose ∧ w'.coinType = w.coinType ∧ position' = position := by
  have same := h'.numbers.symm.trans h.numbers
  simp only [List.cons.injEq, and_true, true_and] at same
  obtain ⟨purpose, coinType, account, address⟩ := same
  obtain ⟨_, _⟩ := position
  obtain ⟨_, _⟩ := position'
  rw [Position.mk.injEq]
  exact ⟨UInt32.toNat_inj.1 purpose, UInt32.toNat_inj.1 coinType, UInt64.toNat_inj.1 account,
    UInt64.toNat_inj.1 address⟩

/-- What is found is all that is remembered. -/
theorem Memory.eq_some_of_find? {memory : Memory} {seed : Seed} {account : UInt64} {node : Node}
    (found : memory.find? seed account = some node) : memory = some ⟨seed, account, node⟩ := by
  cases memory with
  | none => cases found
  | some entry =>
    rw [Memory.find?, Option.ite_none_right_eq_some] at found
    obtain ⟨⟨rfl, rfl⟩, same⟩ := found
    cases same
    rfl

namespace Wallet

variable {w : Wallet} {seed : Seed} {position : Position} {path : Path} {memory : Memory}

theorem offender?_eq_none_iff :
    w.offender? position = none ↔
      w.purpose.toNat < indexBound ∧ w.coinType.toNat < indexBound ∧
        position.account.toNat < indexBound ∧ position.address.toNat < indexBound := by
  refine ⟨chosen_lt, fun inRange => ?_⟩
  rw [offender?, List.find?_eq_none]
  simpa [chosen, and_assoc] using inRange

theorem exists_path_iff : (∃ path, w.path position = .ok path) ↔ w.offender? position = none := by
  refine ⟨?_, exists_path⟩
  rintro ⟨path, reached⟩
  refine Option.eq_none_iff_forall_ne_some.2 fun number found => ?_
  rw [path_of_offender found] at reached
  cases reached

theorem spells_of_path (reached : w.path position = .ok path) : path.Spells w position := by
  obtain ⟨purpose, coinType, account, address⟩ :=
    offender?_eq_none_iff.1 (exists_path_iff.1 ⟨path, reached⟩)
  have purpose' : w.purpose.toUInt64.toNat < indexBound := by rwa [UInt32.toNat_toUInt64]
  have coinType' : w.coinType.toUInt64.toNat < indexBound := by rwa [UInt32.toNat_toUInt64]
  have account' := (toNat_toUInt32_of_lt account).symm ▸ account
  have address' := (toNat_toUInt32_of_lt address).symm ▸ address
  rw [Wallet.path, Path.ofPosition, pathNumber_of_lt purpose', pathNumber_of_lt coinType',
    pathNumber_of_lt account, pathNumber_of_lt address, ok_bind, ok_bind, ok_bind, ok_bind,
    UInt32.toUInt32_toUInt64, UInt32.toUInt32_toUInt64] at reached
  obtain rfl := Except.ok.inj reached
  have zero : receiveChain.toNat < indexBound := by decide
  refine ⟨?_, rfl, ?_⟩
  · simp only [Path.toList, Path.toAccount, Path.belowAccount, List.cons_append, List.nil_append,
      List.map_cons, List.map_nil, isMarked_or_hardened purpose, isMarked_or_hardened coinType,
      isMarked_or_hardened account', isMarked_of_lt zero, isMarked_of_lt address']
  · simp only [Path.toList, Path.toAccount, Path.belowAccount, List.cons_append, List.nil_append,
      List.map_cons, List.map_nil, toNat_unmarked_or_hardened purpose,
      toNat_unmarked_or_hardened coinType, toNat_unmarked_or_hardened account',
      toNat_unmarked_of_lt zero, toNat_unmarked_of_lt address', toNat_toUInt32_of_lt account,
      toNat_toUInt32_of_lt address]
    rfl

/-! ### Calls -/

/-- A number that is too large ends the call before it touches the memory. -/
theorem derive_of_offender {level : Level} {index : UInt64}
    (h : w.offender? position = some (level, index)) (seed : Seed) (memory : Memory) :
    w.derive seed position memory = (.error (.indexOutOfRange level index), memory) := by
  simp only [derive, look, path_of_offender h]

/-- A call that remembers a node remembers that of its account, and it does unless the digests stop
it. -/
theorem exists_remembered_of_miss
    (valid : (w.remember seed position path memory).1 ≠ .error .invalidKey) :
    ∃ node, (w.remember seed position path memory).2 = some ⟨seed, position.account, node⟩ := by
  rw [remember_eq] at valid ⊢
  cases account : Node.ofSeed seed path.toAccount with
  | error e =>
    simp only [account] at valid
    exact absurd (congrArg Except.error (Node.error_of_ofSeed account)) valid
  | ok node =>
    simp only [account]
    exact ⟨node, rfl⟩

/-- Behind the path a call that the digests do not stop has the account node in the memory, be it
that it was there or that it is there now. -/
theorem exists_remembered (reached : w.path position = .ok path)
    (valid : (w.derive seed position memory).1 ≠ .error .invalidKey) :
    ∃ node, (w.derive seed position memory).2 = some ⟨seed, position.account, node⟩ := by
  cases found : memory.find? seed position.account with
  | some node =>
    have looked : w.look seed position memory = .answered (w.keyBelow node path position) := by
      simp only [look, reached, found]
    simp only [derive, looked]
    exact ⟨node, Memory.eq_some_of_find? found⟩
  | none =>
    have looked : w.look seed position memory = .missed path := by
      simp only [look, reached, found]
    simp only [derive, looked] at valid ⊢
    exact exists_remembered_of_miss valid

/-- A faulty human-readable part is what a call fails with that gets as far as the address. -/
theorem deriveAfresh_of_fault (inRange : w.offender? position = none)
    {fault : Address.Bech32.Error}
    (faulty : Address.Bech32.FirstFault (Bytes.ofString w.encoder.hrp) fault)
    (valid : w.deriveAfresh seed position ≠ .error .invalidKey) :
    w.deriveAfresh seed position = .error (.encoding fault.message) := by
  obtain ⟨path, reached⟩ := exists_path inRange
  unfold deriveAfresh at valid ⊢
  rw [reached, ok_bind] at valid ⊢
  cases found : Node.ofSeed seed path.toList with
  | error e =>
    cases Node.error_of_ofSeed found
    rw [found] at valid
    exact absurd rfl valid
  | ok node =>
    have refused : w.encoder.encodePublicKey node.secret.publicKey =
        .error (.encoding fault.message) :=
      Address.Encoder.encodeHash_eq_error_iff.2 ⟨fault, faulty, rfl⟩
    rw [ok_bind]
    dsimp only
    rw [refused]
    rfl

/-- The checks come in a fixed order. A path is made exactly if all four numbers leave the top bit
free, and then it spells them, so that no other numbers have the same path; otherwise the first one
that is too large is named in full, by the path and by every call, which leaves the memory as it is.
Behind the path, if the digests do not stop it, a call has the account node in the memory, which still
belongs to the wallet; it fails exactly if the human-readable part is one that the encoder refuses,
and with nothing but the fault of that part, whatever the seed, the position and the memory. -/
theorem refusals_come_in_order (w : Wallet) :
    (∀ position,
      ((∃ path, w.path position = .ok path) ↔
        w.purpose.toNat < indexBound ∧ w.coinType.toNat < indexBound ∧
          position.account.toNat < indexBound ∧ position.address.toNat < indexBound) ∧
      (∀ path, w.path position = .ok path → path.Spells w position) ∧
      ((∀ path, w.path position ≠ .ok path) →
        ∃ level index, w.offender? position = some (level, index) ∧
          w.path position = .error (.indexOutOfRange level index) ∧
          ∀ seed memory,
            w.derive seed position memory = (.error (.indexOutOfRange level index), memory))) ∧
    (∀ (w' : Wallet) position position' path,
      w.path position = .ok path → w'.path position' = .ok path →
        w'.purpose = w.purpose ∧ w'.coinType = w.coinType ∧ position' = position) ∧
    ∀ seed position memory answer, memory.BelongsTo w → w.offender? position = none →
      answer = w.derive seed position memory → answer.1 ≠ .error .invalidKey →
        answer.2.BelongsTo w ∧ (∃ node, answer.2 = some ⟨seed, position.account, node⟩) ∧
        ((∃ e, answer.1 = .error e) ↔
          ∃ fault, Address.Bech32.FirstFault (Bytes.ofString w.encoder.hrp) fault) ∧
        ∀ fault, Address.Bech32.FirstFault (Bytes.ofString w.encoder.hrp) fault →
          answer.1 = .error (.encoding fault.message) ∧
          ∀ publicKey, w.encoder.encodePublicKey publicKey = .error (.encoding fault.message) := by
  refine ⟨fun position => ⟨exists_path_iff.trans offender?_eq_none_iff,
    fun path reached => spells_of_path reached, fun pathless => ?_⟩,
    fun w' position position' path reached reached' =>
      (spells_of_path reached).inj (spells_of_path reached'), ?_⟩
  · cases found : w.offender? position with
    | none =>
      obtain ⟨path, reached⟩ := exists_path found
      exact absurd reached (pathless path)
    | some number =>
      obtain ⟨level, index⟩ := number
      exact ⟨level, index, rfl, path_of_offender found,
        fun seed memory => derive_of_offender found seed memory⟩
  · rintro seed position memory answer belongs inRange rfl valid
    obtain ⟨path, reached⟩ := exists_path inRange
    obtain ⟨outcome, still⟩ := derive_eq_deriveAfresh belongs seed position
    have faulty (fault : Address.Bech32.Error)
        (h : Address.Bech32.FirstFault (Bytes.ofString w.encoder.hrp) fault) :
        (w.derive seed position memory).1 = .error (.encoding fault.message) := by
      rw [outcome] at valid ⊢
      exact deriveAfresh_of_fault inRange h valid
    refine ⟨still, exists_remembered reached valid, ⟨?_, ?_⟩, fun fault h =>
      ⟨faulty fault h, fun publicKey => Address.Encoder.encodeHash_eq_error_iff.2 ⟨fault, h, rfl⟩⟩⟩
    · rintro ⟨e, failed⟩
      rw [Address.Bech32.exists_firstFault_iff]
      intro proper
      rw [outcome] at failed valid
      rcases deriveAfresh_of_inRange inRange proper seed with ⟨key, given⟩ | invalid
      · rw [given] at failed
        cases failed
      · exact valid invalid
    · rintro ⟨fault, h⟩
      exact ⟨_, faulty fault h⟩

/-- The main wallet with a space in the human-readable part of its addresses. -/
def spaced : Wallet := ⟨mainPurpose, mainCoinType, ⟨"b c"⟩⟩

/-- The lower half of the first account is in range, but the account is not; the address behind it
is too large as well. The last numbers in range make a path. The space is refused when the account
is remembered already. -/
theorem refusals_come_in_order_wideAccount :
    (∀ memory, main.derive ⟨[7]⟩ ⟨4294967296, 9223372036854775808⟩ memory =
        (.error (.indexOutOfRange .account 4294967296), memory)) ∧
      (∃ path, main.path ⟨2147483647, 0⟩ = .ok path ∧ path.Spells main ⟨2147483647, 0⟩) ∧
      ∃ answer node, answer = spaced.derive ⟨[]⟩ ⟨0, 2147483647⟩ none ∧
        answer = (.error (.encoding "invalid character (code= )"), some ⟨⟨[]⟩, 0, node⟩) := by
  obtain ⟨checks, -⟩ := refusals_come_in_order main
  obtain ⟨ranges, -, refused⟩ := checks ⟨4294967296, 9223372036854775808⟩
  obtain ⟨ranges', spells, -⟩ := checks ⟨2147483647, 0⟩
  have large : ¬(4294967296 : UInt64).toNat < indexBound := by decide
  obtain ⟨level, index, offender, -, framed⟩ :=
    refused fun path reached => large (ranges.1 ⟨path, reached⟩).2.2.1
  cases offender
  obtain ⟨path, reached⟩ := ranges'.2 (by decide)
  refine ⟨framed ⟨[7]⟩, ⟨path, reached, spells path reached⟩, ?_⟩
  obtain ⟨-, -, behind⟩ := refusals_come_in_order spaced
  have belongs := Memory.belongsTo_none spaced
  have inRange : spaced.offender? ⟨0, 2147483647⟩ = none := by decide
  have outcome := (derive_eq_deriveAfresh belongs ⟨[]⟩ ⟨0, 2147483647⟩).outcome
  have valid : (spaced.derive ⟨[]⟩ ⟨0, 2147483647⟩ none).1 ≠ .error .invalidKey :=
    outcome ▸ deriveAfresh_last_ne_invalidKey ⟨"b c"⟩
  have space : Address.Bech32.FirstFault (Bytes.ofString spaced.encoder.hrp) (.invalidChar ' ') :=
    Address.Bech32.checkHrp_eq_error_iff.1 (by decide)
  obtain ⟨-, ⟨node, remembered⟩, -, faulty⟩ := behind _ _ _ _ belongs inRange rfl valid
  exact ⟨_, node, rfl, Prod.ext (faulty _ space).1 remembered⟩

end Wallet

end KeySearch.Derivation
