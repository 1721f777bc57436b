import KeySearch.Proofs.Derivation.Validity
import KeySearch.Proofs.Search.Exits
import Mathlib.Order.Bounds.Basic

/-! Searching the keys of a wallet up to the end of its indices. A wallet answers a search as if it
remembered nothing, so the search takes the first exit that opens, and as long as the digests do
their part the candidates without a key are exactly those from `indexBound` on. So the search
succeeds if it has enough keys behind batches that lie below the bound, and a batch that reaches
beyond it fails with the first such index of one of its tasks, even if its other candidates would
have been enough. -/

namespace KeySearch

open KeySearch.Derivation

/-- Whatever a wallet remembers of earlier calls, it answers from the root. -/
theorem Derivation.Wallet.behaves_deriver (w : Wallet) :
    w.deriver.Behaves (Memory.BelongsTo w) w.deriveAfresh where
  outcome seed position _ h := (Wallet.derive_eq_deriveAfresh h seed position).outcome
  keeps seed position _ h := (Wallet.derive_eq_deriveAfresh h seed position).memory

namespace Search

/-! ### Candidates without a key -/

theorem indexBound_pos : 0 < indexBound := by decide

theorem indexBound_lt_size : indexBound < UInt64.size := by decide

/-- The number of a path that the candidates vary. -/
def variedLevel (accountOnly : Bool) : Level := if accountOnly then .account else .address

/-- From the bound on there is no key for want of an index, below it there is one. -/
structure Oracle.StopsAtBound (o : Oracle) (c : Config) : Prop where
  below : ∀ index, c.startIndex.toNat ≤ index → index < indexBound →
    o.failsAt c.accountOnly index = false
  beyond : ∀ index, indexBound ≤ index → index < UInt64.size →
    o.outcomeAt c.accountOnly index =
      .error (.indexOutOfRange (variedLevel c.accountOnly) (UInt64.ofNat index))

section

variable {w : Wallet} {seed : Seed}

theorem offender?_positionAt (usable : w.Usable) (accountOnly : Bool) (index : UInt64) :
    w.offender? (positionAt accountOnly index) =
      if index.toNat < indexBound then none else some (variedLevel accountOnly, index) := by
  by_cases h : index.toNat < indexBound
  · cases accountOnly <;>
      simp [Wallet.offender?, Wallet.chosen, positionAt, h, usable.purpose, usable.coinType,
        indexBound_pos.ne']
  · cases accountOnly <;>
      simp [Wallet.offender?, Wallet.chosen, positionAt, variedLevel, h, usable.purpose,
        usable.coinType, indexBound_pos.ne', Nat.le_of_not_lt h]

theorem stopsAtBound_wallet (usable : w.Usable) {config : Config}
    (valid : ∀ index : UInt64, config.startIndex ≤ index → index.toNat < indexBound →
      w.deriveAfresh seed (positionAt config.accountOnly index) ≠ .error .invalidKey)
    (actual projected : Key → UInt32 → UInt32) (constraints : Shard.Constraints) :
    (Oracle.ofFunctions w.deriveAfresh actual projected constraints seed).StopsAtBound config where
  below index low high := by
    have word : (UInt64.ofNat index).toNat = index :=
      UInt64.toNat_ofNat_of_lt' (high.trans indexBound_lt_size)
    have inRange := offender?_positionAt usable config.accountOnly (.ofNat index)
    rw [word, if_pos high] at inRange
    rw [Oracle.failsAt_eq_false_iff]
    refine (Wallet.deriveAfresh_of_inRange inRange usable.hrp seed).resolve_right ?_
    refine valid (.ofNat index) ?_ (word.symm ▸ high)
    rw [UInt64.le_iff_toNat_le, word]
    exact low
  beyond index low high := by
    have outOfRange := offender?_positionAt usable config.accountOnly (.ofNat index)
    rw [UInt64.toNat_ofNat_of_lt' high, if_neg (Nat.not_lt_of_le low)] at outOfRange
    exact Wallet.deriveAfresh_of_offender outOfRange seed

end

namespace Oracle.StopsAtBound

variable {o : Oracle} {c : Config} {target k : Nat}

theorem failsAt_iff (h : o.StopsAtBound c) {index : Nat} (low : c.startIndex.toNat ≤ index)
    (high : index < UInt64.size) : o.failsAt c.accountOnly index = true ↔ indexBound ≤ index := by
  constructor
  · intro fails
    refine Nat.le_of_not_lt fun inRange => ?_
    rw [h.below index low inRange] at fails
    cases fails
  · intro beyond
    exact failsAt_eq_true_iff.2 ⟨_, h.beyond index beyond high⟩

/-- A batch below the bound has no failure, and one that reaches beyond it has. -/
theorem clean_of_le (h : o.StopsAtBound c) (below : c.indexBehind (k + 1) ≤ indexBound) :
    ∀ index, c.indexBehind k ≤ index → index < c.indexBehind (k + 1) →
      o.failsAt c.accountOnly index = false :=
  fun index low high =>
    h.below index (Nat.le_of_add_right_le low) (Nat.lt_of_lt_of_le high below)

/-- As long as the batches lie below the bound, only the keys and the limit can end the search. -/
theorem exit?_eq_none (h : o.StopsAtBound c)
    (short : (o.hits c.accountOnly c.startIndex.toNat (k * c.batchSize)).length < target)
    (free : ∀ limit, c.maxIterations = some limit → k < limit.toNat)
    (below : c.indexBehind (k + 1) ≤ indexBound) : o.exit? c target k = none :=
  exit?_eq_none_iff.2 ⟨short, free_iff.2 free, below.trans_lt indexBound_lt_size,
    h.clean_of_le below⟩

/-- A batch that reaches beyond the bound fails, whatever keys it holds. -/
theorem exit?_eq_failing (h : o.StopsAtBound c)
    (short : (o.hits c.accountOnly c.startIndex.toNat (k * c.batchSize)).length < target)
    (free : ∀ limit, c.maxIterations = some limit → k < limit.toNat)
    (beyond : indexBound < c.indexBehind (k + 1)) (room : c.indexBehind (k + 1) < UInt64.size)
    (size : 0 < c.batchSize) : o.exit? c target k = some .failing := by
  rw [exit?_of_batch short (free_iff.2 free) room, if_pos]
  have last : c.indexBehind (k + 1) - 1 < UInt64.size := by omega
  have low : c.indexBehind k ≤ c.indexBehind (k + 1) - 1 := by
    rw [Config.indexBehind_succ]
    omega
  refine any_failsAt_iff.2 ⟨c.indexBehind (k + 1) - 1, low, by omega, ?_⟩
  exact (h.failsAt_iff (Nat.le_of_add_right_le low) last).2 (by omega)

/-- The first exit is the one for enough keys exactly if they are there behind batches that lie
below the bound, within the limit. -/
theorem first_exit_enough_iff (h : o.StopsAtBound c) (asked : 0 < target)
    (size : 0 < c.batchSize) :
    (o.exit? c target k = some .enough ∧ ∀ j < k, o.exit? c target j = none) ↔
      IsLeast {k | target ≤
          (o.hits c.accountOnly c.startIndex.toNat (k * c.batchSize)).length} k ∧
        (∀ limit, c.maxIterations = some limit → k ≤ limit.toNat) ∧
        c.indexBehind k ≤ indexBound := by
  constructor
  · rintro ⟨enough, earlier⟩
    have reached := exit?_eq_enough_iff.1 enough
    have least : IsLeast {k | target ≤
        (o.hits c.accountOnly c.startIndex.toNat (k * c.batchSize)).length} k :=
      ⟨reached, fun j there => Nat.le_of_not_lt fun lt =>
        Nat.not_le_of_lt (exit?_eq_none_iff.1 (earlier j lt)).1 there⟩
    cases k with
    | zero =>
      rw [Nat.zero_mul, Oracle.hits_zero] at reached
      exact absurd reached (Nat.not_le_of_lt asked)
    | succ j =>
      -- The last of these batches was run to its end, so its last candidate has a key.
      obtain ⟨-, free, room, clean⟩ := exit?_eq_none_iff.1 (earlier j (Nat.lt_succ_self j))
      refine ⟨least, free_iff.1 free, Nat.le_of_not_lt fun beyond => ?_⟩
      have low : c.indexBehind j ≤ c.indexBehind (j + 1) - 1 := by
        rw [Config.indexBehind_succ]
        omega
      have key := clean (c.indexBehind (j + 1) - 1) low (by omega)
      rw [(h.failsAt_iff (Nat.le_of_add_right_le low) (by omega)).2 (by omega)] at key
      cases key
  · rintro ⟨⟨reached, least⟩, limit, below⟩
    refine ⟨exit?_of_enough reached, fun j lt => ?_⟩
    refine h.exit?_eq_none (Nat.lt_of_not_le fun there => ?_) (fun l same => ?_) ?_
    · exact Nat.not_le_of_lt lt (least there)
    · exact lt.trans_le (limit l same)
    · exact (c.indexBehind_mono lt).trans below

end Oracle.StopsAtBound

/-! ### Searches -/

/-- How a search ends for which there are keys up to the bound and none from there on. -/
structure Run.EndsAtBound {σ : Type} (run : Run σ) (o : Oracle) (c : Config) (target : Nat) :
    Prop where
  success : (∃ report, run.result = .ok report) ↔
    ∃ k, IsLeast {k | target ≤
        (o.hits c.accountOnly c.startIndex.toNat (k * c.batchSize)).length} k ∧
      (∀ limit, c.maxIterations = some limit → k ≤ limit.toNat) ∧ c.indexBehind k ≤ indexBound
  /-- The keys are those that trying the indices one by one finds first. -/
  keys : ∀ report, run.result = .ok report → report.keys.length = target ∧
    o.bruteForce c.accountOnly c.startIndex.toNat target = some report.keys ∧
    report.keys = (o.hits c.accountOnly c.startIndex.toNat
      (report.stats.iterations.toNat * c.batchSize)).take target
  /-- The first batch that reaches beyond the bound, if the search gets that far. -/
  failure : ∀ k, k = 0 ∨ c.indexBehind k ≤ indexBound → indexBound < c.indexBehind (k + 1) →
    c.indexBehind (k + 1) < UInt64.size →
    (o.hits c.accountOnly c.startIndex.toNat (k * c.batchSize)).length < target →
    (∀ limit, c.maxIterations = some limit → k < limit.toNat) →
    run.iterations = k ∧ ∃ (worker : Nat) (index : UInt64), worker < c.numTasks.toNat ∧
      run.result = .error (.derivation ⟨positionAt c.accountOnly index,
        .indexOutOfRange (variedLevel c.accountOnly) index⟩) ∧
      c.indexBehind k + worker * c.taskWidth.toNat ≤ index.toNat ∧
      index.toNat < c.indexBehind k + (worker + 1) * c.taskWidth.toNat ∧
      indexBound ≤ index.toNat ∧
      ∀ earlier, c.indexBehind k + worker * c.taskWidth.toNat ≤ earlier →
        earlier < index.toNat → earlier < indexBound

/-- A task that fails does so at its first index from the bound on. -/
theorem Oracle.StopsAtBound.exists_index {o : Oracle} {c : Config} {k : Nat} (h : o.StopsAtBound c)
    (room : c.indexBehind (k + 1) < UInt64.size) {failure : Failure}
    (failed : o.TaskFailure c k failure) :
    ∃ (worker : Nat) (index : UInt64), worker < c.numTasks.toNat ∧
      failure = ⟨positionAt c.accountOnly index,
        .indexOutOfRange (variedLevel c.accountOnly) index⟩ ∧
      c.indexBehind k + worker * c.taskWidth.toNat ≤ index.toNat ∧
      index.toNat < c.indexBehind k + (worker + 1) * c.taskWidth.toNat ∧
      indexBound ≤ index.toNat ∧
      ∀ earlier, c.indexBehind k + worker * c.taskWidth.toNat ≤ earlier →
        earlier < index.toNat → earlier < indexBound := by
  obtain ⟨worker, index, bound, low, high, position, cause, first⟩ := failed
  have inside : (worker + 1) * c.taskWidth.toNat ≤ c.batchSize := Nat.mul_le_mul_right _ bound
  rw [Config.indexBehind_succ] at room
  have word : (UInt64.ofNat index).toNat = index := UInt64.toNat_ofNat_of_lt' (by omega)
  have start : c.startIndex.toNat ≤ index := by
    have := Nat.le_of_add_right_le low
    exact Nat.le_of_add_right_le this
  have fails : o.failsAt c.accountOnly index = true :=
    Oracle.failsAt_eq_true_iff.2 ⟨failure.cause, by rw [Oracle.outcomeAt, ← position, cause]⟩
  have beyond := (h.failsAt_iff start (by omega)).1 fails
  have told := h.beyond index beyond (by omega)
  rw [Oracle.outcomeAt, ← position, cause, Except.error.injEq] at told
  refine ⟨worker, .ofNat index, bound, ?_, word.symm ▸ low, word.symm ▸ high, word.symm ▸ beyond,
    fun earlier behind before => Nat.lt_of_not_le fun late => ?_⟩
  · rw [← position, ← told]
  · rw [word] at before
    have clean := first earlier behind before
    have start' : c.startIndex.toNat ≤ earlier := by
      have := Nat.le_of_add_right_le behind
      exact Nat.le_of_add_right_le this
    rw [(h.failsAt_iff start' (by omega)).2 late] at clean
    cases clean

theorem Coordinator.endsAtBound {σ : Type} {c : Coordinator σ} {schedule : Schedule} {seed : Seed}
    {target : UInt64} {o : Oracle} {inv : σ → Prop} (behaves : (c.job seed).Behaves inv o)
    (h : o.StopsAtBound c.config) (stamps : o.Stamps) (asked : target ≠ 0) {world : σ}
    (holds : inv world)
    (quiet : ∀ action ∈ (c.run schedule seed target world false).history, action.raises = false) :
    (c.run schedule seed target world false).EndsAtBound o c.config target.toNat := by
  have positive : 0 < target.toNat := Nat.pos_of_ne_zero fun none => asked (UInt64.toNat_inj.1 none)
  have size : 0 < c.config.batchSize := c.batchSize_eq ▸ c.allocator.batchSize_pos
  obtain ⟨k, exit, found, earlier, counted, explained, failing⟩ :=
    Coordinator.exists_first_exit behaves asked holds quiet
  have enough_of (report : Report)
      (returned : (c.run schedule seed target world false).result = .ok report) :
      exit = .enough := by
    rw [returned] at explained
    exact explained.eq_enough
  refine ⟨⟨?_, ?_⟩, fun report returned => ?_, fun j first beyond room short free => ?_⟩
  · rintro ⟨report, returned⟩
    obtain rfl := enough_of report returned
    exact ⟨k, (h.first_exit_enough_iff positive size).1 ⟨found, earlier⟩⟩
  · rintro ⟨j, facts⟩
    obtain ⟨enough, before⟩ := (h.first_exit_enough_iff positive size).2 facts
    obtain ⟨rfl, rfl⟩ := first_exit_unique found earlier enough before
    obtain ⟨report, returned, -⟩ := explained
    exact ⟨report, returned⟩
  · obtain rfl := enough_of report returned
    obtain ⟨report', returned', iterations, refined⟩ := explained
    cases returned.symm.trans returned'
    obtain ⟨⟨reached, -⟩, -, below⟩ := (h.first_exit_enough_iff positive size).1 ⟨found, earlier⟩
    have bruteForce := refined.bruteForce stamps
    have cut := Oracle.bruteForce_eq_take (below.trans indexBound_lt_size.le) refined.clean reached
    rw [iterations]
    exact ⟨refined.length, bruteForce, Option.some.inj (bruteForce.symm.trans cut)⟩
  · have before : ∀ i < j, o.exit? c.config target.toNat i = none := fun i lt =>
      h.exit?_eq_none
        ((Oracle.length_hits_mono _ (Nat.mul_le_mul_right _ lt.le)).trans_lt short)
        (fun limit same => lt.trans (free limit same))
        ((c.config.indexBehind_mono lt).trans (first.resolve_left (Nat.ne_zero_of_lt lt)))
    obtain ⟨rfl, rfl⟩ := first_exit_unique found earlier
      (h.exit?_eq_failing short free beyond room size) before
    obtain ⟨failure, -, result⟩ := explained
    obtain ⟨worker, index, bound, rfl, rest⟩ := h.exists_index room (failing failure result)
    exact ⟨counted, worker, index, bound, result, rest⟩

/-- Whatever a wallet has been asked before and whoever places its keys, no search returns a key
from beyond the bound. If the digests do their part and nobody cancels, the search succeeds exactly
if enough keys lie behind batches below the bound; otherwise the first batch that reaches beyond it
fails, as far as the limit and the end of the words let the search get there. -/
theorem walletSearch_ends_at_bound (w : Wallet) {τ : Type} {a : Shard.Assigner τ} {inv : τ → Prop}
    {actual projected : Key → UInt32 → UInt32} (e : a.Behaves inv actual projected)
    {config : Config} (valid : config.validate = .ok ()) (constraints : Shard.Constraints)
    (turns : List Wallet.Turn) (rest : τ) (h : inv rest) (seed : Seed) (target : UInt64) :
    ∃ c, Coordinator.make w.deriver.onFst ⟨constraints, a.onSnd⟩ config = .ok c ∧
      ∀ (o : Oracle) (world : Memory × τ),
        o = .ofFunctions w.deriveAfresh actual projected constraints seed →
        world = ((Wallet.Pool.empty.run w turns).memory, rest) →
        (∀ schedule cancelled report,
          (c.run schedule seed target world cancelled).result = .ok report →
          ∀ key ∈ report.keys,
            key.position.account.toNat < indexBound ∧ key.position.address.toNat < indexBound) ∧
        (w.Usable → target ≠ 0 →
          (∀ index : UInt64, config.startIndex ≤ index → index.toNat < indexBound →
            w.deriveAfresh seed (positionAt config.accountOnly index) ≠ .error .invalidKey) →
          ∀ schedule run, run = c.run schedule seed target world false →
            (∀ action ∈ run.history, action.raises = false) →
            run.EndsAtBound o config target.toNat) := by
  obtain ⟨c, made, deriver, evaluator, rfl⟩ :=
    Coordinator.exists_make_eq_ok (w.deriver.onFst : Deriver (Memory × τ)) ⟨constraints, a.onSnd⟩
      valid
  refine ⟨c, made, ?_⟩
  rintro o world rfl rfl
  have d : c.deriver.Behaves (fun world => world.1.BelongsTo w ∧ inv world.2) w.deriveAfresh :=
    deriver ▸ w.behaves_deriver.onFst inv
  have e' : c.evaluator.assigner.Behaves (fun world => world.1.BelongsTo w ∧ inv world.2) actual
      projected := evaluator ▸ e.onSnd (Memory.BelongsTo w)
  have same : c.evaluator.constraints = constraints := by rw [evaluator]
  have behaves : (c.job seed).Behaves (fun world => world.1.BelongsTo w ∧ inv world.2)
      (.ofFunctions w.deriveAfresh actual projected constraints seed) := same ▸ Job.behaves d e'
  have holds : (Wallet.Pool.empty.run w turns).memory.BelongsTo w ∧ inv rest :=
    ⟨((Wallet.Pool.fits_empty w).run turns).memory, h⟩
  refine ⟨fun schedule cancelled report returned key mem => ?_, ?_⟩
  · by_cases asked : target = 0
    · rw [Coordinator.run, if_pos asked] at returned
      cases returned
      cases mem
    · have refined := refines_of_run behaves asked holds returned
      obtain ⟨index, -, -, outcome, -⟩ := Oracle.mem_hits.1 (refined.ranking.mem_all mem)
      exact Wallet.inRange_of_deriveAfresh outcome
  · rintro usable asked keys schedule run rfl quiet
    exact Coordinator.endsAtBound behaves (stopsAtBound_wallet usable keys _ _ _)
      (fun _ _ outcome => Wallet.position_of_deriveAfresh outcome) asked holds quiet

/-- A wallet cancels no search. -/
theorem isQuiet_wallet (w : Wallet) {τ : Type} (seed : Seed)
    (evaluator : Shard.Evaluator (Memory × τ)) : (Job.mk seed w.deriver.onFst evaluator).IsQuiet :=
  fun _ _ => rfl

/-- The main wallet from the first address on for which it has no key, in batches of two tasks with
two addresses each. -/
def boundSearch : Coordinator (Memory × Unit) where
  deriver := Wallet.main.deriver.onFst
  evaluator :=
    ⟨Iteration.evenStubs.evaluator.constraints, Iteration.evenStubs.evaluator.assigner.onSnd⟩
  config := ⟨2147483648, 2, 2, false, none⟩
  allocator := (evenSearch none).allocator
  allocator_eq := rfl

/-- The same search from the last address on for which the wallet has a key. -/
def straddlingSearch : Coordinator (Memory × Unit) where
  deriver := boundSearch.deriver
  evaluator := boundSearch.evaluator
  config := ⟨2147483647, 2, 2, false, none⟩
  allocator := boundSearch.allocator
  allocator_eq := rfl

/-- There is a key for the first candidate of the first batch and for no other one; the batch fails
with the first address of one of its tasks that is beyond the bound. -/
theorem walletSearch_ends_at_bound_straddlingSearch :
    ∃ (o : Oracle) (run : Run (Memory × Unit)),
      run = straddlingSearch.run (.roundRobin 2) ⟨[]⟩ 1 (none, ()) false ∧
      run.EndsAtBound o straddlingSearch.config 1 ∧ run.iterations = 0 ∧
      ∃ index : UInt64, (index.toNat = 2147483648 ∨ index.toNat = 2147483649) ∧
        run.result = .error (.derivation ⟨⟨0, index⟩, .indexOutOfRange .address index⟩) := by
  have e : Iteration.evenStubs.evaluator.assigner.Behaves (fun _ => True) _ _ :=
    Shard.Assigner.behaves_ofFn _ _
  have valid : straddlingSearch.config.validate = .ok () := rfl
  have asked : (1 : UInt64) ≠ 0 := by decide
  have made : Coordinator.make straddlingSearch.deriver straddlingSearch.evaluator
    straddlingSearch.config = .ok straddlingSearch := rfl
  have keyless : ∀ index : UInt64, straddlingSearch.config.startIndex ≤ index →
      index.toNat < indexBound → Wallet.main.deriveAfresh ⟨[]⟩
        (positionAt straddlingSearch.config.accountOnly index) ≠ .error .invalidKey := by
    intro index low high
    have last : index = 2147483647 :=
      UInt64.toNat_inj.1 (Nat.le_antisymm (Nat.le_of_lt_succ high) (UInt64.le_iff_toNat_le.1 low))
    subst last
    exact Wallet.deriveAfresh_last_ne_invalidKey .main
  have calls : (straddlingSearch.job ⟨[]⟩).IsQuiet :=
    isQuiet_wallet .main ⟨[]⟩ straddlingSearch.evaluator
  have quiet := Coordinator.quiet_run calls (Schedule.isQuiet_roundRobin 2) 1 (none, ())
  obtain ⟨c, made', ends⟩ := walletSearch_ends_at_bound .main e valid
    straddlingSearch.evaluator.constraints [] () trivial ⟨[]⟩ 1
  cases made.symm.trans made'
  have here := (ends _ (none, ()) rfl rfl).2 Wallet.main_usable asked keyless (.roundRobin 2) _ rfl
    quiet
  obtain ⟨counted, worker, index, bound, result, low, high, beyond, first⟩ :=
    here.failure 0 (.inl rfl) (by decide) (by decide) Nat.zero_lt_one (by simp [straddlingSearch])
  have start : straddlingSearch.config.indexBehind 0 = 2147483647 := rfl
  have width : straddlingSearch.config.taskWidth.toNat = 2 := rfl
  rw [start, width] at low high first
  refine ⟨_, _, rfl, here, counted, index, ?_, result⟩
  change worker < 2 at bound
  have least (earlier : Nat) (behind : 2147483647 + worker * 2 ≤ earlier)
      (before : earlier < index.toNat) : earlier < 2147483648 := first earlier behind before
  change 2147483648 ≤ index.toNat at beyond
  obtain rfl | rfl : worker = 0 ∨ worker = 1 := by omega
  · exact .inl (by omega)
  · have one := least 2147483649 (Nat.le_refl _)
    exact .inr (by omega)

end Search

end KeySearch
