import KeySearch.Proofs.Search.BruteForce

/-! How a search ends. Behind every number of complete iterations four exits are tried in a fixed
order: enough keys, the limit on iterations, the end of the index space, and a failure in the next
batch. `Oracle.exit?` tells from the oracle and the settings alone which of them is open there, if
any. A search whose flag stays down takes the first exit that opens, behind exactly as many
iterations, and returns what that exit stands for (`Exit.Explains`). -/

namespace KeySearch.Search

variable {σ : Type}

/-! ### Exits -/

inductive Exit where
  | enough
  | limited (limit : UInt64)
  | exhausted
  | failing
  deriving DecidableEq

/-- The exit that is open behind `k` iterations. -/
def Oracle.exit? (o : Oracle) (c : Config) (target k : Nat) : Option Exit :=
  if target ≤ (o.hits c.accountOnly c.startIndex.toNat (k * c.batchSize)).length then some .enough
  else
    match c.maxIterations.filter (·.toNat ≤ k) with
    | some limit => some (.limited limit)
    | none =>
      if UInt64.size ≤ c.indexBehind (k + 1) then some .exhausted
      else if (List.range' (c.indexBehind k) c.batchSize).any (o.failsAt c.accountOnly) then
        some .failing
      else none

/-- The failure is that of a candidate in the batch behind `k` iterations, with its own cause. A
single worker meets the first such candidate. -/
def Oracle.BatchFailure (o : Oracle) (c : Config) (k : Nat) (failure : Failure) : Prop :=
  ∃ index, c.indexBehind k ≤ index ∧ index < c.indexBehind (k + 1) ∧
    failure.position = positionAt c.accountOnly (UInt64.ofNat index) ∧
    o.outcome failure.position = .error failure.cause ∧
    (c.numTasks = 1 → ∀ earlier, c.indexBehind k ≤ earlier → earlier < index →
      o.failsAt c.accountOnly earlier = false)

/-- The failure is that of the first candidate without a key in the task of some worker, in the
batch behind `k` iterations. -/
def Oracle.TaskFailure (o : Oracle) (c : Config) (k : Nat) (failure : Failure) : Prop :=
  ∃ worker index, worker < c.numTasks.toNat ∧
    c.indexBehind k + worker * c.taskWidth.toNat ≤ index ∧
    index < c.indexBehind k + (worker + 1) * c.taskWidth.toNat ∧
    failure.position = positionAt c.accountOnly (UInt64.ofNat index) ∧
    o.outcome failure.position = .error failure.cause ∧
    ∀ earlier, c.indexBehind k + worker * c.taskWidth.toNat ≤ earlier → earlier < index →
      o.failsAt c.accountOnly earlier = false

/-- What a search returns that takes an exit behind `k` iterations. -/
def Exit.Explains (o : Oracle) (c : Config) (target k : Nat) (result : Except Error Report) :
    Exit → Prop
  | .enough => ∃ report, result = .ok report ∧ report.stats.iterations.toNat = k ∧
      Refines o c target report.keys k
  | .limited limit => result = .error (.iterationLimit limit)
  | .exhausted => ∃ index, index.toNat = c.indexBehind k ∧
      result = .error (.indexSpaceExhausted index)
  | .failing => ∃ failure, o.BatchFailure c k failure ∧ result = .error (.derivation failure)

/-- Only the exit for enough keys stands for a success. -/
theorem Exit.Explains.eq_enough {o : Oracle} {c : Config} {target k : Nat} {report : Report}
    {exit : Exit} (h : exit.Explains o c target k (.ok report)) : exit = .enough := by
  cases exit with
  | enough => rfl
  | limited limit => cases h
  | exhausted => obtain ⟨_, _, same⟩ := h; cases same
  | failing => obtain ⟨_, _, same⟩ := h; cases same

/-! ### Which exit is open -/

section

variable {o : Oracle} {c : Config} {target k : Nat}

theorem exit?_of_enough
    (h : target ≤ (o.hits c.accountOnly c.startIndex.toNat (k * c.batchSize)).length) :
    o.exit? c target k = some .enough := by
  rw [Oracle.exit?, if_pos h]

theorem exit?_of_limited
    (short : (o.hits c.accountOnly c.startIndex.toNat (k * c.batchSize)).length < target)
    {limit : UInt64} (h : c.maxIterations.filter (·.toNat ≤ k) = some limit) :
    o.exit? c target k = some (.limited limit) := by
  rw [Oracle.exit?, if_neg (Nat.not_le_of_lt short), h]

theorem exit?_of_exhausted
    (short : (o.hits c.accountOnly c.startIndex.toNat (k * c.batchSize)).length < target)
    (free : c.maxIterations.filter (·.toNat ≤ k) = none)
    (h : UInt64.size ≤ c.indexBehind (k + 1)) : o.exit? c target k = some .exhausted := by
  rw [Oracle.exit?, if_neg (Nat.not_le_of_lt short), free]
  exact if_pos h

/-- With a whole batch ahead, only a failure in it is left to end the search. -/
theorem exit?_of_batch
    (short : (o.hits c.accountOnly c.startIndex.toNat (k * c.batchSize)).length < target)
    (free : c.maxIterations.filter (·.toNat ≤ k) = none)
    (room : c.indexBehind (k + 1) < UInt64.size) :
    o.exit? c target k =
      if (List.range' (c.indexBehind k) c.batchSize).any (o.failsAt c.accountOnly) then
        some .failing
      else none := by
  rw [Oracle.exit?, if_neg (Nat.not_le_of_lt short), free]
  exact if_neg (Nat.not_le_of_lt room)

theorem any_failsAt_iff :
    (List.range' (c.indexBehind k) c.batchSize).any (o.failsAt c.accountOnly) = true ↔
      ∃ index, c.indexBehind k ≤ index ∧ index < c.indexBehind (k + 1) ∧
        o.failsAt c.accountOnly index = true := by
  simp only [List.any_eq_true, List.mem_range'_1, Config.indexBehind_succ, and_assoc]

theorem any_failsAt_of_batchFailure {failure : Failure} (h : o.BatchFailure c k failure) :
    (List.range' (c.indexBehind k) c.batchSize).any (o.failsAt c.accountOnly) = true := by
  obtain ⟨index, low, high, position, cause, -⟩ := h
  refine any_failsAt_iff.2 ⟨index, low, high, Oracle.failsAt_eq_true_iff.2 ⟨failure.cause, ?_⟩⟩
  rw [Oracle.outcomeAt, ← position, cause]

/-- A task that fails is one of its batch, and the first one for a single worker. -/
theorem Oracle.TaskFailure.batchFailure {failure : Failure} (h : o.TaskFailure c k failure) :
    o.BatchFailure c k failure := by
  obtain ⟨worker, index, bound, low, high, position, cause, first⟩ := h
  have inside : (worker + 1) * c.taskWidth.toNat ≤ c.batchSize := Nat.mul_le_mul_right _ bound
  refine ⟨index, Nat.le_of_add_right_le low, ?_, position, cause, fun single earlier behind => ?_⟩
  · rw [Config.indexBehind_succ]
    omega
  · rw [single] at bound
    rw [Nat.lt_one_iff.1 bound, Nat.zero_mul, Nat.add_zero] at first
    exact first earlier behind

/-- The limit is not used up. -/
theorem free_iff :
    c.maxIterations.filter (·.toNat ≤ k) = none ↔
      ∀ limit, c.maxIterations = some limit → k < limit.toNat := by
  simp [Option.filter_eq_none_iff]

theorem exit?_eq_enough_iff :
    o.exit? c target k = some .enough ↔
      target ≤ (o.hits c.accountOnly c.startIndex.toNat (k * c.batchSize)).length := by
  refine ⟨fun enough => ?_, exit?_of_enough⟩
  unfold Oracle.exit? at enough
  split at enough
  · assumption
  · split at enough
    · cases enough
    · split at enough
      · cases enough
      · split at enough <;> cases enough

/-- No exit is open where a batch can be run that does not fail. -/
theorem exit?_eq_none_iff :
    o.exit? c target k = none ↔
      (o.hits c.accountOnly c.startIndex.toNat (k * c.batchSize)).length < target ∧
        c.maxIterations.filter (·.toNat ≤ k) = none ∧ c.indexBehind (k + 1) < UInt64.size ∧
        ∀ index, c.indexBehind k ≤ index → index < c.indexBehind (k + 1) →
          o.failsAt c.accountOnly index = false := by
  have clean : (¬ (List.range' (c.indexBehind k) c.batchSize).any (o.failsAt c.accountOnly) =
      true) ↔ ∀ index, c.indexBehind k ≤ index → index < c.indexBehind (k + 1) →
        o.failsAt c.accountOnly index = false := by
    rw [any_failsAt_iff]
    simp only [not_exists, not_and, Bool.not_eq_true]
  rw [Oracle.exit?, ← clean]
  split
  · rename_i enough
    exact iff_of_false nofun fun none => Nat.not_le_of_lt none.1 enough
  · rename_i short
    rw [and_iff_right (Nat.lt_of_not_le short)]
    split
    · rename_i limit reached
      rw [reached]
      exact iff_of_false nofun fun none => nomatch none.1
    · rename_i free
      rw [and_iff_right free]
      split
      · rename_i beyond
        exact iff_of_false nofun fun none => Nat.not_le_of_lt none.1 beyond
      · rename_i room
        rw [and_iff_right (Nat.lt_of_not_le room)]
        split
        · rename_i failing
          exact iff_of_false nofun fun clean => clean failing
        · rename_i clean
          exact iff_of_true rfl clean

/-- There is only one first exit. -/
theorem first_exit_unique {j : Nat} {exit exit' : Exit} (found : o.exit? c target j = some exit)
    (before : ∀ i < j, o.exit? c target i = none) (found' : o.exit? c target k = some exit')
    (before' : ∀ i < k, o.exit? c target i = none) : j = k ∧ exit = exit' := by
  rcases Nat.lt_trichotomy j k with lt | rfl | lt
  · rw [before' j lt] at found
    cases found
  · exact ⟨rfl, Option.some.inj (found.symm.trans found')⟩
  · rw [before k lt] at found'
    cases found'

end

/-! ### Taking an exit -/

theorem Progress.Collected.size_found {c : Config} {o : Oracle} {inv : σ → Prop} {k : Nat}
    {p : Progress σ} (h : p.Collected c o inv k) :
    p.found.size = (o.hits c.accountOnly c.startIndex.toNat (k * c.batchSize)).length := by
  rw [← Array.length_toList, h.found]

namespace Coordinator

variable {c : Coordinator σ} {schedule : Schedule} {seed : Seed} {target : UInt64} {o : Oracle}
  {inv : σ → Prop} {p : Progress σ} {k : Nat}

theorem limitReached?_eq (h : p.Collected c.config o inv k) :
    c.limitReached? p.stats.iterations = c.config.maxIterations.filter (·.toNat ≤ k) := by
  rw [limitReached?, ← h.counts.iterations]
  rfl

/-- A batch is handed out only where the next one has an index to start from. -/
theorem indexBehind_lt (h : p.Collected c.config o inv k) {batch : Batch}
    (handed : c.allocator.nextBatch p.sliding = .ok batch) :
    c.config.indexBehind (k + 1) < UInt64.size :=
  next_of_counts h.counts handed ▸ batch.next.toNat_lt

/-- A batch fails with the first failure of one of its tasks. -/
theorem taskFailure_of_iterate (behaves : (c.job seed).Behaves inv o)
    (h : p.Collected c.config o inv k) {batch : Batch}
    (handed : c.allocator.nextBatch p.sliding = .ok batch) {failure : Failure}
    (outcome : (c.iterate schedule seed p batch).outcome = .error (.derivation failure)) :
    o.TaskFailure c.config k failure := by
  have filled := Iteration.outcome_eq_derivation_iff.1 outcome
  obtain ⟨t, mem, index, low, high, position, cause, first⟩ :=
    (joined_iterate behaves h schedule batch).firstFailure filled
  obtain ⟨worker, found⟩ := List.mem_iff_getElem?.1 mem
  obtain ⟨bound, kind, start, stop⟩ := Allocator.task_of_nextBatch handed found
  obtain ⟨tasks, width, accountOnly⟩ := c.allocator_eq_config
  rw [h.counts.sliding, width] at start stop
  rw [kind, accountOnly] at position first
  rw [start] at low first
  exact ⟨worker, index, tasks ▸ bound, low, stop ▸ high, position, cause, first⟩

/-- A round that leads to another one finds no exit open. -/
theorem exit?_of_advanced (behaves : (c.job seed).Behaves inv o)
    (h : p.Collected c.config o inv k) {q : Progress σ}
    (next : c.round schedule seed target p = .next q) :
    o.exit? c.config target.toNat k = none := by
  have rounded := c.rounded_round schedule seed target p
  rw [next] at rounded
  cases rounded with
  | @advanced batch keys short down free handed outcome =>
    rw [h.size_found] at short
    rw [limitReached?_eq h] at free
    exact exit?_eq_none_iff.2 ⟨short, free, indexBehind_lt h handed,
      (hits_of_iterate behaves h handed outcome).2⟩

theorem Reached.exit?_eq_none (behaves : (c.job seed).Behaves inv o) {q : Progress σ}
    (h : Reached c schedule seed target p k q) (start : p.Collected c.config o inv 0) :
    ∀ j < k, o.exit? c.config target.toNat j = none := by
  induction h with
  | start => exact fun j lt => absurd lt (Nat.not_lt_zero j)
  | @next k q r before round ih =>
    intro j lt
    rcases Nat.lt_succ_iff_lt_or_eq.1 lt with earlier | rfl
    · exact ih j earlier
    · exact exit?_of_advanced behaves (before.collected behaves start) round

/-- The last round takes the exit that is open, unless the search is cancelled. -/
theorem Rounded.exists_exit (behaves : (c.job seed).Behaves inv o)
    (h : p.Collected c.config o inv k) {run : Run σ}
    (last : Rounded c schedule seed target p (.ended run)) (down : run.cancelled = false) :
    ∃ exit, o.exit? c.config target.toNat k = some exit ∧ run.iterations = k ∧
      exit.Explains o c.config target.toNat k run.result := by
  have counted := last.iterations_eq h.counts
  cases last with
  | enough reached =>
    exact ⟨.enough, exit?_of_enough (h.size_found ▸ reached), counted, _, rfl, h.counts.iterations,
      h.refines reached⟩
  | cancelled _ up => exact absurd (up.symm.trans down) Bool.false_ne_true.symm
  | @limited limit short _ reached =>
    rw [limitReached?_eq h] at reached
    exact ⟨.limited limit, exit?_of_limited (h.size_found ▸ short) reached, counted, rfl⟩
  | exhausted short _ free refused =>
    obtain ⟨beyond, rfl⟩ := Allocator.nextBatch_eq_error_iff.1 refused
    rw [c.batchSize_eq, h.counts.sliding, ← Config.indexBehind_succ] at beyond
    rw [limitReached?_eq h] at free
    exact ⟨.exhausted, exit?_of_exhausted (h.size_found ▸ short) free beyond, counted, p.sliding,
      h.counts.sliding, rfl⟩
  | @failed batch failure short _ free handed outcome =>
    rw [limitReached?_eq h] at free
    have explained := (taskFailure_of_iterate behaves h handed outcome).batchFailure
    refine ⟨.failing, ?_, counted, failure, explained, rfl⟩
    rw [exit?_of_batch (h.size_found ▸ short) free (indexBehind_lt h handed),
      if_pos (any_failsAt_of_batchFailure explained)]
  | @interrupted batch _ _ _ _ outcome =>
    have up := (Iteration.outcome_eq_cancelled_iff.1 outcome).2
    exact absurd (up.symm.trans down) Bool.false_ne_true.symm

/-- A search that fails has met the first failure of some task. -/
theorem Rounded.taskFailure (behaves : (c.job seed).Behaves inv o)
    (h : p.Collected c.config o inv k) {run : Run σ}
    (last : Rounded c schedule seed target p (.ended run)) {failure : Failure}
    (failed : run.result = .error (.derivation failure)) : o.TaskFailure c.config k failure := by
  cases last with
  | enough | cancelled | limited | interrupted => cases failed
  | exhausted _ _ _ refused =>
    obtain ⟨-, rfl⟩ := Allocator.nextBatch_eq_error_iff.1 refused
    cases failed
  | failed _ _ _ handed outcome =>
    cases failed
    exact taskFailure_of_iterate behaves h handed outcome

/-- A search for keys takes the first exit that opens, unless it is cancelled. -/
theorem exists_first_exit (behaves : (c.job seed).Behaves inv o) (asked : target ≠ 0) {world : σ}
    (h : inv world)
    (quiet : ∀ action ∈ (c.run schedule seed target world false).history, action.raises = false) :
    ∃ k exit, o.exit? c.config target.toNat k = some exit ∧
      (∀ j < k, o.exit? c.config target.toNat j = none) ∧
      (c.run schedule seed target world false).iterations = k ∧
      exit.Explains o c.config target.toNat k (c.run schedule seed target world false).result ∧
      ∀ failure, (c.run schedule seed target world false).result = .error (.derivation failure) →
        o.TaskFailure c.config k failure := by
  obtain ⟨k, p, reached, collected, last⟩ := exists_last_round behaves schedule asked h false
  obtain ⟨exit, found, counted, explained⟩ :=
    last.exists_exit behaves collected (quiet_iff.1 quiet)
  have earlier := reached.exit?_eq_none behaves (c.collected_setOut _ target h false)
  exact ⟨k, exit, found, earlier, counted, explained,
    fun _ failed => last.taskFailure behaves collected failed⟩

end Coordinator

/-- A search that nobody cancels takes the first exit that opens. The number of iterations before it
is the least behind which some exit is open, and its result is the one that the exit stands for. -/
theorem run_takes_first_exit {deriver : Derivation.Deriver σ} {evaluator : Shard.Evaluator σ}
    {inv : σ → Prop} {derive : Seed → Position → Derivation.Outcome}
    {actual projected : Key → UInt32 → UInt32} (d : deriver.Behaves inv derive)
    (e : evaluator.assigner.Behaves inv actual projected) {config : Config}
    (valid : config.validate = .ok ()) (schedule : Schedule) (seed : Seed) {target : UInt64}
    (asked : target ≠ 0) {world : σ} (h : inv world) :
    ∃ c, Coordinator.make deriver evaluator config = .ok c ∧
      ∀ (o : Oracle) (run : Run σ),
        o = .ofFunctions derive actual projected evaluator.constraints seed →
        run = c.run schedule seed target world false →
        (∀ action ∈ run.history, action.raises = false) →
        ∃ k exit, o.exit? config target.toNat k = some exit ∧
          (∀ j < k, o.exit? config target.toNat j = none) ∧ run.iterations = k ∧
          exit.Explains o config target.toNat k run.result := by
  obtain ⟨c, made, rfl, rfl, rfl⟩ := Coordinator.exists_make_eq_ok deriver evaluator valid
  refine ⟨c, made, ?_⟩
  rintro o run rfl rfl quiet
  obtain ⟨k, exit, found, earlier, counted, explained, -⟩ :=
    Coordinator.exists_first_exit (Job.behaves d e : (c.job seed).Behaves inv _) asked h quiet
  exact ⟨k, exit, found, earlier, counted, explained⟩

/-- Two keys are there just when the single iteration allowed is used up. -/
theorem run_takes_first_exit_evenSearch :
    Iteration.evenOracle.exit? (evenSearch (some 1)).config 2 1 = some .enough ∧
      Iteration.evenOracle.exit? (evenSearch (some 1)).config 2 0 = none ∧
      ((evenSearch (some 1)).run (.roundRobin 2) ⟨[]⟩ 2 () false).iterations = 1 ∧
      Exit.enough.Explains Iteration.evenOracle (evenSearch (some 1)).config 2 1
        ((evenSearch (some 1)).run (.roundRobin 2) ⟨[]⟩ 2 () false).result := by
  have d : (evenSearch (some 1)).deriver.Behaves (fun _ => True) _ :=
    Derivation.Deriver.behaves_ofFn _
  have e : (evenSearch (some 1)).evaluator.assigner.Behaves (fun _ => True) _ _ :=
    Shard.Assigner.behaves_ofFn _ _
  have valid : (evenSearch (some 1)).config.validate = .ok () := rfl
  have asked : (2 : UInt64) ≠ 0 := by decide
  have world : (fun _ : Unit => True) () := trivial
  have made : Coordinator.make (evenSearch (some 1)).deriver (evenSearch (some 1)).evaluator
    (evenSearch (some 1)).config = .ok (evenSearch (some 1)) := rfl
  have quiet : ((evenSearch (some 1)).run (.roundRobin 2) ⟨[]⟩ 2 () false).history.all
      (fun action => !action.raises) = true :=
    Coordinator.run_of_within? asked (fun run => run.history.all fun action => !action.raises) 2
      (by cbv)
  have once : ((evenSearch (some 1)).run (.roundRobin 2) ⟨[]⟩ 2 () false).iterations = 1 :=
    Coordinator.run_of_within? asked Run.iterations 2 (by cbv)
  obtain ⟨c, made', first⟩ :=
    run_takes_first_exit d e valid (.roundRobin 2) ⟨[]⟩ asked world
  cases made.symm.trans made'
  obtain ⟨k, exit, found, earlier, counted, explained⟩ :=
    first Iteration.evenOracle _ rfl rfl (by simpa using quiet)
  cases once.symm.trans counted
  have enough : Iteration.evenOracle.exit? (evenSearch (some 1)).config 2 1 = some .enough := by cbv
  cases enough.symm.trans found
  exact ⟨enough, earlier 0 Nat.zero_lt_one, once, explained⟩

end KeySearch.Search
