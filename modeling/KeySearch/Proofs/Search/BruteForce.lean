import KeySearch.Proofs.Search.Ranking
import KeySearch.Proofs.Search.Rounds

/-! A search against trying the candidates one by one. `Oracle.bruteForce` derives one candidate
after the other, without tasks, workers or iterations, and stops when it has what it was asked for.
A search that succeeds ranks the hits of exactly the candidates of its complete iterations; if every
key carries the position it was asked for, these are the keys that brute force finds. -/

namespace KeySearch.Search

variable {σ : Type}

/-! ### Brute force -/

namespace Oracle

/-- Derives the candidates from an index on and keeps the wanted keys until `target` of them are at
hand. A candidate that fails, or the end of the indices, leaves nothing. -/
def bruteForce (o : Oracle) (accountOnly : Bool) (index : Nat) : (target : Nat) → Option (List Key)
  | 0 => some []
  | target + 1 =>
    if index < UInt64.size then
      match o.outcomeAt accountOnly index with
      | .error _ => none
      | .ok key =>
        if o.wanted key then (o.bruteForce accountOnly (index + 1) target).map (key :: ·)
        else o.bruteForce accountOnly (index + 1) (target + 1)
    else none
termination_by UInt64.size - index

variable {o : Oracle} {accountOnly : Bool}

theorem bruteForce_zero (index : Nat) : o.bruteForce accountOnly index 0 = some [] := by
  rw [bruteForce]

theorem bruteForce_of_ok {index target : Nat} (bound : index < UInt64.size) {key : Key}
    (outcome : o.outcomeAt accountOnly index = .ok key) :
    o.bruteForce accountOnly index (target + 1) =
      if o.wanted key then (o.bruteForce accountOnly (index + 1) target).map (key :: ·)
      else o.bruteForce accountOnly (index + 1) (target + 1) := by
  rw [bruteForce, if_pos bound, outcome]

theorem hits_cons (start count : Nat) :
    o.hits accountOnly start (count + 1) =
      (o.hitAt accountOnly start).toList ++ o.hits accountOnly (start + 1) count := by
  rw [Nat.add_comm, hits_add, hits_succ, hits_zero]
  rfl

/-- Where no candidate fails, brute force finds the first hits. -/
theorem bruteForce_eq_take {start count target : Nat} (bound : start + count ≤ UInt64.size)
    (clean : ∀ index, start ≤ index → index < start + count →
      o.failsAt accountOnly index = false)
    (enough : target ≤ (o.hits accountOnly start count).length) :
    o.bruteForce accountOnly start target =
      some ((o.hits accountOnly start count).take target) := by
  induction count generalizing start target with
  | zero =>
    rw [hits_zero, List.length_nil, Nat.le_zero] at enough
    rw [enough, bruteForce_zero, List.take_zero]
  | succ count ih =>
    cases target with
    | zero => rw [bruteForce_zero, List.take_zero]
    | succ target =>
      obtain ⟨key, outcome⟩ := failsAt_eq_false_iff.1 (clean start (Nat.le_refl _) (by omega))
      have rest := fun {target} => @ih (start + 1) target (by omega) fun index low high =>
        clean index (by omega) (by omega)
      rw [bruteForce_of_ok (by omega) outcome]
      rw [hits_cons] at enough ⊢
      by_cases wanted : o.wanted key
      · rw [hitAt_eq_some_iff.2 ⟨outcome, wanted⟩] at enough ⊢
        rw [if_pos wanted, rest (Nat.le_of_succ_le_succ enough)]
        rfl
      · have missed : o.hitAt accountOnly start = none := by
          rw [Option.eq_none_iff_forall_ne_some]
          intro other hit
          obtain ⟨found, wanted'⟩ := hitAt_eq_some_iff.1 hit
          cases outcome.symm.trans found
          exact wanted wanted'
        rw [missed] at enough ⊢
        rw [if_neg wanted]
        exact rest enough

end Oracle

/-! ### Successful searches -/

/-- The keys are what a search for `target` keys has to return behind so many complete iterations.
-/
structure Refines (o : Oracle) (c : Config) (target : Nat) (keys : List Key) (iterations : Nat) :
    Prop where
  clean : ∀ index, c.startIndex.toNat ≤ index → index < c.indexBehind iterations →
    o.failsAt c.accountOnly index = false
  ranking : IsRanking (o.hits c.accountOnly c.startIndex.toNat (iterations * c.batchSize)) target
    keys
  length : keys.length = target
  wanted : ∀ key ∈ keys, o.wanted key = true
  bruteForce : o.Stamps → o.bruteForce c.accountOnly c.startIndex.toNat target = some keys
  increasing : o.Stamps → keys.Pairwise (·.position < ·.position)
  /-- No key below the last one is missing, nor is one that lies behind all iterations. -/
  complete : o.Stamps → ∀ index, c.startIndex.toNat ≤ index → index < UInt64.size → ∀ key,
    o.outcomeAt c.accountOnly index = .ok key → o.wanted key = true →
    ∀ last ∈ keys, key.position ≤ last.position → key ∈ keys

namespace Progress

variable {c : Config} {o : Oracle} {inv : σ → Prop} {k : Nat} {p : Progress σ}

theorem Counts.indexBehind_le (h : p.Counts c k) : c.indexBehind k ≤ UInt64.size := by
  rw [← h.sliding]
  exact Nat.le_of_lt p.sliding.toNat_lt

/-- The ranked keys of a search that has enough of them. -/
theorem Collected.refines (h : p.Collected c o inv k) {target : Nat}
    (enough : target ≤ p.found.size) : Refines o c target (rank p.found.toList target) k := by
  have bound := h.counts.indexBehind_le
  have ranking := isRanking_rank p.found.toList target
  rw [← Array.length_toList] at enough
  rw [h.found] at ranking enough ⊢
  have increasing : o.Stamps →
      (o.hits c.accountOnly c.startIndex.toNat (k * c.batchSize)).Pairwise
        (·.position < ·.position) := fun stamps => stamps.pairwise_hits bound
  have cut : o.Stamps →
      rank (o.hits c.accountOnly c.startIndex.toNat (k * c.batchSize)) target =
        (o.hits c.accountOnly c.startIndex.toNat (k * c.batchSize)).take target :=
    fun stamps => rank_eq_take ((increasing stamps).imp Position.le_of_lt) target
  refine ⟨h.clean, ranking, ?_, fun key mem => ?_, fun stamps => ?_, fun stamps => ?_, ?_⟩
  · rw [ranking.length_eq, Nat.min_eq_left enough]
  · obtain ⟨-, -, -, -, wanted⟩ := Oracle.mem_hits.1 (ranking.mem_all mem)
    exact wanted
  · rw [cut stamps]
    exact Oracle.bruteForce_eq_take bound h.clean enough
  · rw [cut stamps]
    exact (increasing stamps).sublist (List.take_sublist _ _)
  · intro stamps index low high key outcome wanted last mem le
    rw [cut stamps] at mem ⊢
    refine mem_take_of_le (increasing stamps) (Oracle.mem_hits.2 ?_) mem le
    obtain ⟨j, -, behind, found, -⟩ := Oracle.mem_hits.1 (List.mem_of_mem_take mem)
    refine ⟨index, low, Nat.lt_of_not_le fun beyond => ?_, outcome, wanted⟩
    rw [stamps _ key outcome, stamps _ last found] at le
    exact Position.not_le_of_lt
      (positionAt_lt c.accountOnly (Nat.lt_of_lt_of_le behind beyond) high) le

end Progress

/-- A run that returns keys has as many complete iterations as its report says, and its keys are
those that brute force would return. -/
theorem refines_of_run {c : Coordinator σ} {schedule : Schedule} {seed : Seed} {target : UInt64}
    {inv : σ → Prop} {o : Oracle} (behaves : (c.job seed).Behaves inv o) (asked : target ≠ 0)
    {world : σ} (h : inv world) {cancelled : Bool} {report : Report}
    (returned : (c.run schedule seed target world cancelled).result = .ok report) :
    Refines o c.config target.toNat report.keys report.stats.iterations.toNat := by
  obtain ⟨k, p, -, collected, last⟩ :=
    Coordinator.exists_last_round behaves schedule asked h cancelled
  generalize c.run schedule seed target world cancelled = run at returned last
  cases last with
  | enough reached =>
    cases returned
    have counted : p.stats.iterations.toNat = k := collected.counts.iterations
    change Refines o c.config target.toNat (rank p.found.toList target.toNat)
      p.stats.iterations.toNat
    rw [counted]
    exact collected.refines reached
  | cancelled _ _ | limited _ _ _ | exhausted _ _ _ _ | failed _ _ _ _ _ | interrupted _ _ _ _ _ =>
    cases returned

/-- With services that keep nothing in mind, a search that succeeds returns what brute force over
the indices returns, whatever the partition into tasks, the schedule and the kind of index. -/
theorem search_refines_bruteForce {deriver : Derivation.Deriver σ}
    {evaluator : Shard.Evaluator σ} {inv : σ → Prop}
    {derive : Seed → Position → Derivation.Outcome} {actual projected : Key → UInt32 → UInt32}
    (d : deriver.Behaves inv derive) (e : evaluator.assigner.Behaves inv actual projected)
    {config : Config} (valid : config.validate = .ok ()) (schedule : Schedule) (seed : Seed)
    {target : UInt64} (asked : target ≠ 0) {world : σ} (h : inv world) (cancelled : Bool) :
    ∃ c, Coordinator.make deriver evaluator config = .ok c ∧
      ∀ o, o = Oracle.ofFunctions derive actual projected evaluator.constraints seed →
        (∀ report, (c.run schedule seed target world cancelled).result = .ok report →
          Refines o config target.toNat report.keys report.stats.iterations.toNat) ∧
        (∀ keys, search schedule seed deriver evaluator.assigner evaluator.constraints config
            target world = .ok keys →
          ∃ iterations, Refines o config target.toNat keys iterations) := by
  obtain ⟨c, made, rfl, rfl, rfl⟩ := Coordinator.exists_make_eq_ok deriver evaluator valid
  have behaves : (c.job seed).Behaves inv _ := Job.behaves d e
  refine ⟨c, made, ?_⟩
  rintro o rfl
  refine ⟨fun report returned => refines_of_run behaves asked h returned, fun keys returned => ?_⟩
  rw [Coordinator.search_eq made] at returned
  cases result : (c.run schedule seed target world false).result with
  | error error =>
    rw [result] at returned
    cases returned
  | ok report =>
    rw [result] at returned
    cases returned
    exact ⟨_, refines_of_run behaves asked h result⟩

/-- The search of `Iteration.evenStubs` from index 5 on, in iterations of two tasks with two
candidates each. -/
def evenSearch (maxIterations : Option UInt64) : Coordinator Unit where
  deriver := Iteration.evenStubs.deriver
  evaluator := Iteration.evenStubs.evaluator
  config := ⟨5, 2, 2, false, maxIterations⟩
  allocator := ⟨2, 2, false, by decide, by decide⟩
  allocator_eq := rfl

/-- The third key comes from the second iteration, whose last key is cut off. -/
theorem search_refines_bruteForce_evenSearch :
    search (.roundRobin 2) ⟨[]⟩ (evenSearch none).deriver (evenSearch none).evaluator.assigner
        (evenSearch none).evaluator.constraints (evenSearch none).config 3 () =
      .ok [Rehearsal.stubKey ⟨0, 6⟩, Rehearsal.stubKey ⟨0, 8⟩, Rehearsal.stubKey ⟨0, 10⟩] ∧
    Iteration.evenOracle.bruteForce false 5 3 =
      some [Rehearsal.stubKey ⟨0, 6⟩, Rehearsal.stubKey ⟨0, 8⟩, Rehearsal.stubKey ⟨0, 10⟩] := by
  have d : (evenSearch none).deriver.Behaves (fun _ => True) _ := Derivation.Deriver.behaves_ofFn _
  have e : (evenSearch none).evaluator.assigner.Behaves (fun _ => True) _ _ :=
    Shard.Assigner.behaves_ofFn _ _
  have valid : (evenSearch none).config.validate = .ok () := rfl
  have asked : (3 : UInt64) ≠ 0 := by decide
  have made : Coordinator.make (evenSearch none).deriver (evenSearch none).evaluator
    (evenSearch none).config = .ok (evenSearch none) := rfl
  have result : ((evenSearch none).run (.roundRobin 2) ⟨[]⟩ 3 () false).result =
      .ok ⟨[Rehearsal.stubKey ⟨0, 6⟩, Rehearsal.stubKey ⟨0, 8⟩, Rehearsal.stubKey ⟨0, 10⟩],
        ⟨2, 8, 4⟩⟩ :=
    Coordinator.run_of_within? asked Run.result 3 (by cbv)
  have found := Coordinator.search_eq made (.roundRobin 2) ⟨[]⟩ 3 ()
  rw [result] at found
  obtain ⟨c, -, refines⟩ :=
    search_refines_bruteForce d e valid (.roundRobin 2) ⟨[]⟩ asked trivial false
  obtain ⟨_, refined⟩ := (refines Iteration.evenOracle rfl).2 _ found
  refine ⟨found, refined.bruteForce ?_⟩
  rintro position key outcome
  cases outcome
  simp [Rehearsal.stubKey, Rehearsal.moved]

end KeySearch.Search
