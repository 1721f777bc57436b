import KeySearch.Proofs.Search.Visits

/-! The numbers that a search keeps. They are words, and only the width of a batch and the start of
the next one are computed with care for the largest word; all other sums and products wrap if they
exceed it. None ever does: at each loop head the sliding index and the statistics are the exact
numbers that follow from the count of iterations (`Progress.Tallies`), and every number that is
computed on the way to the next loop head is a word (`Coordinator.StaysInWords`). -/

namespace KeySearch.Search

variable {σ : Type}

/-- The numbers at a loop head behind `k` iterations, all of them exact. -/
structure Progress.Tallies (c : Config) (k : Nat) (p : Progress σ) : Prop where
  sliding : p.sliding.toNat = c.indexBehind k
  bound : c.indexBehind k < UInt64.size
  iterations : p.stats.iterations.toNat = k
  candidates : p.stats.candidates.toNat = k * c.batchSize
  scanned : p.stats.candidates.toNat = p.sliding.toNat - c.startIndex.toNat
  matched : p.stats.matched.toNat = p.found.size
  matched_le : p.found.size ≤ p.stats.candidates.toNat
  iterations_le : p.stats.iterations.toNat ≤ p.stats.candidates.toNat

/-- Everything that is computed from a loop head on while a batch is cut into tasks, and the
capped width of a batch, is exact. -/
structure Coordinator.StaysInWords (c : Coordinator σ) (p : Progress σ) : Prop where
  width : c.config.candidatesPerIteration.toNat = c.config.batchSize
  sameWidth : c.allocator.batchWidth? = some c.config.candidatesPerIteration
  offset : ∀ worker < c.config.numTasks.toNat,
    worker * c.config.taskWidth.toNat < UInt64.size
  start : ∀ worker < c.config.numTasks.toNat,
    p.sliding.toNat + worker * c.config.taskWidth.toNat < UInt64.size
  stop : ∀ worker < c.config.numTasks.toNat,
    p.sliding.toNat + worker * c.config.taskWidth.toNat + c.config.taskWidth.toNat < UInt64.size

/-- The sums that lead from one loop head to the next are words, and so is the number of new keys.
-/
structure Coordinator.Sums (c : Coordinator σ) (p q : Progress σ) (keys : List Key) : Prop where
  found : q.found.toList = p.found.toList ++ keys
  count : keys.length < UInt64.size
  iterations : p.stats.iterations.toNat + 1 < UInt64.size
  candidates : p.stats.candidates.toNat + c.config.candidatesPerIteration.toNat < UInt64.size
  matched : p.stats.matched.toNat + keys.length < UInt64.size

namespace Coordinator

variable {c : Coordinator σ} {schedule : Schedule} {seed : Seed} {target : UInt64} {p : Progress σ}
  {k : Nat}

theorem tallies_setOut (c : Coordinator σ) (target : UInt64) (world : σ) (cancelled : Bool) :
    (c.setOut target world cancelled).Tallies c.config 0 := by
  have sliding := (c.counts_setOut target world cancelled).sliding
  refine ⟨sliding, sliding ▸ UInt64.toNat_lt _, rfl, ?_, ?_, rfl, Nat.le_refl _, Nat.le_refl _⟩
  · rw [Nat.zero_mul]
    rfl
  · exact (Nat.sub_self _).symm

/-- Where a batch is handed out, its last index is not past the largest word. -/
theorem sliding_add_batchSize_lt {batch : Batch}
    (handed : c.allocator.nextBatch p.sliding = .ok batch) :
    p.sliding.toNat + c.config.batchSize < UInt64.size := by
  rw [← c.batchSize_eq, ← (Allocator.nextBatch_eq_ok_iff.1 handed).2]
  exact batch.next.toNat_lt

theorem candidatesPerIteration_eq {batch : Batch}
    (handed : c.allocator.nextBatch p.sliding = .ok batch) :
    c.config.candidatesPerIteration.toNat = c.config.batchSize := by
  have room := sliding_add_batchSize_lt handed
  rw [Config.candidatesPerIteration, Word.toNat_mulCapped]
  exact Nat.min_eq_left (by rw [Config.batchSize] at room; omega)

theorem staysInWords {batch : Batch} (handed : c.allocator.nextBatch p.sliding = .ok batch) :
    c.StaysInWords p := by
  have room := sliding_add_batchSize_lt handed
  have width := candidatesPerIteration_eq handed
  have inside : ∀ worker < c.config.numTasks.toNat,
      worker * c.config.taskWidth.toNat + c.config.taskWidth.toNat ≤ c.config.batchSize := by
    intro worker bound
    rw [← Nat.succ_mul]
    exact Nat.mul_le_mul_right _ bound
  refine ⟨width, ?_, fun worker bound => ?_, fun worker bound => ?_, fun worker bound => ?_⟩
  · obtain ⟨tasks, taskWidth, -⟩ := c.allocator_eq_config
    rw [Allocator.batchWidth?, tasks, taskWidth, Word.mul?_eq_some_iff, width, Config.batchSize]
  · have := inside worker bound
    omega
  · have := inside worker bound
    omega
  · have := inside worker bound
    omega

/-- From one loop head to the next: no sum wraps, so all numbers stay exact. -/
theorem sums_and_tallies_of_round (h : p.Visited c.config k) (tallies : p.Tallies c.config k)
    {q : Progress σ} (next : c.round schedule seed target p = .next q) :
    (∃ keys, c.Sums p q keys) ∧ q.Tallies c.config (k + 1) := by
  have rounded := c.rounded_round schedule seed target p
  rw [next] at rounded
  cases rounded with
  | @advanced batch keys short down free handed outcome =>
    obtain ⟨silent, during, walked⟩ := exists_walked h.counts h.cell schedule seed handed
    have few := walked.keys
    rw [(Iteration.outcome_eq_ok_iff.1 outcome).2] at few
    have counts := counts_advance h.counts handed keys (c.iterate schedule seed p batch)
    have behind := Config.indexBehind_succ c.config k
    have bound : c.config.indexBehind (k + 1) < UInt64.size :=
      next_of_counts h.counts handed ▸ batch.next.toNat_lt
    have size : 0 < c.config.batchSize := c.batchSize_eq ▸ c.allocator.batchSize_pos
    have width := candidatesPerIteration_eq handed
    have scanned : (k + 1) * c.config.batchSize = k * c.config.batchSize + c.config.batchSize := by
      rw [Nat.add_mul, Nat.one_mul]
    have many : k + 1 ≤ (k + 1) * c.config.batchSize := Nat.le_mul_of_pos_right _ size
    have start : c.config.indexBehind (k + 1) =
      c.config.startIndex.toNat + (k + 1) * c.config.batchSize := rfl
    have candidates := tallies.candidates
    have matched := tallies.matched
    have matched_le := tallies.matched_le
    have iterations := tallies.iterations
    have sums : c.Sums p (c.advance p batch.next keys (c.iterate schedule seed p batch).reports
        (c.iterate schedule seed p batch).site) keys :=
      ⟨Array.toList_appendList, by omega, by omega, by omega, by omega⟩
    have counted : (p.stats.candidates + c.config.candidatesPerIteration).toNat =
        (k + 1) * c.config.batchSize := by
      rw [UInt64.toNat_add, Nat.mod_eq_of_lt sums.candidates]
      omega
    have found : (p.found ++ keys).size = p.found.size + keys.length := by
      rw [← Array.length_toList, Array.toList_appendList, List.length_append, Array.length_toList]
    refine ⟨⟨keys, sums⟩, counts.sliding, bound, counts.iterations, counted, ?_, ?_, ?_, ?_⟩
    · have sliding : batch.next.toNat = c.config.indexBehind (k + 1) := counts.sliding
      change (p.stats.candidates + c.config.candidatesPerIteration).toNat =
        batch.next.toNat - c.config.startIndex.toNat
      omega
    · change (p.stats.matched + UInt64.ofNat keys.length).toNat = (p.found ++ keys).size
      rw [UInt64.toNat_add, UInt64.toNat_ofNat_of_lt' sums.count, Nat.mod_eq_of_lt sums.matched]
      omega
    · change (p.found ++ keys).size ≤ (p.stats.candidates + c.config.candidatesPerIteration).toNat
      omega
    · have counted' : (p.stats.iterations + 1).toNat = k + 1 := counts.iterations
      change (p.stats.iterations + 1).toNat ≤
        (p.stats.candidates + c.config.candidatesPerIteration).toNat
      omega

theorem Reached.tallies {q : Progress σ} (h : Reached c schedule seed target p k q)
    (visited : p.Visited c.config 0) (start : p.Tallies c.config 0) : q.Tallies c.config k := by
  induction h with
  | start => exact start
  | @next k q r before round ih =>
    exact (sums_and_tallies_of_round (before.visited visited) ih round).2

end Coordinator

/-- The numbers of a successful report. -/
structure Report.Adds (c : Config) (target : UInt64) (r : Report) : Prop where
  length : r.keys.length = target.toNat
  matched : target.toNat ≤ r.stats.matched.toNat
  matched_le : r.stats.matched.toNat ≤ r.stats.candidates.toNat
  candidates : r.stats.candidates.toNat = r.stats.iterations.toNat * c.batchSize

/-- Whatever the services answer and whoever cancels, the numbers at every loop head are exact, no
number that leads from there to the next loop head wraps, and a search that succeeds reports numbers
that add up. -/
theorem counters_exact_at_every_loop_head (c : Coordinator σ) (schedule : Schedule) (seed : Seed)
    (target : UInt64) (world : σ) (cancelled : Bool) :
    (∀ k p, c.Reached schedule seed target (c.setOut target world cancelled) k p →
      p.Tallies c.config k ∧
        (∀ batch, c.allocator.nextBatch p.sliding = .ok batch → c.StaysInWords p) ∧
        ∀ q, c.round schedule seed target p = .next q → ∃ keys, c.Sums p q keys) ∧
      ∀ report, (c.run schedule seed target world cancelled).result = .ok report →
        report.Adds c.config target := by
  have visited := c.visited_setOut target world cancelled
  have tallies := c.tallies_setOut target world cancelled
  refine ⟨fun k p reached => ?_, fun report returned => ?_⟩
  · have here := reached.tallies visited tallies
    exact ⟨here, fun _ handed => Coordinator.staysInWords handed, fun q next =>
      (Coordinator.sums_and_tallies_of_round (reached.visited visited) here next).1⟩
  · by_cases asked : target = 0
    · rw [Coordinator.run, if_pos asked] at returned
      cases returned
      subst asked
      exact ⟨rfl, Nat.le_refl _, Nat.le_refl _, (Nat.zero_mul _).symm⟩
    · obtain ⟨k, p, reached, last⟩ := c.exists_reached_rounded schedule seed asked world cancelled
      have here := reached.tallies visited tallies
      generalize c.run schedule seed target world cancelled = run at last returned
      cases last with
      | enough enough =>
        cases returned
        have length := (isRanking_rank p.found.toList target.toNat).length_eq
        rw [Nat.min_eq_left (by rwa [Array.length_toList])] at length
        refine ⟨length, ?_, ?_, ?_⟩
        · exact here.matched ▸ enough
        · exact here.matched ▸ here.matched_le
        · exact here.candidates.trans (by rw [← here.iterations])
      | cancelled | limited | exhausted | failed | interrupted => cases returned

/-- The search of `evenSearch` through the last eight indices that a batch can have. -/
def edgeSearch : Coordinator Unit where
  deriver := Iteration.evenStubs.deriver
  evaluator := Iteration.evenStubs.evaluator
  config := ⟨18446744073709551607, 2, 2, false, none⟩
  allocator := (evenSearch none).allocator
  allocator_eq := rfl

/-- The sliding index ends at the largest word. -/
theorem counters_exact_at_every_loop_head_edgeSearch :
    ∃ p, edgeSearch.Reached (.roundRobin 2) ⟨[]⟩ 3 (edgeSearch.setOut 3 () false) 2 p ∧
      p.sliding.toNat = UInt64.size - 1 ∧ p.stats.iterations.toNat = 2 ∧
      p.stats.candidates.toNat = 8 ∧ p.found.size ≤ 8 := by
  obtain ⟨k, p, reached, last⟩ :=
    edgeSearch.exists_reached_rounded (.roundRobin 2) ⟨[]⟩ (by decide : (3 : UInt64) ≠ 0) () false
  have counted := last.iterations_eq (reached.counts (edgeSearch.counts_setOut 3 () false))
  have twice : (edgeSearch.run (.roundRobin 2) ⟨[]⟩ 3 () false).iterations = 2 :=
    Coordinator.run_of_within? (by decide) Run.iterations 3 (by cbv)
  cases twice.symm.trans counted
  obtain ⟨tallies, -, -⟩ :=
    (counters_exact_at_every_loop_head edgeSearch (.roundRobin 2) ⟨[]⟩ 3 () false).1 2 p reached
  have candidates : p.stats.candidates.toNat = 8 := tallies.candidates
  exact ⟨p, reached, tallies.sliding, tallies.iterations, candidates,
    candidates ▸ tallies.matched_le⟩

end KeySearch.Search
