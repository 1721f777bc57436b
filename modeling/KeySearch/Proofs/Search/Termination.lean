import KeySearch.Proofs.Search.Counters
import KeySearch.Proofs.Search.StopSignal

/-! Every search ends, whatever its services answer and whoever cancels. Each step of a worker makes
the work of its iteration smaller, so a round takes no more steps than its batch has room for
(`Config.roundSteps`). Each complete iteration uses up a batch of the indices from the start on, and
there are only so many batches of them (`Config.room`): with that many rounds and one more the loop
comes to its end. Only four exits can come before the end of the indices, and each has its cause. -/

namespace KeySearch.Search

variable {σ : Type}

/-- The batches for which there are indices from the start on. -/
def Config.room (c : Config) : Nat := (UInt64.size - 1 - c.startIndex.toNat) / c.batchSize

/-- A bound on the steps of one round: the look at the flag, the hand-out behind it, three steps for
every candidate and three more for every worker, and the join. -/
def Config.roundSteps (c : Config) : Nat := 3 * (c.batchSize + c.numTasks.toNat) + 3

/-! ### Steps of a round -/

theorem Worker.work_ofTask_le (t : Task) :
    (ofTask t).work ≤ 3 * (t.stop.toNat - t.start.toNat + 1) := by
  by_cases more : t.start.toNat < t.stop.toNat
  · simp only [work, ofTask, phaseAt, if_pos more]
    omega
  · simp [work, ofTask, phaseAt, if_neg more]

theorem Tiles.totalWork_le {accountOnly : Bool} {start stop : Nat} {tasks : List Task}
    (h : Tiles accountOnly start tasks stop) :
    Iteration.totalWork (tasks.map Worker.ofTask) ≤ 3 * (stop - start + tasks.length) := by
  induction h with
  | nil => exact Nat.zero_le _
  | @cons start stop task tasks _ starts le rest ih =>
    have first := Worker.work_ofTask_le task
    have further := rest.le
    have split : Iteration.totalWork ((task :: tasks).map Worker.ofTask) =
        (Worker.ofTask task).work + Iteration.totalWork (tasks.map Worker.ofTask) := rfl
    rw [split, List.length_cons]
    omega

namespace Iteration

/-- A step takes at least as much from the work as it adds to the clock. -/
theorem clock_add_work_act_le {it : Iteration σ} (job : Job σ) (move : Move) {number : Nat}
    {w : Worker} (found : it.workers[number]? = some w) (running : w.isRunning = true) :
    (it.act job move number).site.clock + (it.act job move number).work ≤
      it.site.clock + it.work := by
  have less : (it.act job move number).work < it.work := by
    rw [act_of_getElem? job move found]
    exact totalWork_set_lt found (w.work_step_lt job number _ running)
  rw [clock_act job move found running]
  omega

theorem clock_settle_le (it : Iteration σ) (job : Job σ) (schedule : Schedule) :
    (it.settle job schedule).site.clock ≤ it.site.clock + it.work := by
  have bound := settle_induction job schedule
    (motive := fun later => later.site.clock + later.work ≤ it.site.clock + it.work)
    (fun _ move _ _ h found running => (clock_add_work_act_le job move found running).trans h)
    (Nat.le_refl _)
  omega

theorem clock_run_le (job : Job σ) (schedule : Schedule) (tasks : List Task) (site : Site σ) :
    (run job schedule tasks site).site.clock ≤
      site.clock + totalWork (tasks.map Worker.ofTask) + 1 := by
  have settled := clock_settle_le (ofTasks tasks site) job schedule
  rw [run, join, Site.clock_tick]
  exact Nat.succ_le_succ settled

end Iteration

/-! ### Failures in the history -/

theorem Worker.hasFailed_of_phaseAt {w : Worker} {t : Task} {index : Nat}
    (h : w.phase = phaseAt t index) : w.hasFailed = false := by
  by_cases more : index < t.stop.toNat <;> simp [hasFailed, h, phaseAt, more]

theorem Worker.Stepped.failure_shows {job : Job σ} {w : Worker} {number : Nat} {site : Site σ}
    {after : Worker × Site σ} (h : Stepped job w number site after)
    (failed : after.1.hasFailed = true) :
    w.hasFailed = true ∨ ∃ action ∈ after.2.history, action.refuses = true := by
  cases h with
  | brokeOff | cleared => cases failed
  | refused => exact .inr ⟨_, List.mem_cons_self, rfl⟩
  | examined =>
    rw [hasFailed_of_phaseAt rfl] at failed
    cases failed
  | recorded phase => exact .inl (by rw [hasFailed, phase])

namespace Iteration

/-- Whoever has met a failure has made a call that shows it. -/
def FailuresShow (it : Iteration σ) : Prop :=
  ∀ w ∈ it.workers, w.hasFailed = true → ∃ action ∈ it.site.history, action.refuses = true

theorem FailuresShow.act {it : Iteration σ} (h : it.FailuresShow) (job : Job σ) (move : Move)
    {number : Nat} {w : Worker} (found : it.workers[number]? = some w)
    (running : w.isRunning = true) : (it.act job move number).FailuresShow := by
  obtain ⟨during, since⟩ := since_act job move found running
  have kept : (∃ action ∈ it.site.history, action.refuses = true) →
      ∃ action ∈ (it.act job move number).site.history, action.refuses = true := by
    rintro ⟨action, mem, refuses⟩
    exact ⟨action, since.history ▸ List.mem_append_right _ mem, refuses⟩
  rw [act_of_getElem? job move found] at kept ⊢
  intro v mem failed
  rcases List.mem_or_eq_of_mem_set mem with old | rfl
  · exact kept (h v old failed)
  · rcases (Worker.stepped_step job number (it.site.tick move) running).failure_shows failed with
      before | shown
    · exact kept (h w (List.mem_of_getElem? found) before)
    · exact shown

theorem failuresShow_run (job : Job σ) (schedule : Schedule) (tasks : List Task) (site : Site σ) :
    (run job schedule tasks site).FailuresShow := by
  have started : (ofTasks tasks site).FailuresShow := by
    intro w mem failed
    obtain ⟨t, -, rfl⟩ := List.mem_map.1 mem
    rw [Worker.hasFailed_of_phaseAt rfl] at failed
    cases failed
  have settled := settle_induction job schedule (motive := FailuresShow)
    (fun _ move _ _ h found running => h.act job move found running) started
  intro w mem failed
  obtain ⟨action, there, refuses⟩ := settled w mem failed
  have ticked := ((ofTasks tasks site).settle job schedule).site.since_tick
    (schedule ((ofTasks tasks site).settle job schedule).site.clock)
  exact ⟨action, ticked.history ▸ List.mem_append_right _ there, refuses⟩

end Iteration

namespace Coordinator

variable {c : Coordinator σ} {schedule : Schedule} {seed : Seed} {target : UInt64} {p : Progress σ}
  {k : Nat}

theorem clock_iterate_le (h : p.Counts c.config k) (schedule : Schedule) (seed : Seed)
    {batch : Batch} (handed : c.allocator.nextBatch p.sliding = .ok batch) :
    (c.iterate schedule seed p batch).site.clock ≤ p.site.clock + c.config.roundSteps := by
  have steps := Iteration.clock_run_le (c.job seed) schedule batch.tasks (admitted schedule p).site
  have work := (tiles_of_counts h handed).totalWork_le
  have before := clock_admitted schedule p
  rw [Config.indexBehind_succ, Nat.add_sub_cancel_left, length_tasks handed] at work
  change (c.iterate schedule seed p batch).site.clock ≤ _ at steps
  rw [Config.roundSteps]
  omega

/-- A batch that fails has made a call that failed. -/
theorem exists_refuses_of_iterate (cell : p.site.failure = none) {batch : Batch}
    {failure : Failure}
    (outcome : (c.iterate schedule seed p batch).outcome = .error (.derivation failure)) :
    ∃ action ∈ (c.iterate schedule seed p batch).site.history, action.refuses = true := by
  have filled := Iteration.outcome_eq_derivation_iff.1 outcome
  obtain ⟨w, mem, phase⟩ := (c.coherent_iterate schedule seed cell batch).cell failure filled
  exact Iteration.failuresShow_run (c.job seed) schedule batch.tasks (admitted schedule p).site w
    mem (by rw [Worker.hasFailed, phase])

/-! ### Rounds -/

/-- Each complete iteration has used up a batch of the indices. -/
theorem Reached.le_room {q : Progress σ} (h : Reached c schedule seed target p k q)
    (visited : p.Visited c.config 0) (tallies : p.Tallies c.config 0) : k ≤ c.config.room := by
  have size : 0 < c.config.batchSize := c.batchSize_eq ▸ c.allocator.batchSize_pos
  have bound := (h.tallies visited tallies).bound
  rw [Config.indexBehind] at bound
  rw [Config.room, Nat.le_div_iff_mul_le size]
  omega

/-- No iteration is run once the limit is used up. -/
theorem Reached.le_limit {q : Progress σ} (h : Reached c schedule seed target p k q)
    (start : p.Counts c.config 0) {limit : UInt64} (same : c.config.maxIterations = some limit) :
    k ≤ limit.toNat := by
  cases h with
  | start => exact Nat.zero_le _
  | @next k r _ before round =>
    have rounded := c.rounded_round schedule seed target r
    rw [round] at rounded
    cases rounded with
    | advanced _ _ free _ _ =>
      rw [limitReached?, same, Option.filter_eq_none_iff] at free
      have below := free limit rfl
      rw [decide_eq_true_eq, UInt64.not_le, UInt64.lt_iff_toNat_lt,
        (before.counts start).iterations] at below
      exact below

/-- Where a search does not stop at a loop head, it has room for one more batch; so one round more
than there are batches is enough for the whole loop. -/
theorem within?_of_reached {q : Progress σ} (visited : p.Visited c.config 0)
    (tallies : p.Tallies c.config 0) (rounds : Nat)
    (h : Reached c schedule seed target p k q) (enough : c.config.room < k + rounds) :
    c.within? schedule seed target rounds q = some (c.rounds schedule seed target q) := by
  induction rounds generalizing k q with
  | zero => exact absurd (h.le_room visited tallies) (Nat.not_le_of_lt enough)
  | succ rounds ih =>
    rw [within?]
    cases round : c.round schedule seed target q with
    | ended run => rw [rounds_of_ended round]
    | next r =>
      rw [rounds_of_next round]
      exact ih (h.next round) (by omega)

/-- The last round of a search makes no call for which there is no index before the last one. -/
theorem Rounded.length_calls_le (visited : p.Visited c.config k) (tallies : p.Tallies c.config k)
    {run : Run σ} (last : Rounded c schedule seed target p (.ended run)) :
    (Action.calls run.history).length ≤ UInt64.size - 1 - c.config.startIndex.toNat := by
  have before := visited.all.length_eq
  rw [length_positions] at before
  have bound := tallies.bound
  rw [Config.indexBehind] at bound
  rw [← List.length_map Prod.snd, ← Action.requested_eq_map_calls]
  rcases last.exists_history with ⟨silent, quiet, history⟩ | ⟨batch, handed, history⟩
  · rw [history, Stretch.requested_append_silent _ quiet]
    omega
  · obtain ⟨silent, during, walked⟩ :=
      exists_walked visited.counts visited.cell schedule seed handed
    have more := walked.subperm.length_le
    rw [length_positions] at more
    have next := next_of_counts visited.counts handed
    have word : batch.next.toNat < UInt64.size := batch.next.toNat_lt
    rw [Config.indexBehind_succ, Config.indexBehind] at next
    rw [history, walked.requested_eq, List.length_append]
    omega

end Coordinator

/-! ### Searches -/

/-- The five ways in which a search can end, each with its cause. Where none of the first four
occurs, the search has gone through all batches for which there are indices. -/
inductive Run.EndsBy (run : Run σ) (c : Config) (target : Nat) : Prop
  | enough {report : Report} (result : run.result = .ok report)
    (length : report.keys.length = target)
  | cancelled (result : run.result = .error .cancelled) (up : run.cancelled = true)
  | failed {failure : Failure} (result : run.result = .error (.derivation failure))
    (cause : ∃ action ∈ run.history, action.refuses = true)
  | limited {limit : UInt64} (result : run.result = .error (.iterationLimit limit))
    (same : c.maxIterations = some limit) (iterations : run.iterations = limit.toNat)
  | exhausted {index : UInt64} (result : run.result = .error (.indexSpaceExhausted index))
    (iterations : run.iterations = c.room)
    (last : index.toNat = c.startIndex.toNat + c.room * c.batchSize)

namespace Coordinator

variable {c : Coordinator σ} {schedule : Schedule} {seed : Seed} {target : UInt64} {p : Progress σ}
  {k : Nat}

theorem Rounded.endsBy (visited : p.Visited c.config k) (tallies : p.Tallies c.config k)
    (limits : ∀ limit, c.config.maxIterations = some limit → k ≤ limit.toNat) {run : Run σ}
    (last : Rounded c schedule seed target p (.ended run)) :
    run.EndsBy c.config target.toNat := by
  have counted := last.iterations_eq visited.counts
  cases last with
  | enough reached =>
    exact .enough rfl (length_rank (by rwa [Array.length_toList]))
  | cancelled _ up => exact .cancelled rfl up
  | @limited limit _ _ reached =>
    obtain ⟨same, used⟩ := Option.filter_eq_some_iff.1 reached
    rw [decide_eq_true_eq, UInt64.le_iff_toNat_le, visited.counts.iterations] at used
    exact .limited rfl same (counted.trans (Nat.le_antisymm (limits limit same) used))
  | exhausted _ _ _ refused =>
    obtain ⟨beyond, rfl⟩ := Allocator.nextBatch_eq_error_iff.1 refused
    have size : 0 < c.config.batchSize := c.batchSize_eq ▸ c.allocator.batchSize_pos
    have bound := tallies.bound
    rw [c.batchSize_eq, tallies.sliding] at beyond
    rw [Config.indexBehind] at bound beyond
    have all : k = c.config.room := by
      refine (Nat.div_eq_of_lt_le ?_ ?_).symm
      · omega
      · rw [Nat.add_mul, Nat.one_mul]
        omega
    exact .exhausted rfl (counted.trans all) (all ▸ tallies.sliding)
  | failed _ _ _ _ outcome =>
    obtain ⟨action, mem, refuses⟩ := exists_refuses_of_iterate visited.cell outcome
    exact .failed rfl ⟨action, List.mem_reverse.2 mem, refuses⟩
  | interrupted _ _ _ _ outcome =>
    exact .cancelled rfl (Iteration.outcome_eq_cancelled_iff.1 outcome).2

end Coordinator

/-- Whatever the services answer and whoever cancels, a search comes to its end within one round
more than there are batches of indices, each round within a bounded number of steps; it has no more
complete iterations than there are batches or than the limit allows, and makes no more calls than
there are indices before the last one. -/
theorem every_search_ends (c : Coordinator σ) (schedule : Schedule) (seed : Seed) (target : UInt64)
    (world : σ) (cancelled : Bool) :
    ∀ run, run = c.run schedule seed target world cancelled →
      (target ≠ 0 → c.within? schedule seed target (c.config.room + 1)
        (c.setOut target world cancelled) = some run) ∧
      (∀ k p batch, c.Reached schedule seed target (c.setOut target world cancelled) k p →
        c.allocator.nextBatch p.sliding = .ok batch →
        (c.iterate schedule seed p batch).site.clock ≤ p.site.clock + c.config.roundSteps) ∧
      run.iterations ≤ c.config.room ∧
      (∀ limit, c.config.maxIterations = some limit → run.iterations ≤ limit.toNat) ∧
      (Action.calls run.history).length ≤ UInt64.size - 1 - c.config.startIndex.toNat ∧
      run.EndsBy c.config target.toNat := by
  rintro run rfl
  have visited := c.visited_setOut target world cancelled
  have tallies := c.tallies_setOut target world cancelled
  refine ⟨fun asked => ?_, fun k p batch reached handed => ?_, ?_⟩
  · rw [Coordinator.run, if_neg asked]
    exact Coordinator.within?_of_reached visited tallies _ .start (by omega)
  · exact Coordinator.clock_iterate_le (reached.counts visited.counts) schedule seed handed
  · by_cases asked : target = 0
    · rw [Coordinator.run, if_pos asked]
      have none : ([] : List Key).length = target.toNat := by rw [asked]; rfl
      exact ⟨Nat.zero_le _, fun _ _ => Nat.zero_le _, Nat.zero_le _, .enough rfl none⟩
    · obtain ⟨k, p, reached, last⟩ := c.exists_reached_rounded schedule seed asked world cancelled
      have here := reached.visited visited
      have exact' := reached.tallies visited tallies
      have counted := last.iterations_eq here.counts
      rw [counted]
      exact ⟨reached.le_room visited tallies, fun _ same => reached.le_limit visited.counts same,
        last.length_calls_le here exact',
        last.endsBy here exact' fun _ same => reached.le_limit visited.counts same⟩

/-- With too few keys behind the start, the search of `edgeSearch` goes through both batches that
are left and ends at the last index. -/
theorem every_search_ends_edgeSearch :
    ∃ run : Run Unit, run = edgeSearch.run (.roundRobin 2) ⟨[]⟩ 100 () false ∧
      edgeSearch.config.room = 2 ∧
      edgeSearch.within? (.roundRobin 2) ⟨[]⟩ 100 3 (edgeSearch.setOut 100 () false) = some run ∧
      run.iterations = 2 ∧ (Action.calls run.history).length ≤ 8 ∧
      run.result = .error (.indexSpaceExhausted 18446744073709551615) := by
  have room : edgeSearch.config.room = 2 := by decide
  have asked : (100 : UInt64) ≠ 0 := by decide
  have result : (edgeSearch.run (.roundRobin 2) ⟨[]⟩ 100 () false).result =
      .error (.indexSpaceExhausted 18446744073709551615) :=
    Coordinator.run_of_within? asked Run.result 3 (by cbv)
  obtain ⟨within, -, -, -, calls, ends⟩ :=
    every_search_ends edgeSearch (.roundRobin 2) ⟨[]⟩ 100 () false _ rfl
  refine ⟨_, rfl, room, room ▸ within asked, ?_, calls, result⟩
  cases ends with
  | exhausted _ iterations => exact iterations.trans room
  | enough other | cancelled other | failed other | limited other => cases result.symm.trans other

end KeySearch.Search
