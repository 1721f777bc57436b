import KeySearch.Proofs.Search.WorkerProtocol
import KeySearch.Search.Coordinator

/-! Rounds of a search. `Rounded` lists everything that a round can lead to, with all checks that
came before it; `Reached` is the progress at the loop heads of a search, by the number of complete
iterations before it, and every search ends with a round at some loop head. The flag is up in the
end exactly if it was at first or some step of the search has raised it. At each loop head the
sliding index is exactly as many batches behind the start as there were iterations
(`Progress.Counts`), and with services that keep nothing in mind the keys at hand are the hits
among all candidates so far, none of which has failed (`Progress.Collected`). -/

namespace KeySearch.Search

variable {σ : Type}

/-- The candidates of one iteration, which may be more than a word can count. -/
def Config.batchSize (c : Config) : Nat := c.numTasks.toNat * c.taskWidth.toNat

def Event.isProgress : Event → Bool
  | .progress .. => true
  | _ => false

/-- The complete iterations of a run, each of which has reported its progress. -/
def Run.iterations (run : Run σ) : Nat := run.events.countP Event.isProgress

theorem Iteration.countP_reports (it : Iteration σ) : it.reports.countP Event.isProgress = 0 := by
  rw [List.countP_eq_zero]
  intro event mem
  obtain ⟨⟨w, number⟩, -, rfl⟩ := List.mem_map.1 mem
  simp only [Iteration.reportOf]
  split <;> exact Bool.false_ne_true

namespace Coordinator

/-! ### What a round can do -/

/-- The progress behind the coordinator's look at the flag. -/
def looked (schedule : Schedule) (p : Progress σ) : Progress σ := (p.tick schedule).look

/-- The progress as the limit and the allocator find it, behind what is done from outside after the
look. -/
def admitted (schedule : Schedule) (p : Progress σ) : Progress σ :=
  (looked schedule p).tick schedule

theorem failure_looked (schedule : Schedule) (p : Progress σ) :
    (looked schedule p).site.failure = p.site.failure := p.site.failure_tick _

theorem failure_admitted (schedule : Schedule) (p : Progress σ) :
    (admitted schedule p).site.failure = p.site.failure :=
  ((looked schedule p).site.failure_tick _).trans (failure_looked schedule p)

theorem world_looked (schedule : Schedule) (p : Progress σ) :
    (looked schedule p).site.world = p.site.world := p.site.world_tick _

theorem world_admitted (schedule : Schedule) (p : Progress σ) :
    (admitted schedule p).site.world = p.site.world :=
  ((looked schedule p).site.world_tick _).trans (world_looked schedule p)

theorem clock_admitted (schedule : Schedule) (p : Progress σ) :
    (admitted schedule p).site.clock = p.site.clock + 2 :=
  ((looked schedule p).site.clock_tick _).trans
    (congrArg (· + 1) (p.site.clock_tick (schedule p.site.clock)))

theorem exists_since_looked (schedule : Schedule) (p : Progress σ) :
    ∃ silent : List Action, (∀ action ∈ silent, action.isSilent = true) ∧
      p.site.Since silent (looked schedule p).site := by
  obtain ⟨silent, quiet, since⟩ := p.site.exists_since_tick (schedule p.site.clock)
  exact ⟨_, List.forall_mem_cons.2 ⟨rfl, quiet⟩, since.trans (Site.since_note _ rfl rfl)⟩

theorem exists_since_admitted (schedule : Schedule) (p : Progress σ) :
    ∃ silent : List Action, (∀ action ∈ silent, action.isSilent = true) ∧
      p.site.Since silent (admitted schedule p).site := by
  obtain ⟨silent, quiet, since⟩ := exists_since_looked schedule p
  obtain ⟨more, quiet', since'⟩ :=
    (looked schedule p).site.exists_since_tick (schedule (looked schedule p).site.clock)
  exact ⟨_, List.forall_mem_append.2 ⟨quiet', quiet⟩, since.trans since'⟩

/-- The iteration that a round runs. -/
def iterate (c : Coordinator σ) (schedule : Schedule) (seed : Seed) (p : Progress σ)
    (batch : Batch) : Iteration σ :=
  Iteration.run (c.job seed) schedule batch.tasks (admitted schedule p).site

/-- What a round leads to, and what it has found out on the way. -/
inductive Rounded (c : Coordinator σ) (schedule : Schedule) (seed : Seed) (target : UInt64)
    (p : Progress σ) : Round σ → Prop
  | enough (reached : target.toNat ≤ p.found.size) :
    Rounded c schedule seed target p (.ended (p.complete target))
  | cancelled (short : p.found.size < target.toNat)
    (up : (looked schedule p).site.cancelled = true) :
    Rounded c schedule seed target p
      (.ended ((looked schedule p).finish (.error .cancelled)
        [.cancelledBefore p.stats.iterations]))
  | limited {limit : UInt64} (short : p.found.size < target.toNat)
    (down : (looked schedule p).site.cancelled = false)
    (reached : c.limitReached? p.stats.iterations = some limit) :
    Rounded c schedule seed target p
      (.ended ((admitted schedule p).finish (.error (.iterationLimit limit))
        [.limitReached limit p.found.size]))
  | exhausted {error : Error} (short : p.found.size < target.toNat)
    (down : (looked schedule p).site.cancelled = false)
    (free : c.limitReached? p.stats.iterations = none)
    (refused : c.allocator.nextBatch p.sliding = .error error) :
    Rounded c schedule seed target p (.ended ((admitted schedule p).finish (.error error) []))
  | failed {batch : Batch} {failure : Failure} (short : p.found.size < target.toNat)
    (down : (looked schedule p).site.cancelled = false)
    (free : c.limitReached? p.stats.iterations = none)
    (handed : c.allocator.nextBatch p.sliding = .ok batch)
    (outcome : (c.iterate schedule seed p batch).outcome = .error (.derivation failure)) :
    Rounded c schedule seed target p
      (.ended
        ({ p with site := (c.iterate schedule seed p batch).site }.finish
          (.error (.derivation failure)) (c.iterate schedule seed p batch).reports))
  | interrupted {batch : Batch} (short : p.found.size < target.toNat)
    (down : (looked schedule p).site.cancelled = false)
    (free : c.limitReached? p.stats.iterations = none)
    (handed : c.allocator.nextBatch p.sliding = .ok batch)
    (outcome : (c.iterate schedule seed p batch).outcome = .error .cancelled) :
    Rounded c schedule seed target p
      (.ended
        ({ p with site := (c.iterate schedule seed p batch).site }.finish (.error .cancelled)
          ((c.iterate schedule seed p batch).reports ++ [Event.cancelledWithin])))
  | advanced {batch : Batch} {keys : List Key} (short : p.found.size < target.toNat)
    (down : (looked schedule p).site.cancelled = false)
    (free : c.limitReached? p.stats.iterations = none)
    (handed : c.allocator.nextBatch p.sliding = .ok batch)
    (outcome : (c.iterate schedule seed p batch).outcome = .ok keys) :
    Rounded c schedule seed target p
      (.next (c.advance p batch.next keys (c.iterate schedule seed p batch).reports
        (c.iterate schedule seed p batch).site))

theorem rounded_round (c : Coordinator σ) (schedule : Schedule) (seed : Seed) (target : UInt64)
    (p : Progress σ) : Rounded c schedule seed target p (c.round schedule seed target p) := by
  unfold round
  split
  · rename_i reached
    exact .enough reached
  · rename_i short
    have short := Nat.lt_of_not_le short
    dsimp only
    split
    · rename_i up
      exact .cancelled short up
    · rename_i down
      have down := Bool.eq_false_iff.2 down
      unfold proceed
      split
      · rename_i limit reached
        exact .limited short down reached
      · rename_i free
        split
        · rename_i batch handed
          unfold runBatch
          dsimp only
          split
          · rename_i keys outcome
            exact .advanced short down free handed outcome
          · rename_i outcome
            exact .interrupted short down free handed outcome
          · rename_i error other outcome
            rcases Iteration.error_of_outcome outcome with rfl | ⟨failure, rfl⟩
            · exact absurd rfl other
            · exact .failed short down free handed outcome
        · rename_i error refused
          exact .exhausted short down free refused

/-! ### Loop heads -/

/-- The loop heads of a search from some progress on, by the iterations in between. -/
inductive Reached (c : Coordinator σ) (schedule : Schedule) (seed : Seed) (target : UInt64)
    (p : Progress σ) : Nat → Progress σ → Prop
  | start : Reached c schedule seed target p 0 p
  | next {k : Nat} {q r : Progress σ} (before : Reached c schedule seed target p k q)
    (round : c.round schedule seed target q = .next r) :
    Reached c schedule seed target p (k + 1) r

/-- What holds at first and survives every complete iteration holds at all loop heads. -/
theorem Reached.of_advance {c : Coordinator σ} {schedule : Schedule} {seed : Seed}
    {target : UInt64} {p q : Progress σ} {k : Nat} (h : Reached c schedule seed target p k q)
    {motive : Nat → Progress σ → Prop} (start : motive 0 p)
    (advance : ∀ (j : Nat) (r : Progress σ) (batch : Batch) (keys : List Key), motive j r →
      (looked schedule r).site.cancelled = false → c.allocator.nextBatch r.sliding = .ok batch →
      (c.iterate schedule seed r batch).outcome = .ok keys →
      motive (j + 1) (c.advance r batch.next keys (c.iterate schedule seed r batch).reports
        (c.iterate schedule seed r batch).site)) : motive k q := by
  induction h with
  | start => exact start
  | @next j r q _ round ih =>
    have rounded := c.rounded_round schedule seed target r
    rw [round] at rounded
    cases rounded with
    | @advanced batch keys _ down _ handed outcome =>
      exact advance j r batch keys ih down handed outcome

/-- A search ends with a round at one of its loop heads. -/
theorem exists_reached_ended {c : Coordinator σ} {schedule : Schedule} {seed : Seed}
    {target : UInt64} {p q : Progress σ} {k : Nat} (h : Reached c schedule seed target p k q) :
    ∃ last r, Reached c schedule seed target p last r ∧
      c.round schedule seed target r = .ended (c.rounds schedule seed target q) := by
  fun_induction c.rounds schedule seed target q generalizing k with
  | case1 q run ended => exact ⟨k, q, h, ended⟩
  | case2 q r round _ ih => exact ih (h.next round)

/-- A search for keys ends with what a round at one of its loop heads leads to. -/
theorem exists_reached_rounded (c : Coordinator σ) (schedule : Schedule) (seed : Seed)
    {target : UInt64} (asked : target ≠ 0) (world : σ) (cancelled : Bool) :
    ∃ k p, Reached c schedule seed target (c.setOut target world cancelled) k p ∧
      Rounded c schedule seed target p (.ended (c.run schedule seed target world cancelled)) := by
  obtain ⟨k, p, reached, ended⟩ := exists_reached_ended
    (.start : Reached c schedule seed target (c.setOut target world cancelled) 0 _)
  refine ⟨k, p, reached, ?_⟩
  rw [run, if_neg asked, ← ended]
  exact c.rounded_round schedule seed target p

/-! ### The site of a whole search -/

/-- What holds of the site at first, and survives moves from outside, looks of the coordinator, the
hand-out of batches and steps of running workers, holds of the site that the search leaves. -/
theorem exists_site_run (c : Coordinator σ) (schedule : Schedule) (seed : Seed) (target : UInt64)
    (world : σ) (cancelled : Bool) {motive : Site σ → Prop}
    (start : motive (.start world cancelled))
    (tick : ∀ s move, motive s → motive (s.tick move))
    (look : ∀ s, motive s → motive (s.note (.looked s.cancelled)))
    (handedOut : ∀ s tasks, motive s → motive (s.note (.handedOut tasks)))
    (step : ∀ s (w : Worker) number, motive s → w.isRunning = true →
      motive (w.step (c.job seed) number s).2) :
    ∃ site, motive site ∧
      (c.run schedule seed target world cancelled).history = site.history.reverse ∧
      (c.run schedule seed target world cancelled).world = site.world := by
  have looks (p : Progress σ) (holds : motive p.site) : motive (looked schedule p).site :=
    look _ (tick _ _ holds)
  have iterate (p : Progress σ) (batch : Batch) (holds : motive p.site) :
      motive (c.iterate schedule seed p batch).site :=
    Iteration.site_run_induction (c.job seed) schedule batch.tasks _ (tick _ _ (looks p holds)) tick
      (fun s => handedOut s batch.tasks) step
  by_cases asked : target = 0
  · rw [run, if_pos asked]
    exact ⟨_, start, rfl, rfl⟩
  · obtain ⟨k, p, reached, last⟩ := c.exists_reached_rounded schedule seed asked world cancelled
    have holds : motive p.site := reached.of_advance (motive := fun _ p => motive p.site) start
      fun _ r batch _ holds _ _ _ => iterate r batch holds
    generalize c.run schedule seed target world cancelled = run at last
    cases last with
    | enough => exact ⟨_, holds, rfl, rfl⟩
    | cancelled => exact ⟨_, looks p holds, rfl, rfl⟩
    | limited | exhausted => exact ⟨_, tick _ _ (looks p holds), rfl, rfl⟩
    | @failed batch | @interrupted batch => exact ⟨_, iterate p batch holds, rfl, rfl⟩

/-! ### The flag over a whole search -/

theorem since_iterate (c : Coordinator σ) (schedule : Schedule) (seed : Seed) (p : Progress σ)
    (batch : Batch) : ∃ during, p.site.Since during (c.iterate schedule seed p batch).site := by
  obtain ⟨before, -, admits⟩ := exists_since_admitted schedule p
  obtain ⟨during, since⟩ :=
    Iteration.since_run (c.job seed) schedule batch.tasks (admitted schedule p).site
  exact ⟨_, admits.trans since⟩

theorem Reached.since {c : Coordinator σ} {schedule : Schedule} {seed : Seed} {target : UInt64}
    {p q : Progress σ} {k : Nat} (h : Reached c schedule seed target p k q) :
    ∃ during, p.site.Since during q.site := by
  refine h.of_advance (motive := fun _ q => ∃ during, p.site.Since during q.site)
    ⟨[], .refl _⟩ fun j r batch keys earlier _ _ _ => ?_
  obtain ⟨before, since⟩ := earlier
  obtain ⟨later, since'⟩ := c.since_iterate schedule seed r batch
  exact ⟨_, since.trans since'⟩

/-- What a search leaves behind is the site of its last round. -/
theorem Rounded.since {c : Coordinator σ} {schedule : Schedule} {seed : Seed} {target : UInt64}
    {p : Progress σ} {run : Run σ} (h : Rounded c schedule seed target p (.ended run)) :
    ∃ during site, p.site.Since during site ∧ run.history = site.history.reverse ∧
      run.cancelled = site.cancelled := by
  cases h with
  | enough => exact ⟨[], p.site, .refl _, rfl, rfl⟩
  | cancelled =>
    obtain ⟨during, -, since⟩ := exists_since_looked schedule p
    exact ⟨during, _, since, rfl, rfl⟩
  | limited | exhausted =>
    obtain ⟨during, -, since⟩ := exists_since_admitted schedule p
    exact ⟨during, _, since, rfl, rfl⟩
  | @failed batch | @interrupted batch =>
    obtain ⟨during, since⟩ := c.since_iterate schedule seed p batch
    exact ⟨during, _, since, rfl, rfl⟩

/-- The flag is up in the end exactly if it was up at first or some step has raised it. -/
theorem cancelled_run (c : Coordinator σ) (schedule : Schedule) (seed : Seed) (target : UInt64)
    (world : σ) (cancelled : Bool) :
    (c.run schedule seed target world cancelled).cancelled =
      (cancelled || (c.run schedule seed target world cancelled).history.any Action.raises) := by
  by_cases asked : target = 0
  · rw [run, if_pos asked]
    exact (Bool.or_false cancelled).symm
  · obtain ⟨k, p, reached, rounded⟩ := c.exists_reached_rounded schedule seed asked world cancelled
    obtain ⟨earlier, since⟩ := reached.since
    obtain ⟨later, site, since', history, flag⟩ := rounded.since
    have whole := since.trans since'
    have steps : site.history = later ++ earlier := whole.history.trans (List.append_nil _)
    rw [history, flag, List.any_reverse, steps]
    exact whole.cancelled

/-- The history tells whether a search that starts with the flag down leaves it down. -/
theorem quiet_iff {c : Coordinator σ} {schedule : Schedule} {seed : Seed} {target : UInt64}
    {world : σ} :
    (∀ action ∈ (c.run schedule seed target world false).history, action.raises = false) ↔
      (c.run schedule seed target world false).cancelled = false := by
  rw [c.cancelled_run, Bool.false_or, List.any_eq_false]
  simp only [Bool.not_eq_true]

section

variable {c : Coordinator σ} {schedule : Schedule} {seed : Seed} {target : UInt64}
  (calls : (c.job seed).IsQuiet) (quiet : schedule.IsQuiet)

include quiet in
theorem cancelled_looked (p : Progress σ) :
    (looked schedule p).site.cancelled = p.site.cancelled := p.site.cancelled_tick (quiet _)

include quiet in
theorem cancelled_admitted (p : Progress σ) :
    (admitted schedule p).site.cancelled = p.site.cancelled :=
  ((looked schedule p).site.cancelled_tick (quiet _)).trans (cancelled_looked quiet p)

include calls quiet

theorem cancelled_iterate (p : Progress σ) (batch : Batch) :
    (c.iterate schedule seed p batch).site.cancelled = p.site.cancelled :=
  (Iteration.cancelled_run calls quiet batch.tasks _).trans (cancelled_admitted quiet p)

theorem Reached.cancelled_eq {p q : Progress σ} {k : Nat}
    (h : Reached c schedule seed target p k q) : q.site.cancelled = p.site.cancelled :=
  h.of_advance (motive := fun _ q => q.site.cancelled = p.site.cancelled) rfl
    fun _ r batch _ same _ _ _ => (cancelled_iterate calls quiet r batch).trans same

theorem Rounded.cancelled_eq {p : Progress σ} {run : Run σ}
    (last : Rounded c schedule seed target p (.ended run)) : run.cancelled = p.site.cancelled := by
  cases last with
  | enough => rfl
  | cancelled => exact cancelled_looked quiet p
  | limited | exhausted => exact cancelled_admitted quiet p
  | @failed batch | @interrupted batch => exact cancelled_iterate calls quiet p batch

/-- Where neither calls nor anybody outside cancel, no step of the search raises the flag. -/
theorem quiet_run (target : UInt64) (world : σ) :
    ∀ action ∈ (c.run schedule seed target world false).history, action.raises = false := by
  rw [quiet_iff]
  by_cases asked : target = 0
  · rw [run, if_pos asked]
  · obtain ⟨k, p, reached, last⟩ := c.exists_reached_rounded schedule seed asked world false
    exact (last.cancelled_eq calls quiet).trans (reached.cancelled_eq calls quiet)

end

/-! ### Bounded evaluation -/

/-- The end of a search, if it comes within so many rounds. -/
def within? (c : Coordinator σ) (schedule : Schedule) (seed : Seed) (target : UInt64) :
    Nat → Progress σ → Option (Run σ)
  | 0, _ => none
  | rounds + 1, p =>
    match c.round schedule seed target p with
    | .ended run => some run
    | .next q => c.within? schedule seed target rounds q

theorem rounds_of_within? {c : Coordinator σ} {schedule : Schedule} {seed : Seed}
    {target : UInt64} {n : Nat} {p : Progress σ} {run : Run σ}
    (h : c.within? schedule seed target n p = some run) :
    c.rounds schedule seed target p = run := by
  induction n generalizing p with
  | zero => cases h
  | succ n ih =>
    rw [within?] at h
    split at h
    · rename_i last ended
      rw [rounds_of_ended ended]
      exact Option.some.inj h
    · rename_i q next
      rw [rounds_of_next next]
      exact ih h

/-- What can be read off a search within so many rounds holds of the search. -/
theorem run_of_within? {c : Coordinator σ} {schedule : Schedule} {seed : Seed} {target : UInt64}
    (asked : target ≠ 0) {world : σ} {cancelled : Bool} {α : Type} (f : Run σ → α) (n : Nat) {x : α}
    (h : (c.within? schedule seed target n (c.setOut target world cancelled)).map f = some x) :
    f (c.run schedule seed target world cancelled) = x := by
  obtain ⟨run, found, rfl⟩ := Option.map_eq_some_iff.1 h
  rw [Coordinator.run, if_neg asked, rounds_of_within? found]

/-! ### Settings -/

/-- Every valid configuration has a coordinator. -/
theorem exists_make_eq_ok (deriver : Derivation.Deriver σ) (evaluator : Shard.Evaluator σ)
    {config : Config} (valid : config.validate = .ok ()) :
    ∃ c, make deriver evaluator config = .ok c ∧ c.deriver = deriver ∧ c.evaluator = evaluator ∧
      c.config = config := by
  unfold make
  split
  · exact ⟨_, rfl, rfl, rfl, rfl⟩
  · rename_i fault refused
    unfold Config.validate at valid
    unfold Allocator.ofConfig at refused
    split at valid
    · cases valid
    · split at valid
      · cases valid
      · rename_i tasks width
        rw [dif_neg tasks, dif_neg width] at refused
        cases refused

/-- A single search is a run with a coordinator of its own and the flag down. -/
theorem search_eq {c : Coordinator σ} {evaluator : Shard.Evaluator σ}
    {deriver : Derivation.Deriver σ} {config : Config}
    (made : make deriver evaluator config = .ok c) (schedule : Schedule) (seed : Seed)
    (target : UInt64) (world : σ) :
    search schedule seed deriver evaluator.assigner evaluator.constraints config target world =
      (c.run schedule seed target world false).result.map Report.keys := by
  change make deriver ⟨evaluator.constraints, evaluator.assigner⟩ config = .ok c at made
  rw [search, made]
  change Except.bind (c.run schedule seed target world false).result _ = _
  cases (c.run schedule seed target world false).result <;> rfl

theorem allocator_eq_config (c : Coordinator σ) :
    c.allocator.numTasks = c.config.numTasks ∧ c.allocator.taskWidth = c.config.taskWidth ∧
      c.allocator.accountOnly = c.config.accountOnly := by
  have made := c.allocator_eq
  unfold Allocator.ofConfig at made
  split at made
  · cases made
  · split at made
    · cases made
    · rw [← Except.ok.inj made]
      exact ⟨rfl, rfl, rfl⟩

theorem batchSize_eq (c : Coordinator σ) : c.allocator.batchSize = c.config.batchSize := by
  obtain ⟨tasks, width, -⟩ := c.allocator_eq_config
  rw [Allocator.batchSize, Config.batchSize, tasks, width]

theorem accountOnly_eq (c : Coordinator σ) : c.allocator.accountOnly = c.config.accountOnly :=
  c.allocator_eq_config.2.2

theorem length_tasks {c : Coordinator σ} {index : UInt64} {batch : Batch}
    (handed : c.allocator.nextBatch index = .ok batch) :
    batch.tasks.length = c.config.numTasks.toNat := by
  rw [(Allocator.nextBatch_eq_ok_iff.1 handed).1, List.length_map, List.length_range,
    c.allocator_eq_config.1]

/-! ### The workers of a round -/

theorem coherent_iterate (c : Coordinator σ) (schedule : Schedule) (seed : Seed) {p : Progress σ}
    (cell : p.site.failure = none) (batch : Batch) :
    (c.iterate schedule seed p batch).Coherent batch.tasks :=
  Iteration.coherent_run (c.job seed) schedule batch.tasks
    ((failure_admitted schedule p).trans cell)

/-- Without a reason to stop at the join, every worker is through with its task. -/
theorem scanned_iterate {c : Coordinator σ} {schedule : Schedule} {seed : Seed} {p : Progress σ}
    (cell : p.site.failure = none) {batch : Batch}
    (down : (c.iterate schedule seed p batch).site.stops = false) {w : Worker}
    (mem : w ∈ (c.iterate schedule seed p batch).workers) : w.phase = .ended .scanned :=
  (c.coherent_iterate schedule seed cell batch).scanned
    (Iteration.stopped_settle _ (c.job seed) schedule) down mem

theorem length_workers_iterate {c : Coordinator σ} {schedule : Schedule} {seed : Seed}
    {p : Progress σ} (cell : p.site.failure = none) {batch : Batch}
    (handed : c.allocator.nextBatch p.sliding = .ok batch) :
    (c.iterate schedule seed p batch).workers.length = c.config.numTasks.toNat := by
  rw [← length_tasks handed, ← (c.coherent_iterate schedule seed cell batch).tasks, List.length_map]

end Coordinator

/-! ### Counters -/

/-- The first candidate behind so many iterations. -/
def Config.indexBehind (c : Config) (k : Nat) : Nat := c.startIndex.toNat + k * c.batchSize

theorem Config.indexBehind_succ (c : Config) (k : Nat) :
    c.indexBehind (k + 1) = c.indexBehind k + c.batchSize := by
  rw [indexBehind, indexBehind, Nat.add_mul, Nat.one_mul, Nat.add_assoc]

theorem Config.indexBehind_mono (c : Config) {j k : Nat} (le : j ≤ k) :
    c.indexBehind j ≤ c.indexBehind k :=
  Nat.add_le_add_left (Nat.mul_le_mul_right _ le) _

/-- The progress stands behind exactly `k` complete iterations. -/
structure Progress.Counts (c : Config) (k : Nat) (p : Progress σ) : Prop where
  sliding : p.sliding.toNat = c.indexBehind k
  iterations : p.stats.iterations.toNat = k
  progress : p.events.toList.countP Event.isProgress = k

namespace Coordinator

variable {c : Coordinator σ} {schedule : Schedule} {seed : Seed} {target : UInt64}

theorem counts_setOut (c : Coordinator σ) (target : UInt64) (world : σ) (cancelled : Bool) :
    (c.setOut target world cancelled).Counts c.config 0 := by
  refine ⟨?_, rfl, rfl⟩
  rw [Config.indexBehind, Nat.zero_mul, Nat.add_zero]
  rfl

theorem next_of_counts {p : Progress σ} {k : Nat} (h : p.Counts c.config k) {batch : Batch}
    (handed : c.allocator.nextBatch p.sliding = .ok batch) :
    batch.next.toNat = c.config.indexBehind (k + 1) := by
  rw [(Allocator.nextBatch_eq_ok_iff.1 handed).2, c.batchSize_eq, h.sliding,
    Config.indexBehind_succ]

theorem tiles_of_counts {p : Progress σ} {k : Nat} (h : p.Counts c.config k) {batch : Batch}
    (handed : c.allocator.nextBatch p.sliding = .ok batch) :
    Tiles c.config.accountOnly (c.config.indexBehind k) batch.tasks
      (c.config.indexBehind (k + 1)) := by
  rw [← next_of_counts h handed, ← h.sliding, ← c.accountOnly_eq]
  exact Allocator.tiles_of_nextBatch handed

theorem counts_advance {p : Progress σ} {k : Nat} (h : p.Counts c.config k) {batch : Batch}
    (handed : c.allocator.nextBatch p.sliding = .ok batch) (keys : List Key) (it : Iteration σ) :
    (c.advance p batch.next keys it.reports it.site).Counts c.config (k + 1) := by
  have next := next_of_counts h handed
  refine ⟨next, ?_, ?_⟩
  · change (p.stats.iterations + 1).toNat = k + 1
    have bound := batch.next.toNat_lt
    have size : 0 < c.config.batchSize := c.batchSize_eq ▸ c.allocator.batchSize_pos
    have small : k + 1 ≤ (k + 1) * c.config.batchSize := Nat.le_mul_of_pos_right _ size
    rw [Config.indexBehind] at next
    rw [UInt64.toNat_add, h.iterations, UInt64.toNat_one, Nat.mod_eq_of_lt (by omega)]
  · have none := it.countP_reports
    simp only [advance, Array.toList_push, Array.toList_appendList, List.countP_append, h.progress,
      none, List.countP_singleton, Event.isProgress, if_true, Nat.add_zero]

theorem Reached.counts {p q : Progress σ} {k : Nat} (h : Reached c schedule seed target p k q)
    (start : p.Counts c.config 0) : q.Counts c.config k :=
  h.of_advance (motive := fun k q => q.Counts c.config k) start
    fun _ _ _ keys counts _ handed _ => counts_advance counts handed keys _

/-- A search has as many complete iterations as its last loop head has behind it. -/
theorem Rounded.iterations_eq {p : Progress σ} {k : Nat} (h : p.Counts c.config k) {run : Run σ}
    (last : Rounded c schedule seed target p (.ended run)) : run.iterations = k := by
  have finished (site : Site σ) (result : Except Error Report) {events : List Event}
      (none : events.countP Event.isProgress = 0) :
      ({ p with site }.finish result events).iterations = k := by
    rw [Run.iterations, Progress.finish, List.countP_append, none, Nat.add_zero]
    exact h.progress
  cases last with
  | enough | cancelled | limited | exhausted => exact finished _ _ rfl
  | @failed batch => exact finished _ _ (Iteration.countP_reports _)
  | @interrupted batch =>
    refine finished _ _ ?_
    rw [List.countP_append, Iteration.countP_reports]
    rfl

end Coordinator

/-! ### Keys at hand -/

/-- The progress behind `k` complete iterations holds all hits so far, and nothing has failed. -/
structure Progress.Collected (c : Config) (o : Oracle) (inv : σ → Prop) (k : Nat)
    (p : Progress σ) : Prop where
  counts : p.Counts c k
  found : p.found.toList = o.hits c.accountOnly c.startIndex.toNat (k * c.batchSize)
  clean : ∀ index, c.startIndex.toNat ≤ index → index < c.indexBehind k →
    o.failsAt c.accountOnly index = false
  cell : p.site.failure = none
  world : inv p.site.world

namespace Coordinator

variable {c : Coordinator σ} {schedule : Schedule} {seed : Seed} {target : UInt64} {o : Oracle}
  {inv : σ → Prop}

theorem collected_setOut (c : Coordinator σ) (o : Oracle) (target : UInt64) {world : σ}
    (h : inv world) (cancelled : Bool) :
    (c.setOut target world cancelled).Collected c.config o inv 0 where
  counts := c.counts_setOut target world cancelled
  found := by rw [Nat.zero_mul, Oracle.hits_zero]; rfl
  clean index low high := by
    rw [Config.indexBehind, Nat.zero_mul] at high
    omega
  cell := rfl
  world := h

theorem joined_iterate (behaves : (c.job seed).Behaves inv o) {p : Progress σ} {k : Nat}
    (h : p.Collected c.config o inv k) (schedule : Schedule) (batch : Batch) :
    (c.iterate schedule seed p batch).Joined o inv batch.tasks (admitted schedule p).site := by
  refine Iteration.joined_run behaves schedule batch.tasks ?_ ?_
  · rw [failure_admitted, h.cell]
  · rw [world_admitted]
    exact h.world

/-- A batch that yields keys yields the hits among its candidates, none of which fails. -/
theorem hits_of_iterate (behaves : (c.job seed).Behaves inv o) {p : Progress σ} {k : Nat}
    (h : p.Collected c.config o inv k) {batch : Batch}
    (handed : c.allocator.nextBatch p.sliding = .ok batch) {keys : List Key}
    (outcome : (c.iterate schedule seed p batch).outcome = .ok keys) :
    keys = o.hits c.config.accountOnly (c.config.indexBehind k) c.config.batchSize ∧
      ∀ index, c.config.indexBehind k ≤ index → index < c.config.indexBehind (k + 1) →
        o.failsAt c.config.accountOnly index = false := by
  have joined := joined_iterate behaves h schedule batch
  obtain ⟨down, rfl⟩ := Iteration.outcome_eq_ok_iff.1 outcome
  have tiles := tiles_of_counts h.counts handed
  constructor
  · rw [joined.flatMap_keys down, tiles.flatMap_hitsOf, Config.indexBehind_succ,
      Nat.add_sub_cancel_left]
  · intro index low high
    obtain ⟨t, mem, kind, start, stop⟩ := tiles.exists_mem low high
    exact kind ▸ joined.clean down mem start stop

theorem collected_advance (behaves : (c.job seed).Behaves inv o) {p : Progress σ} {k : Nat}
    (h : p.Collected c.config o inv k) {batch : Batch}
    (handed : c.allocator.nextBatch p.sliding = .ok batch) {keys : List Key}
    (outcome : (c.iterate schedule seed p batch).outcome = .ok keys) :
    (c.advance p batch.next keys (c.iterate schedule seed p batch).reports
      (c.iterate schedule seed p batch).site).Collected c.config o inv (k + 1) := by
  obtain ⟨all, clean⟩ := hits_of_iterate behaves h handed outcome
  have down := (Iteration.outcome_eq_ok_iff.1 outcome).1
  refine ⟨counts_advance h.counts handed _ _, ?_, fun index low high => ?_,
    Site.failure_eq_none down,
    (joined_iterate behaves h schedule batch).follows.world⟩
  · rw [Nat.add_mul, Nat.one_mul, Oracle.hits_add, ← h.found]
    simp only [advance, Array.toList_appendList, all, Config.indexBehind]
  · by_cases old : index < c.config.indexBehind k
    · exact h.clean index low old
    · exact clean index (Nat.le_of_not_lt old) high

theorem Reached.collected (behaves : (c.job seed).Behaves inv o) {p q : Progress σ} {k : Nat}
    (h : Reached c schedule seed target p k q) (start : p.Collected c.config o inv 0) :
    q.Collected c.config o inv k :=
  h.of_advance (motive := fun k q => q.Collected c.config o inv k) start
    fun _ _ _ _ collected _ handed outcome =>
    collected_advance behaves collected handed outcome

/-- A search for keys ends with a round behind some number of complete iterations. -/
theorem exists_last_round (behaves : (c.job seed).Behaves inv o) (schedule : Schedule)
    (asked : target ≠ 0) {world : σ} (h : inv world) (cancelled : Bool) :
    ∃ k p, Reached c schedule seed target (c.setOut target world cancelled) k p ∧
      p.Collected c.config o inv k ∧
      Rounded c schedule seed target p (.ended (c.run schedule seed target world cancelled)) := by
  obtain ⟨k, p, reached, last⟩ := c.exists_reached_rounded schedule seed asked world cancelled
  exact ⟨k, p, reached, reached.collected behaves (c.collected_setOut o target h cancelled), last⟩

end Coordinator

end KeySearch.Search
