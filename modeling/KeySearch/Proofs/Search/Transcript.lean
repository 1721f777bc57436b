import KeySearch.Proofs.Search.Counters
import KeySearch.Proofs.Search.StopSignal
import KeySearch.Proofs.Search.Verdicts
import Mathlib.Algebra.GroupWithZero.Nat

/-! The log of a search. `Line.ofIterations` says from the settings, the number of iterations and
the accepted candidates alone what is to be written up to the end of the last complete iteration,
with all numbers exact. At every loop head the log is just that (`Progress.Transcribed`), because the
verdicts on the calls account for the keys of every worker; and it stays so in the light of later
verdicts, as no candidate gets a second one. Behind these lines a search writes how it ends
(`Run.Logs`), and no progress: the iterations in the log are those that are complete
(`Run.Completes`). -/

namespace KeySearch.Search

variable {σ : Type}

/-! ### Counting accepted candidates -/

namespace Config

variable {c : Config} {accepted : Position → Bool}

/-- How many of `count` candidates from an index on are accepted. -/
def countAccepted (c : Config) (accepted : Position → Bool) (start count : Nat) : Nat :=
  (positions c.accountOnly start count).countP accepted

theorem countAccepted_add (start count more : Nat) :
    c.countAccepted accepted start (count + more) =
      c.countAccepted accepted start count + c.countAccepted accepted (start + count) more := by
  rw [countAccepted, positions_add, List.countP_append]
  rfl

/-- The tasks of a batch, one beside the other, have as many accepted candidates as the batch. -/
theorem sum_countAccepted (start width tasks : Nat) :
    ((List.range tasks).map fun w => c.countAccepted accepted (start + w * width) width).sum =
      c.countAccepted accepted start (tasks * width) := by
  induction tasks with
  | zero => rw [Nat.zero_mul]; rfl
  | succ tasks ih =>
    rw [List.range_succ, List.map_append, List.sum_append, ih, Nat.add_mul, Nat.one_mul,
      countAccepted_add]
    rfl

/-- The first candidate of a task in the batch behind `k` iterations. -/
theorem start_of_task (c : Config) (k worker : Nat) :
    c.startIndex.toNat + (k * c.numTasks.toNat + worker) * c.taskWidth.toNat =
      c.indexBehind k + worker * c.taskWidth.toNat := by
  rw [indexBehind, batchSize, Nat.add_mul, Nat.mul_assoc, Nat.add_assoc]

end Config

/-! ### Lines -/

/-- An event as it is written. -/
structure Line where
  severity : Severity
  message : String
  fields : List (String × FieldValue)
  deriving DecidableEq

def Event.line (event : Event) : Line := ⟨event.severity, event.message, event.fields⟩

namespace Line

def started (c : Config) (constraints : Shard.Constraints) (target : UInt64) : Line where
  severity := .info
  message := "starting key search"
  fields :=
    [("target_count", .number target.toNat), ("num_shards", .number constraints.numShards.toNat),
      ("actual_shard", .text (Shard.Constraints.describeShard constraints.actualShard)),
      ("projected_shard", .text (Shard.Constraints.describeShard constraints.projectedShard)),
      ("start_index", .number c.startIndex.toNat), ("num_tasks", .number c.numTasks.toNat),
      ("task_width", .number c.taskWidth.toNat)]

variable (c : Config) (accepted : Position → Bool)

/-- A worker is through with its task in the batch behind `k` iterations. -/
def taskFinished (k worker : Nat) : Line :=
  let first := c.startIndex.toNat + (k * c.numTasks.toNat + worker) * c.taskWidth.toNat
  { severity := .debug
    message := "task finished"
    fields :=
      [("worker", .number worker), ("range_start", .number first),
        ("range_end", .number (first + c.taskWidth.toNat)),
        ("matches", .number (c.countAccepted accepted first c.taskWidth.toNat))] }

/-- The iteration behind `k` others is complete. -/
def progress (k : Nat) : Line where
  severity := .info
  message := "progress"
  fields :=
    [("iteration", .number (k + 1)),
      ("matches",
        .number (c.countAccepted accepted c.startIndex.toNat ((k + 1) * c.batchSize))),
      ("sliding_index", .number (c.startIndex.toNat + (k + 1) * c.batchSize))]

/-- What is written on the iteration behind `k` others. -/
def ofIteration (k : Nat) : List Line :=
  (List.range c.numTasks.toNat).map (taskFinished c accepted k) ++ [progress c accepted k]

/-- What is written up to the end of so many iterations of a search. -/
def ofIterations (constraints : Shard.Constraints) (target : UInt64) (iterations : Nat) :
    List Line :=
  started c constraints target :: (List.range iterations).flatMap (ofIteration c accepted)

def completed (target : UInt64) (iterations : Nat) : Line where
  severity := .info
  message := "key search complete"
  fields :=
    [("keys", .number target.toNat), ("iterations", .number iterations),
      ("candidates", .number (iterations * c.batchSize))]

def limitReached (limit : UInt64) (iterations : Nat) : Line where
  severity := .warn
  message := "iteration limit reached"
  fields :=
    [("limit", .number limit.toNat),
      ("matches",
        .number (c.countAccepted accepted c.startIndex.toNat (iterations * c.batchSize)))]

theorem ofIterations_succ (constraints : Shard.Constraints) (target : UInt64) (k : Nat) :
    ofIterations c accepted constraints target (k + 1) =
      ofIterations c accepted constraints target k ++ ofIteration c accepted k := by
  rw [ofIterations, List.range_succ, List.flatMap_append, List.flatMap_singleton]
  rfl

end Line

/-! ### Iterations -/

theorem map_zipIdx_eq {α β : Type} {entries : List α} {f : α × Nat → β} {g : Nat → β}
    (h : ∀ place entry, entries[place]? = some entry → f (entry, place) = g place) :
    entries.zipIdx.map f = (List.range entries.length).map g := by
  refine List.ext_getElem (by simp) fun place bound _ => ?_
  simp only [List.length_map, List.length_zipIdx] at bound
  simp [h place entries[place] (List.getElem?_eq_getElem bound)]

namespace Coordinator

variable {c : Coordinator σ} {schedule : Schedule} {seed : Seed} {target : UInt64} {p : Progress σ}
  {k : Nat}

/-- The calls of a batch that yields keys, and the verdicts on them. -/
structure Scanned (c : Coordinator σ) (k : Nat) (p : Progress σ) (job : Job σ) (it : Iteration σ)
    (during : List (Nat × Position)) : Prop where
  calls : Action.calls it.site.history.reverse = Action.calls p.site.history.reverse ++ during
  behind : it.site.world = job.worldBehind during p.site.world
  worker : ∀ number w, it.workers[number]? = some w →
    w.phase = .ended .scanned ∧
      w.task.start.toNat = c.config.indexBehind k + number * c.config.taskWidth.toNat ∧
      w.task.stop.toNat = c.config.indexBehind k + (number + 1) * c.config.taskWidth.toNat ∧
      ∀ verdicts, job.verdicts during p.site.world ⊆ verdicts →
        (verdicts.map Verdict.position).Nodup →
        w.kept.length = c.config.countAccepted (accepts verdicts) w.task.start.toNat
          c.config.taskWidth.toNat

theorem exists_scanned (counts : p.Counts c.config k) (cell : p.site.failure = none)
    (schedule : Schedule) (seed : Seed) {batch : Batch}
    (handed : c.allocator.nextBatch p.sliding = .ok batch)
    (down : (c.iterate schedule seed p batch).site.stops = false) :
    ∃ during, Scanned c k p (c.job seed) (c.iterate schedule seed p batch) during := by
  obtain ⟨silent, quiet, lead⟩ := admitted_history schedule p
  obtain ⟨during, history, traced⟩ : ∃ during : List Action,
      (c.iterate schedule seed p batch).site.history =
        during.reverse ++ .handedOut batch.tasks :: (admitted schedule p).site.history ∧
      (c.iterate schedule seed p batch).Traced during :=
    Iteration.exists_traced_run (c.job seed) schedule batch.tasks (admitted schedule p).site
  obtain ⟨during', history', judged⟩ : ∃ during : List Action,
      (c.iterate schedule seed p batch).site.history =
        during.reverse ++ .handedOut batch.tasks :: (admitted schedule p).site.history ∧
      (c.iterate schedule seed p batch).Judged (c.job seed) (admitted schedule p).site.world
        during :=
    Iteration.exists_judged_run (c.job seed) schedule batch.tasks (admitted schedule p).site
  obtain rfl : during' = during :=
    List.reverse_injective (List.append_cancel_right (history'.symm.trans history))
  rw [world_admitted] at judged
  have coherent := c.coherent_iterate schedule seed cell batch
  refine ⟨Action.calls during', ?_, judged.behind, fun number w found => ?_⟩
  · have handing : Action.calls (.handedOut batch.tasks :: during') = Action.calls during' := rfl
    simp only [history, List.reverse_append, List.reverse_cons, List.reverse_reverse, lead,
      List.append_assoc, List.singleton_append, Action.calls_append, Stretch.calls_silent quiet,
      handing, List.nil_append]
  · have mem := List.mem_of_getElem? found
    have scanned := scanned_iterate cell down mem
    have task : batch.tasks[number]? = some w.task := by
      rw [← coherent.tasks, List.getElem?_map, found]
      rfl
    obtain ⟨-, kind, start, stop⟩ := Allocator.task_of_nextBatch handed task
    rw [c.accountOnly_eq] at kind
    rw [c.allocator_eq_config.2.1, counts.sliding] at start stop
    refine ⟨scanned, start, stop, fun verdicts subset distinct => ?_⟩
    have width : w.task.stop.toNat - w.task.start.toNat = c.config.taskWidth.toNat := by
      rw [start, stop, Nat.add_mul]
      omega
    rw [judged.kept number w found,
      ← countP_accepts distinct fun _ part => subset (List.mem_of_mem_filter part),
      Job.map_position_filter_verdicts, traced.each number w found,
      (traced.proceeds w mem).visited_eq scanned, Task.candidates_eq, kind, width]
    rfl

namespace Scanned

variable {job : Job σ} {it : Iteration σ} {during : List (Nat × Position)}
  {verdicts : List Verdict}

/-- There are as many keys as accepted candidates in the batch. -/
theorem length_keys (h : Scanned c k p job it during)
    (workers : it.workers.length = c.config.numTasks.toNat)
    (subset : job.verdicts during p.site.world ⊆ verdicts)
    (distinct : (verdicts.map Verdict.position).Nodup) :
    (it.workers.flatMap Worker.keys).length =
      c.config.countAccepted (accepts verdicts) (c.config.indexBehind k) c.config.batchSize := by
  have each : it.workers.zipIdx.map (fun entry => entry.1.keys.length) =
      (List.range it.workers.length).map fun number =>
        c.config.countAccepted (accepts verdicts)
          (c.config.indexBehind k + number * c.config.taskWidth.toNat)
          c.config.taskWidth.toNat := by
    refine map_zipIdx_eq fun number w found => ?_
    obtain ⟨-, start, -, kept⟩ := h.worker number w found
    rw [Worker.keys, List.length_reverse, kept verdicts subset distinct, start]
  have keys : it.workers.zipIdx.map (fun entry => entry.1.keys.length) =
      it.workers.map fun w => w.keys.length := by
    rw [← List.zipIdx_map_fst 0 it.workers, List.map_map, List.zipIdx_map_fst]
    rfl
  rw [List.length_flatMap, ← keys, each, workers, Config.sum_countAccepted]
  rfl

/-- The reports of the workers, in the order of their tasks. -/
theorem lines_reports (h : Scanned c k p job it during)
    (workers : it.workers.length = c.config.numTasks.toNat)
    (subset : job.verdicts during p.site.world ⊆ verdicts)
    (distinct : (verdicts.map Verdict.position).Nodup) :
    it.reports.map Event.line =
      (List.range c.config.numTasks.toNat).map
        (Line.taskFinished c.config (accepts verdicts) k) := by
  rw [Iteration.reports, List.map_map, ← workers]
  refine map_zipIdx_eq fun number w found => ?_
  obtain ⟨scanned, start, stop, kept⟩ := h.worker number w found
  rw [Nat.add_mul, Nat.one_mul, ← Nat.add_assoc] at stop
  change (Iteration.reportOf w number).line = _
  have report : Iteration.reportOf w number =
      .taskFinished number w.task.start w.task.stop w.kept.length := by
    rw [Iteration.reportOf, scanned]
  rw [report]
  simp only [Event.line, Event.severity, Event.message, Event.fields, Line.taskFinished,
    kept verdicts subset distinct, start, stop, Config.start_of_task]

end Scanned

end Coordinator

/-! ### Loop heads -/

/-- Behind `k` iterations the world is what the calls have made of the first one, and the log says
what it should, in the light of these and any further verdicts. -/
structure Progress.Transcribed (c : Coordinator σ) (seed : Seed) (target : UInt64) (world : σ)
    (k : Nat) (p : Progress σ) : Prop where
  behind : p.site.world =
    (c.job seed).worldBehind (Action.calls p.site.history.reverse) world
  faithful : ∀ verdicts : List Verdict,
    (c.job seed).verdicts (Action.calls p.site.history.reverse) world ⊆ verdicts →
    (verdicts.map Verdict.position).Nodup →
    p.found.size = c.config.countAccepted (accepts verdicts) c.config.startIndex.toNat
        (k * c.config.batchSize) ∧
      p.events.toList.map Event.line =
        Line.ofIterations c.config (accepts verdicts) c.evaluator.constraints target k

namespace Coordinator

variable {c : Coordinator σ} {schedule : Schedule} {seed : Seed} {target : UInt64} {p : Progress σ}
  {k : Nat} {world : σ}

theorem transcribed_setOut (c : Coordinator σ) (seed : Seed) (target : UInt64) (world : σ)
    (cancelled : Bool) :
    (c.setOut target world cancelled).Transcribed c seed target world 0 where
  behind := rfl
  faithful verdicts _ _ := by
    rw [Nat.zero_mul]
    exact ⟨rfl, rfl⟩

theorem transcribed_advance (h : p.Transcribed c seed target world k)
    (counts : p.Counts c.config k) (cell : p.site.failure = none) {batch : Batch}
    {keys : List Key} (handed : c.allocator.nextBatch p.sliding = .ok batch)
    (outcome : (c.iterate schedule seed p batch).outcome = .ok keys) :
    (c.advance p batch.next keys (c.iterate schedule seed p batch).reports
      (c.iterate schedule seed p batch).site).Transcribed c seed target world (k + 1) := by
  obtain ⟨down, rfl⟩ := Iteration.outcome_eq_ok_iff.1 outcome
  obtain ⟨during, scanned⟩ := exists_scanned counts cell schedule seed handed down
  have workers : (c.iterate schedule seed p batch).workers.length = c.config.numTasks.toNat :=
    length_workers_iterate cell handed
  refine ⟨?_, fun verdicts subset distinct => ?_⟩
  · change (c.iterate schedule seed p batch).site.world = (c.job seed).worldBehind
      (Action.calls (c.iterate schedule seed p batch).site.history.reverse) world
    rw [scanned.calls, Job.worldBehind_append, ← h.behind]
    exact scanned.behind
  · change (c.job seed).verdicts (Action.calls
      (c.iterate schedule seed p batch).site.history.reverse) world ⊆ verdicts at subset
    rw [scanned.calls, Job.verdicts_append, ← h.behind, List.append_subset] at subset
    obtain ⟨found, events⟩ := h.faithful verdicts subset.1 distinct
    have keys := scanned.length_keys workers subset.2 distinct
    have reports := scanned.lines_reports workers subset.2 distinct
    obtain ⟨sliding, iterations, -⟩ := counts_advance counts handed
      ((c.iterate schedule seed p batch).workers.flatMap Worker.keys)
      (c.iterate schedule seed p batch)
    have found' : (p.found ++ (c.iterate schedule seed p batch).workers.flatMap Worker.keys).size =
        c.config.countAccepted (accepts verdicts) c.config.startIndex.toNat
          ((k + 1) * c.config.batchSize) := by
      rw [← Array.length_toList, Array.toList_appendList, List.length_append, Array.length_toList,
        found, keys, Nat.add_mul, Nat.one_mul, Config.countAccepted_add]
      rfl
    refine ⟨found', ?_⟩
    have progress : (Event.progress (p.stats.iterations + 1)
        (p.found ++ (c.iterate schedule seed p batch).workers.flatMap Worker.keys).size
        batch.next).line = Line.progress c.config (accepts verdicts) k := by
      change (p.stats.iterations + 1).toNat = k + 1 at iterations
      change batch.next.toNat = _ at sliding
      simp only [Event.line, Event.severity, Event.message, Event.fields, Line.progress, found',
        iterations, sliding, Config.indexBehind]
    rw [Line.ofIterations_succ, ← events, Line.ofIteration, ← reports, ← progress]
    simp only [advance, Array.toList_push, Array.toList_appendList, List.map_append,
      List.map_cons, List.map_nil, List.append_assoc]

theorem Reached.transcribed {q : Progress σ} (h : Reached c schedule seed target p k q)
    (visited : p.Visited c.config 0) (start : p.Transcribed c seed target world 0) :
    q.Transcribed c seed target world k := by
  have both := h.of_advance
    (motive := fun k q => q.Visited c.config k ∧ q.Transcribed c seed target world k)
    ⟨visited, start⟩ fun j r batch keys before _ handed outcome =>
      ⟨visited_advance before.1 handed outcome,
        transcribed_advance before.2 before.1.counts before.1.cell handed outcome⟩
  exact both.2

end Coordinator

/-! ### Searches -/

/-- The log of a search for `target` keys, of which the last few lines depend on its end, and what
its result says of the numbers there. -/
structure Run.Logs (run : Run σ) (c : Coordinator σ) (target : UInt64)
    (accepted : Position → Bool) (last : List Event) : Prop where
  lines : run.events.map Event.line =
    Line.ofIterations c.config accepted c.evaluator.constraints target run.iterations ++
      last.map Event.line
  noProgress : ∀ event ∈ last, event.isProgress = false
  completed : ∀ report, run.result = .ok report →
    last.map Event.line = [Line.completed c.config target run.iterations] ∧
      report.keys.length = target.toNat ∧
      report.stats.iterations.toNat = run.iterations ∧
      report.stats.candidates.toNat = run.iterations * c.config.batchSize ∧
      report.stats.matched.toNat = c.config.countAccepted accepted c.config.startIndex.toNat
        (run.iterations * c.config.batchSize)
  limited : ∀ limit, run.result = .error (.iterationLimit limit) →
    last.map Event.line = [Line.limitReached c.config accepted limit run.iterations]
  exhausted : ∀ index, run.result = .error (.indexSpaceExhausted index) → last = []

/-- The complete iterations of a run come first in its history: all their candidates have been asked
for, and nobody has met a failure or cancelled. -/
def Run.Completes (run : Run σ) (c : Config) : Prop :=
  ∃ complete rest, run.history = complete ++ rest ∧
    (Stretch.ofHistory complete).length = run.iterations ∧
    (Action.requested complete).Perm
      (positions c.accountOnly c.startIndex.toNat (run.iterations * c.batchSize)) ∧
    ∀ action ∈ complete, action.halts = false ∧ action.refuses = false

namespace Coordinator

variable {c : Coordinator σ} {schedule : Schedule} {seed : Seed} {target : UInt64} {p : Progress σ}
  {k : Nat} {world : σ}

/-- What a round writes at the end of a search comes behind the lines of the iterations. -/
theorem Rounded.exists_logs (counts : p.Counts c.config k) (tallies : p.Tallies c.config k)
    {accepted : Position → Bool}
    (found : p.found.size = c.config.countAccepted accepted c.config.startIndex.toNat
      (k * c.config.batchSize))
    (events : p.events.toList.map Event.line =
      Line.ofIterations c.config accepted c.evaluator.constraints target k)
    {run : Run σ} (last : Rounded c schedule seed target p (.ended run)) :
    ∃ last, run.Logs c target accepted last := by
  have counted := last.iterations_eq counts
  have finished (site : Site σ) (result : Except Error Report) (more : List Event) :
      ({ p with site }.finish result more).events.map Event.line =
        Line.ofIterations c.config accepted c.evaluator.constraints target k ++
          more.map Event.line := by
    rw [Progress.finish, List.map_append, ← events]
  have silent (it : Iteration σ) : ∀ event ∈ it.reports, event.isProgress = false := by
    simpa [List.countP_eq_zero] using it.countP_reports
  cases last with
  | enough reached =>
    have length : (rank p.found.toList target.toNat).length = target.toNat :=
      length_rank (by rwa [Array.length_toList])
    refine ⟨[.completed (rank p.found.toList target.toNat).length p.stats.iterations
      p.stats.candidates], ?_, by simp [Event.isProgress], fun report same => ?_,
      (fun _ same => by cases same), (fun _ same => by cases same)⟩
    · rw [counted]
      exact finished p.site _ _
    · cases same
      rw [counted]
      refine ⟨?_, length, tallies.iterations, tallies.candidates, tallies.matched.trans found⟩
      simp only [List.map_cons, List.map_nil, Event.line, Event.severity, Event.message,
        Event.fields, Line.completed, length, tallies.iterations, tallies.candidates]
  | @limited limit =>
    refine ⟨[.limitReached limit p.found.size], ?_, by simp [Event.isProgress],
      (fun _ same => by cases same), fun limit' same => ?_, (fun _ same => by cases same)⟩
    · rw [counted]
      exact finished _ _ _
    · cases same
      rw [counted]
      simp only [List.map_cons, List.map_nil, Event.line, Event.severity, Event.message,
        Event.fields, Line.limitReached, found]
  | exhausted _ _ _ refused =>
    obtain ⟨-, rfl⟩ := Allocator.nextBatch_eq_error_iff.1 refused
    refine ⟨[], ?_, fun _ mem => absurd mem List.not_mem_nil, (fun _ same => by cases same),
      (fun _ same => by cases same), fun _ _ => rfl⟩
    rw [counted]
    exact finished _ _ _
  | cancelled =>
    refine ⟨[.cancelledBefore p.stats.iterations], ?_, by simp [Event.isProgress],
      (fun _ same => by cases same), (fun _ same => by cases same),
      (fun _ same => by cases same)⟩
    rw [counted]
    exact finished _ _ _
  | @failed batch =>
    refine ⟨(c.iterate schedule seed p batch).reports, ?_, silent _,
      (fun _ same => by cases same), (fun _ same => by cases same),
      (fun _ same => by cases same)⟩
    rw [counted]
    exact finished _ _ _
  | @interrupted batch =>
    refine ⟨(c.iterate schedule seed p batch).reports ++ [.cancelledWithin], ?_,
      fun event mem => ?_,
      (fun _ same => by cases same), (fun _ same => by cases same),
      (fun _ same => by cases same)⟩
    · rw [counted]
      exact finished _ _ _
    · rcases List.mem_append.1 mem with report | own
      · exact silent _ event report
      · rw [List.mem_singleton.1 own]
        rfl

/-- Up to a loop head nobody has given a reason to stop. -/
theorem Reached.any_halts_eq_false {q : Progress σ} {up : Bool}
    (h : Reached c schedule seed target p k q) (start : p.Orderly c.config up)
    (none : p.site.history.any Action.halts = false) :
    q.site.history.any Action.halts = false := by
  have both := h.of_advance
    (motive := fun _ q => q.Orderly c.config up ∧ q.site.history.any Action.halts = false)
    ⟨start, none⟩ fun j r batch keys before down handed outcome => by
      have orderly := orderly_advance before.1 down handed outcome
      have stops := orderly.site.stops
      have quiet : (c.iterate schedule seed r batch).site.stops = false :=
        (Iteration.outcome_eq_ok_iff.1 outcome).1
      refine ⟨orderly, (Bool.or_eq_false_iff.1 (stops.symm.trans quiet)).2⟩
  exact both.2

/-- The complete iterations are those behind the last loop head. -/
theorem Rounded.completes (visited : p.Visited c.config k) {up : Bool}
    (orderly : p.Orderly c.config up) (unhalted : p.site.history.any Action.halts = false)
    {run : Run σ} (last : Rounded c schedule seed target p (.ended run)) :
    run.Completes c.config := by
  obtain ⟨during, site, since, history, -⟩ := last.since
  rw [Run.Completes, last.iterations_eq visited.counts]
  refine ⟨p.site.history.reverse, during.reverse, ?_, visited.length, visited.all,
    fun action mem => ?_⟩
  · rw [history, since.history, List.reverse_append]
  · have mem := List.mem_reverse.1 mem
    exact ⟨Bool.eq_false_iff.2 (List.any_eq_false.1 unhalted action mem),
      orderly.unrefused action mem⟩

theorem completes_run (c : Coordinator σ) (schedule : Schedule) (seed : Seed) (target : UInt64)
    (world : σ) (cancelled : Bool) :
    (c.run schedule seed target world cancelled).Completes c.config := by
  have visited := c.visited_setOut target world cancelled
  by_cases asked : target = 0
  · rw [run, if_pos asked]
    exact ⟨[], [], rfl, rfl, visited.all, fun _ mem => absurd mem List.not_mem_nil⟩
  · obtain ⟨k, p, reached, last⟩ := c.exists_reached_rounded schedule seed asked world cancelled
    have orderly := c.orderly_setOut target world cancelled
    exact last.completes (reached.visited visited) (reached.orderly orderly)
      (reached.any_halts_eq_false orderly rfl)

/-- What the services make of the candidates of a search, asked once more. -/
def verdictsOn (c : Coordinator σ) (seed : Seed) (world : σ) (run : Run σ) : List Verdict :=
  (c.job seed).verdicts (Action.calls run.history) world

theorem nodup_verdictsOn (c : Coordinator σ) (schedule : Schedule) (seed : Seed)
    (target : UInt64) (world : σ) (cancelled : Bool) :
    ((c.verdictsOn seed world (c.run schedule seed target world cancelled)).map
      Verdict.position).Nodup := by
  rw [verdictsOn, Job.map_position_verdicts, ← Action.requested_eq_map_calls]
  exact (c.covers_run schedule seed target world cancelled).distinct

theorem exists_logs_run (c : Coordinator σ) (schedule : Schedule) (seed : Seed) {target : UInt64}
    (asked : target ≠ 0) (world : σ) (cancelled : Bool) :
    ∃ last, (c.run schedule seed target world cancelled).Logs c target
      (accepts (c.verdictsOn seed world (c.run schedule seed target world cancelled))) last := by
  have distinct := c.nodup_verdictsOn schedule seed target world cancelled
  obtain ⟨k, p, reached, last⟩ := c.exists_reached_rounded schedule seed asked world cancelled
  have visited := c.visited_setOut target world cancelled
  have transcribed := reached.transcribed visited
    (c.transcribed_setOut seed target world cancelled)
  obtain ⟨during, site, since, history, -⟩ := last.since
  have subset : (c.job seed).verdicts (Action.calls p.site.history.reverse) world ⊆
      c.verdictsOn seed world (c.run schedule seed target world cancelled) := by
    rw [verdictsOn, history, since.history, List.reverse_append, Action.calls_append,
      Job.verdicts_append]
    exact List.subset_append_left _ _
  obtain ⟨found, events⟩ := transcribed.faithful _ subset distinct
  exact last.exists_logs (reached.counts visited.counts)
    (reached.tallies visited (c.tallies_setOut target world cancelled)) found events

/-- With services that keep nothing in mind, the accepted candidates of the complete iterations are
the hits. -/
theorem accepts_verdictsOn {inv : σ → Prop} {o : Oracle} (behaves : (c.job seed).Behaves inv o)
    (schedule : Schedule) (target : UInt64) (h : inv world) (cancelled : Bool) {index : Nat}
    (low : c.config.startIndex.toNat ≤ index)
    (high : index < c.config.indexBehind
      (c.run schedule seed target world cancelled).iterations) :
    accepts (c.verdictsOn seed world (c.run schedule seed target world cancelled))
        (positionAt c.config.accountOnly (.ofNat index)) =
      (o.hitAt c.config.accountOnly index).isSome := by
  obtain ⟨complete, rest, history, -, all, -⟩ :=
    c.completes_run schedule seed target world cancelled
  have asked : positionAt c.config.accountOnly (.ofNat index) ∈
      (c.verdictsOn seed world (c.run schedule seed target world cancelled)).map
        Verdict.position := by
    rw [verdictsOn, Job.map_position_verdicts, ← Action.requested_eq_map_calls, history,
      Action.requested, List.filterMap_append]
    exact List.mem_append_left _ (all.mem_iff.2 (mem_positions.2 ⟨index, low, high, rfl⟩))
  obtain ⟨verdict, mem, same⟩ := List.mem_map.1 asked
  rw [Oracle.isSome_hitAt, ← same,
    accepts_of_mem (c.nodup_verdictsOn schedule seed target world cancelled) mem]
  exact behaves.accepted_eq h verdict mem

end Coordinator

/-- The tasks of the batch behind `k` iterations have as many accepted candidates as this adds to
those so far. -/
theorem Config.countAccepted_succ (c : Config) (accepted : Position → Bool) (k : Nat) :
    c.countAccepted accepted c.startIndex.toNat ((k + 1) * c.batchSize) =
      c.countAccepted accepted c.startIndex.toNat (k * c.batchSize) +
        ((List.range c.numTasks.toNat).map fun worker =>
          c.countAccepted accepted
            (c.startIndex.toNat + (k * c.numTasks.toNat + worker) * c.taskWidth.toNat)
            c.taskWidth.toNat).sum := by
  simp only [Config.start_of_task, Config.sum_countAccepted]
  rw [Nat.add_mul, Nat.one_mul, Config.countAccepted_add]
  rfl

/-- The log of a search is a faithful transcript of it, whatever the services answer, whoever
cancels and however the workers take turns. The candidates that are accepted are those that the
services accept when they are asked once more for what the history tells; with services that keep
nothing in mind these are the hits. The lines of each iteration are there only if the iteration is
complete, and the matches of its tasks add up to what it adds to the matches of its progress. -/
theorem log_is_transcript (c : Coordinator σ) (schedule : Schedule) (seed : Seed)
    (target : UInt64) (world : σ) (cancelled : Bool) :
    ∀ run accepted, run = c.run schedule seed target world cancelled →
      accepted = accepts (c.verdictsOn seed world run) →
      (target ≠ 0 → ∃ last, run.Logs c target accepted last) ∧
      run.Completes c.config ∧
      (∀ k, c.config.countAccepted accepted c.config.startIndex.toNat
          ((k + 1) * c.config.batchSize) =
        c.config.countAccepted accepted c.config.startIndex.toNat (k * c.config.batchSize) +
          ((List.range c.config.numTasks.toNat).map fun worker =>
            c.config.countAccepted accepted
              (c.config.startIndex.toNat +
                (k * c.config.numTasks.toNat + worker) * c.config.taskWidth.toNat)
              c.config.taskWidth.toNat).sum) ∧
      ∀ (inv : σ → Prop) (o : Oracle), (c.job seed).Behaves inv o → inv world →
        ∀ index, c.config.startIndex.toNat ≤ index →
          index < c.config.indexBehind run.iterations →
          accepted (positionAt c.config.accountOnly (.ofNat index)) =
            (o.hitAt c.config.accountOnly index).isSome := by
  rintro run accepted rfl rfl
  exact ⟨fun asked => c.exists_logs_run schedule seed asked world cancelled,
    c.completes_run schedule seed target world cancelled, c.config.countAccepted_succ _,
    fun inv o behaves h index low high =>
      Coordinator.accepts_verdictsOn behaves schedule target h cancelled low high⟩

/-- The log of the search of `evenSearch` for three keys, which takes two iterations and finds a
fourth key in them. -/
theorem log_is_transcript_evenSearch :
    ∃ (run : Run Unit) (accepted : Position → Bool),
      run = (evenSearch none).run (.roundRobin 2) ⟨[]⟩ 3 () false ∧
      run.events.map Event.line =
        Line.ofIterations (evenSearch none).config accepted (evenSearch none).evaluator.constraints
            3 2 ++
          [Line.completed (evenSearch none).config 3 2] ∧
      (evenSearch none).config.countAccepted accepted 5 8 = 4 := by
  have asked : (3 : UInt64) ≠ 0 := by decide
  have result : ((evenSearch none).run (.roundRobin 2) ⟨[]⟩ 3 () false).result =
      .ok ⟨[Rehearsal.stubKey ⟨0, 6⟩, Rehearsal.stubKey ⟨0, 8⟩, Rehearsal.stubKey ⟨0, 10⟩],
        ⟨2, 8, 4⟩⟩ :=
    Coordinator.run_of_within? asked Run.result 3 (by cbv)
  obtain ⟨logs, -⟩ :=
    log_is_transcript (evenSearch none) (.roundRobin 2) ⟨[]⟩ 3 () false _ _ rfl rfl
  obtain ⟨last, logs⟩ := logs asked
  obtain ⟨ending, -, iterations, -, matched⟩ := logs.completed _ result
  have lines := logs.lines
  have two : ((evenSearch none).run (.roundRobin 2) ⟨[]⟩ 3 () false).iterations = 2 :=
    iterations.symm
  rw [ending, two] at lines
  rw [two] at matched
  exact ⟨_, _, rfl, lines, matched.symm⟩

end KeySearch.Search
