import KeySearch.Proofs.Search.Calls
import KeySearch.Proofs.Search.Exits
import Mathlib.Data.List.Perm.Subperm
import Mathlib.Data.List.TakeWhile
import Mathlib.Order.Bounds.Basic

/-! The candidates that a whole search asks for. The history of a search falls into stretches, one
for each batch that was handed out, with the calls made until the next one was. In every stretch
each worker asks for the first candidates of its task in their order, and in the stretch of a
complete iteration for all of them. As one batch starts where the one before it ended, no candidate
is asked for twice and none is left out, whatever the services answer, whoever cancels and however
the search ends. -/

namespace KeySearch.Search

variable {σ : Type}

/-! ### Stretches -/

/-- A batch that was handed out, and the calls made until the next one was. -/
structure Stretch where
  tasks : List Task
  calls : List (Nat × Position)

namespace Stretch

def requests (s : Stretch) : List Position := s.calls.map Prod.snd

/-- The stretches of a history in the order of time. -/
def ofHistory : List Action → List Stretch
  | [] => []
  | .handedOut tasks :: rest =>
    ⟨tasks, Action.calls (rest.takeWhile (!·.handsOut))⟩ :: ofHistory rest
  | _ :: rest => ofHistory rest

theorem ofHistory_cons {action : Action} (h : action.handsOut = false) (rest : List Action) :
    ofHistory (action :: rest) = ofHistory rest := by
  cases action with
  | handedOut => cases h
  | _ => rfl

theorem ofHistory_closed {history : List Action} (h : ∀ action ∈ history, action.handsOut = false) :
    ofHistory history = [] := by
  induction history with
  | nil => rfl
  | cons action rest ih =>
    rw [ofHistory_cons (h action List.mem_cons_self)]
    exact ih fun other mem => h other (List.mem_cons_of_mem _ mem)

theorem calls_silent {silent : List Action} (quiet : ∀ action ∈ silent, action.isSilent = true) :
    Action.calls silent = [] :=
  Action.calls_eq_nil fun action mem => (Action.of_isSilent (quiet action mem)).1

theorem requested_append_silent (history : List Action) {silent : List Action}
    (quiet : ∀ action ∈ silent, action.isSilent = true) :
    Action.requested (history ++ silent) = Action.requested history := by
  rw [Action.requested_eq_map_calls, Action.requested_eq_map_calls, Action.calls_append,
    calls_silent quiet, List.append_nil]

/-- What is done before a batch is in no stretch. -/
theorem ofHistory_append_silent (history : List Action) {silent : List Action}
    (quiet : ∀ action ∈ silent, action.isSilent = true) :
    ofHistory (history ++ silent) = ofHistory history := by
  induction history with
  | nil => exact ofHistory_closed fun action mem => (Action.of_isSilent (quiet action mem)).2
  | cons action rest ih =>
    by_cases hands : action.handsOut = true
    · cases action with
      | handedOut tasks =>
        have nothing : Action.calls (silent.takeWhile (!·.handsOut)) = [] :=
          calls_silent fun other mem => quiet other (List.takeWhile_subset _ mem)
        rw [List.cons_append, ofHistory, ofHistory, ih, List.takeWhile_append]
        split
        · rename_i whole
          rw [Action.calls_append, nothing, List.append_nil,
            (List.takeWhile_prefix _).eq_of_length whole]
        · rfl
      | _ => cases hands
    · have hands := Bool.eq_false_iff.2 hands
      rw [List.cons_append, ofHistory_cons hands, ofHistory_cons hands, ih]

/-- A batch that is handed out begins a new stretch. -/
theorem ofHistory_append_handedOut (history : List Action) (tasks : List Task)
    {during : List Action} (closed : ∀ action ∈ during, action.handsOut = false) :
    ofHistory (history ++ .handedOut tasks :: during) =
      ofHistory history ++ [⟨tasks, Action.calls during⟩] := by
  induction history with
  | nil =>
    have whole : during.takeWhile (!·.handsOut) = during :=
      List.takeWhile_eq_self_iff.2 fun action mem => by rw [closed action mem]; rfl
    rw [List.nil_append, ofHistory, ofHistory, ofHistory_closed closed, whole]
    rfl
  | cons action rest ih =>
    by_cases hands : action.handsOut = true
    · cases action with
      | handedOut batch =>
        have cut : (rest ++ .handedOut tasks :: during).takeWhile (!·.handsOut) =
            rest.takeWhile (!·.handsOut) := by
          rw [List.takeWhile_append]
          split
          · rename_i whole
            rw [(List.takeWhile_prefix _).eq_of_length whole]
            exact List.append_nil _
          · rfl
        rw [List.cons_append, ofHistory, ofHistory, ih, cut]
        rfl
      | _ => cases hands
    · have hands := Bool.eq_false_iff.2 hands
      rw [List.cons_append, ofHistory_cons hands, ofHistory_cons hands, ih]

/-- The stretch belongs to the batch behind `k` iterations, and each of its workers asks for the
first candidates of its task in their order. -/
structure Fits (c : Config) (k : Nat) (s : Stretch) : Prop where
  length : s.tasks.length = c.numTasks.toNat
  task : ∀ worker task, s.tasks[worker]? = some task → task.accountOnly = c.accountOnly ∧
    task.start.toNat = c.indexBehind k + worker * c.taskWidth.toNat ∧
    task.stop.toNat = c.indexBehind k + (worker + 1) * c.taskWidth.toNat
  callers : ∀ call ∈ s.calls, call.1 < s.tasks.length
  ordered : ∀ worker task, s.tasks[worker]? = some task →
    requestsOf worker s.calls <+: task.candidates

/-- Every candidate of the batch behind `k` iterations is asked for exactly once. -/
def Completes (c : Config) (k : Nat) (s : Stretch) : Prop :=
  s.requests.Perm (positions c.accountOnly (c.indexBehind k) c.batchSize)

end Stretch

/-! ### Histories -/

/-- The history of a search with `k` complete iterations. -/
structure Visits (c : Config) (k : Nat) (history : List Action) : Prop where
  grouped : Action.requested history = (Stretch.ofHistory history).flatMap Stretch.requests
  low : k ≤ (Stretch.ofHistory history).length
  high : (Stretch.ofHistory history).length ≤ k + 1
  fits : ∀ (j : Nat) (s : Stretch), (Stretch.ofHistory history)[j]? = some s → s.Fits c j
  complete : ∀ (j : Nat) (s : Stretch), j < k → (Stretch.ofHistory history)[j]? = some s →
    s.Completes c j
  subperm : ∃ count, count ≤ (k + 1) * c.batchSize ∧ c.startIndex.toNat + count ≤ UInt64.size ∧
    (Action.requested history).Subperm (positions c.accountOnly c.startIndex.toNat count)

/-- A search between two batches has asked for all candidates of the iterations behind it. -/
structure Progress.Visited (c : Config) (k : Nat) (p : Progress σ) : Prop where
  counts : p.Counts c k
  cell : p.site.failure = none
  length : (Stretch.ofHistory p.site.history.reverse).length = k
  visits : Visits c k p.site.history.reverse
  all : (Action.requested p.site.history.reverse).Perm
    (positions c.accountOnly c.startIndex.toNat (k * c.batchSize))

namespace Visits

variable {c : Config} {k : Nat} {history : List Action}

theorem silent (h : Visits c k history) {silent : List Action}
    (quiet : ∀ action ∈ silent, action.isSilent = true) : Visits c k (history ++ silent) := by
  have same := Stretch.ofHistory_append_silent history quiet
  have requested := Stretch.requested_append_silent history quiet
  refine ⟨?_, ?_, ?_, ?_, ?_, ?_⟩
  · rw [requested, same, h.grouped]
  · rw [same]
    exact h.low
  · rw [same]
    exact h.high
  · rw [same]
    exact h.fits
  · rw [same]
    exact h.complete
  · rw [requested]
    exact h.subperm

/-- No position is asked for twice. -/
theorem nodup (h : Visits c k history) : (Action.requested history).Nodup := by
  obtain ⟨count, -, bound, part, perm, sublist⟩ := h.subperm
  exact perm.nodup_iff.1 ((nodup_positions bound).sublist sublist)

theorem exists_index (h : Visits c k history) {position : Position}
    (mem : position ∈ Action.requested history) :
    ∃ index : UInt64, c.startIndex ≤ index ∧ index.toNat < c.indexBehind (k + 1) ∧
      position = positionAt c.accountOnly index := by
  obtain ⟨count, le, bound, part⟩ := h.subperm
  obtain ⟨index, low, high, rfl⟩ := mem_positions.1 (part.subset mem)
  have word : (UInt64.ofNat index).toNat = index := UInt64.toNat_ofNat_of_lt' (by omega)
  refine ⟨.ofNat index, ?_, ?_, rfl⟩
  · rw [UInt64.le_iff_toNat_le, word]
    exact low
  · rw [word, Config.indexBehind]
    omega

end Visits

namespace Coordinator

variable {c : Coordinator σ} {schedule : Schedule} {seed : Seed} {target : UInt64} {p : Progress σ}
  {k : Nat}

theorem visited_setOut (c : Coordinator σ) (target : UInt64) (world : σ) (cancelled : Bool) :
    (c.setOut target world cancelled).Visited c.config 0 where
  counts := c.counts_setOut target world cancelled
  cell := rfl
  length := rfl
  visits := by
    refine ⟨rfl, Nat.le_refl _, Nat.zero_le _, nofun, nofun, 0, Nat.zero_le _, ?_, ?_⟩
    · exact Nat.le_of_lt c.config.startIndex.toNat_lt
    · exact List.nil_subperm
  all := by
    rw [Nat.zero_mul]
    exact .nil

/-- The steps of a round up to the join of its workers, and the calls among them. -/
structure Walked (c : Coordinator σ) (k : Nat) (p : Progress σ) (batch : Batch) (it : Iteration σ)
    (silent during : List Action) : Prop where
  history : it.site.history.reverse =
    p.site.history.reverse ++ silent ++ .handedOut batch.tasks :: during
  quiet : ∀ action ∈ silent, action.isSilent = true
  closed : ∀ action ∈ during, action.handsOut = false
  fits : Stretch.Fits c.config k ⟨batch.tasks, Action.calls during⟩
  subperm : ((Action.calls during).map Prod.snd).Subperm
    (positions c.config.accountOnly (c.config.indexBehind k) c.config.batchSize)
  complete : it.site.stops = false →
    Stretch.Completes c.config k ⟨batch.tasks, Action.calls during⟩
  keys : (it.workers.flatMap Worker.keys).length ≤ c.config.batchSize

theorem admitted_history (schedule : Schedule) (p : Progress σ) :
    ∃ silent : List Action, (∀ action ∈ silent, action.isSilent = true) ∧
      (admitted schedule p).site.history.reverse = p.site.history.reverse ++ silent := by
  obtain ⟨silent, quiet, since⟩ := exists_since_admitted schedule p
  exact ⟨silent.reverse, fun action mem => quiet action (List.mem_reverse.1 mem), by
    rw [since.history, List.reverse_append]⟩

/-- The last round of a search does nothing but look, or it ends with the join of a batch. -/
theorem Rounded.exists_history {run : Run σ}
    (last : Rounded c schedule seed target p (.ended run)) :
    (∃ silent : List Action, (∀ action ∈ silent, action.isSilent = true) ∧
      run.history = p.site.history.reverse ++ silent) ∨
    ∃ batch, c.allocator.nextBatch p.sliding = .ok batch ∧
      run.history = (c.iterate schedule seed p batch).site.history.reverse := by
  cases last with
  | enough => exact .inl ⟨[], by simp, (List.append_nil _).symm⟩
  | cancelled =>
    obtain ⟨silent, quiet, since⟩ := exists_since_looked schedule p
    refine .inl ⟨silent.reverse, fun action mem => quiet action (List.mem_reverse.1 mem), ?_⟩
    rw [← List.reverse_append, ← since.history]
    rfl
  | limited | exhausted => exact .inl (admitted_history schedule p)
  | @failed batch _ _ _ _ handed | @interrupted batch _ _ _ handed =>
    exact .inr ⟨batch, handed, rfl⟩

theorem exists_walked (h : p.Counts c.config k) (cell : p.site.failure = none)
    (schedule : Schedule) (seed : Seed) {batch : Batch}
    (handed : c.allocator.nextBatch p.sliding = .ok batch) :
    ∃ silent during, Walked c k p batch (c.iterate schedule seed p batch) silent during := by
  obtain ⟨silent, quiet, lead⟩ := admitted_history schedule p
  obtain ⟨during, history, traced⟩ : ∃ during : List Action,
      (c.iterate schedule seed p batch).site.history =
        during.reverse ++ .handedOut batch.tasks :: (admitted schedule p).site.history ∧
      (c.iterate schedule seed p batch).Traced during :=
    Iteration.exists_traced_run (c.job seed) schedule batch.tasks (admitted schedule p).site
  have coherent := c.coherent_iterate schedule seed cell batch
  have tiles := (tiles_of_counts h handed).flatMap_candidates
  rw [Config.indexBehind_succ, Nat.add_sub_cancel_left, ← coherent.tasks] at tiles
  have subperm := traced.subperm
  rw [tiles] at subperm
  refine ⟨silent, during, ?_, quiet, traced.closed, ⟨length_tasks handed,
    fun worker task found => ?_, fun call mem => ?_, fun worker task found => ?_⟩, ?_,
    fun down => ?_, ?_⟩
  · rw [history, List.reverse_append, List.reverse_cons, lead, List.reverse_reverse]
    simp
  · obtain ⟨-, kind, start, stop⟩ := Allocator.task_of_nextBatch handed found
    rw [kind, start, stop, h.sliding, c.accountOnly_eq, c.allocator_eq_config.2.1]
    exact ⟨rfl, rfl, rfl⟩
  · obtain ⟨action, there, called⟩ := List.mem_filterMap.1 mem
    change call.1 < batch.tasks.length
    rw [length_tasks handed, ← length_workers_iterate cell handed]
    exact traced.known action there call.1 (Action.worker?_of_call? called)
  · change batch.tasks[worker]? = some task at found
    rw [← coherent.tasks, List.getElem?_map, Option.map_eq_some_iff] at found
    obtain ⟨w, there, rfl⟩ := found
    change requestsOf worker (Action.calls during) <+: w.task.candidates
    rw [traced.each worker w there]
    exact w.visited_prefix
  · exact subperm
  · rw [Stretch.Completes, ← tiles]
    exact traced.perm_of_scanned fun w mem => scanned_iterate cell down mem
  · have calls := subperm.length_le
    rw [List.length_map, length_positions] at calls
    exact Nat.le_trans traced.length_keys_le calls

namespace Walked

variable {batch : Batch} {it : Iteration σ} {silent during : List Action}

theorem ofHistory_eq (h : Walked c k p batch it silent during) :
    Stretch.ofHistory it.site.history.reverse =
      Stretch.ofHistory p.site.history.reverse ++ [⟨batch.tasks, Action.calls during⟩] := by
  rw [h.history, Stretch.ofHistory_append_handedOut _ _ h.closed,
    Stretch.ofHistory_append_silent _ h.quiet]

theorem requested_eq (h : Walked c k p batch it silent during) :
    Action.requested it.site.history.reverse =
      Action.requested p.site.history.reverse ++ (Action.calls during).map Prod.snd := by
  have handing : Action.calls (.handedOut batch.tasks :: during) = Action.calls during := rfl
  simp only [h.history, Action.requested_eq_map_calls, Action.calls_append,
    Stretch.calls_silent h.quiet, handing, List.append_nil, List.map_append]

/-- The history behind one more batch, of which all candidates may have been asked for or not. -/
theorem visits (h : Walked c k p batch it silent during) (before : p.Visited c.config k)
    (handed : c.allocator.nextBatch p.sliding = .ok batch) {k' : Nat} (low : k ≤ k')
    (high : k' ≤ k + 1)
    (complete : k' = k + 1 → Stretch.Completes c.config k ⟨batch.tasks, Action.calls during⟩) :
    Visits c.config k' it.site.history.reverse := by
  have cases {j : Nat} {s : Stretch}
      (found : (Stretch.ofHistory it.site.history.reverse)[j]? = some s) :
      (Stretch.ofHistory p.site.history.reverse)[j]? = some s ∧ j < k ∨
        j = k ∧ s = ⟨batch.tasks, Action.calls during⟩ := by
    rw [h.ofHistory_eq] at found
    by_cases old : j < (Stretch.ofHistory p.site.history.reverse).length
    · rw [List.getElem?_append_left old] at found
      exact .inl ⟨found, before.length ▸ old⟩
    · rw [List.getElem?_append_right (Nat.le_of_not_lt old), List.getElem?_singleton] at found
      split at found
      · have := before.length
        exact .inr ⟨by omega, (Option.some.inj found).symm⟩
      · cases found
  have length : (Stretch.ofHistory it.site.history.reverse).length = k + 1 := by
    rw [h.ofHistory_eq, List.length_append, before.length, List.length_singleton]
  refine ⟨?_, by omega, by omega, fun j s found => ?_, fun j s lt found => ?_,
    (k + 1) * c.config.batchSize, Nat.mul_le_mul_right _ (by omega), ?_, ?_⟩
  · rw [h.requested_eq, h.ofHistory_eq, List.flatMap_append, before.visits.grouped,
      List.flatMap_singleton]
    rfl
  · rcases cases found with ⟨old, -⟩ | ⟨rfl, rfl⟩
    · exact before.visits.fits j s old
    · exact h.fits
  · rcases cases found with ⟨old, earlier⟩ | ⟨rfl, rfl⟩
    · exact before.visits.complete j s earlier old
    · exact complete (by omega)
  · have next := next_of_counts before.counts handed
    rw [Config.indexBehind] at next
    rw [← next]
    exact Nat.le_of_lt batch.next.toNat_lt
  · rw [h.requested_eq, Nat.add_mul, Nat.one_mul, positions_add]
    exact before.all.subperm.append h.subperm

end Walked

theorem visited_advance (h : p.Visited c.config k) {batch : Batch} {keys : List Key}
    (handed : c.allocator.nextBatch p.sliding = .ok batch)
    (outcome : (c.iterate schedule seed p batch).outcome = .ok keys) :
    (c.advance p batch.next keys (c.iterate schedule seed p batch).reports
      (c.iterate schedule seed p batch).site).Visited c.config (k + 1) := by
  obtain ⟨silent, during, walked⟩ := exists_walked h.counts h.cell schedule seed handed
  have down := (Iteration.outcome_eq_ok_iff.1 outcome).1
  have complete := walked.complete down
  refine ⟨counts_advance h.counts handed _ _, Site.failure_eq_none down, ?_, ?_, ?_⟩
  · change (Stretch.ofHistory (c.iterate schedule seed p batch).site.history.reverse).length = k + 1
    rw [walked.ofHistory_eq, List.length_append, h.length, List.length_singleton]
  · exact walked.visits h handed (Nat.le_succ k) (Nat.le_refl _) fun _ => complete
  · change (Action.requested (c.iterate schedule seed p batch).site.history.reverse).Perm _
    rw [walked.requested_eq, Nat.add_mul, Nat.one_mul, positions_add]
    exact h.all.append complete

theorem Reached.visited {q : Progress σ} (h : Reached c schedule seed target p k q)
    (start : p.Visited c.config 0) : q.Visited c.config k :=
  h.of_advance (motive := fun k q => q.Visited c.config k) start
    fun _ _ _ _ visited _ handed outcome => visited_advance visited handed outcome

/-- The last round of a search keeps to the candidates as well. -/
theorem Rounded.visits (h : p.Visited c.config k) {run : Run σ}
    (last : Rounded c schedule seed target p (.ended run)) : Visits c.config k run.history := by
  rcases last.exists_history with ⟨silent, quiet, history⟩ | ⟨batch, handed, history⟩
  · rw [history]
    exact h.visits.silent quiet
  · obtain ⟨silent, during, walked⟩ := exists_walked h.counts h.cell schedule seed handed
    rw [history]
    exact walked.visits h handed (Nat.le_refl k) (Nat.le_succ k) fun same => by omega

end Coordinator

/-! ### Searches -/

/-- The calls of a search with these settings: none is made twice, each is for a candidate of the
iterations behind the search or of the one that was cut short, and they come in stretches, one for
each batch in turn. -/
structure Run.Covers (run : Run σ) (c : Config) : Prop where
  distinct : (Action.requested run.history).Nodup
  inRange : ∀ position ∈ Action.requested run.history, ∃ index : UInt64, c.startIndex ≤ index ∧
    index.toNat < c.indexBehind (run.iterations + 1) ∧ position = positionAt c.accountOnly index
  visits : Visits c run.iterations run.history
  /-- A search that succeeds has asked for exactly the candidates of its iterations. -/
  success : ∀ report, run.result = .ok report → report.stats.iterations.toNat = run.iterations ∧
    (Action.requested run.history).Perm
      (positions c.accountOnly c.startIndex.toNat (run.iterations * c.batchSize))

namespace Coordinator

theorem covers_of_visits {c : Config} {run : Run σ} (visits : Visits c run.iterations run.history)
    (success : ∀ report, run.result = .ok report →
      report.stats.iterations.toNat = run.iterations ∧ (Action.requested run.history).Perm
        (positions c.accountOnly c.startIndex.toNat (run.iterations * c.batchSize))) :
    run.Covers c :=
  ⟨visits.nodup, fun _ mem => visits.exists_index mem, visits, success⟩

theorem covers_run (c : Coordinator σ) (schedule : Schedule) (seed : Seed) (target : UInt64)
    (world : σ) (cancelled : Bool) :
    (c.run schedule seed target world cancelled).Covers c.config := by
  by_cases asked : target = 0
  · have start := c.visited_setOut target world cancelled
    rw [run, if_pos asked]
    exact covers_of_visits start.visits fun report same => by cases same; exact ⟨rfl, start.all⟩
  · obtain ⟨k, p, reached, last⟩ := c.exists_reached_rounded schedule seed asked world cancelled
    have visited := reached.visited (c.visited_setOut target world cancelled)
    have counted := last.iterations_eq visited.counts
    refine covers_of_visits (counted ▸ last.visits visited) fun report same => ?_
    rw [counted]
    generalize c.run schedule seed target world cancelled = run at last same
    cases last with
    | enough =>
      cases same
      exact ⟨visited.counts.iterations, visited.all⟩
    | cancelled | limited | exhausted | failed | interrupted => cases same

/-- With services that keep nothing in mind, a search goes through no more iterations than it takes
to find enough keys. -/
theorem isLeast_iterations {c : Coordinator σ} {schedule : Schedule} {seed : Seed}
    {target : UInt64} {inv : σ → Prop} {o : Oracle} (behaves : (c.job seed).Behaves inv o)
    {world : σ} (h : inv world) {cancelled : Bool} {report : Report}
    (returned : (c.run schedule seed target world cancelled).result = .ok report) :
    IsLeast {k | target.toNat ≤
        (o.hits c.config.accountOnly c.config.startIndex.toNat (k * c.config.batchSize)).length}
      report.stats.iterations.toNat := by
  by_cases asked : target = 0
  · rw [run, if_pos asked] at returned
    cases returned
    exact ⟨asked ▸ Nat.zero_le _, fun k _ => Nat.zero_le k⟩
  · obtain ⟨k, p, reached, collected, last⟩ := exists_last_round behaves schedule asked h cancelled
    have earlier := reached.exit?_eq_none behaves (c.collected_setOut o target h cancelled)
    generalize c.run schedule seed target world cancelled = run at last returned
    cases last with
    | enough enough =>
      cases returned
      change IsLeast _ p.stats.iterations.toNat
      rw [collected.size_found] at enough
      rw [collected.counts.iterations]
      refine ⟨enough, fun j there => Nat.le_of_not_lt fun lt => ?_⟩
      have closed := earlier j lt
      rw [exit?_of_enough there] at closed
      cases closed
    | cancelled | limited | exhausted | failed | interrupted => cases returned

end Coordinator

/-- Whatever the services answer, whoever cancels and however the workers take turns, a search asks
for no candidate twice and leaves none out; with services that keep nothing in mind it stops behind
the first iteration with enough keys. -/
theorem run_asks_for_each_candidate_once (c : Coordinator σ) (schedule : Schedule) (seed : Seed)
    (target : UInt64) (world : σ) (cancelled : Bool) :
    ∀ run, run = c.run schedule seed target world cancelled → run.Covers c.config ∧
      ∀ (inv : σ → Prop) (derive : Seed → Position → Derivation.Outcome)
        (actual projected : Key → UInt32 → UInt32) (o : Oracle) (report : Report),
        c.deriver.Behaves inv derive → c.evaluator.assigner.Behaves inv actual projected →
        inv world → o = .ofFunctions derive actual projected c.evaluator.constraints seed →
        run.result = .ok report →
        IsLeast {k | target.toNat ≤ (o.hits c.config.accountOnly c.config.startIndex.toNat
          (k * c.config.batchSize)).length} report.stats.iterations.toNat := by
  rintro run rfl
  refine ⟨c.covers_run schedule seed target world cancelled, ?_⟩
  rintro inv derive actual projected o report d e h rfl returned
  exact Coordinator.isLeast_iterations (Job.behaves d e) h returned

/-- Three keys take two iterations of four candidates. -/
theorem run_asks_for_each_candidate_once_evenSearch :
    ∃ run : Run Unit, run = (evenSearch none).run (.roundRobin 2) ⟨[]⟩ 3 () false ∧
      (Action.requested run.history).Nodup ∧
      (Action.requested run.history).Perm (positions false 5 8) ∧
      IsLeast {k | 3 ≤ (Iteration.evenOracle.hits false 5 (k * 4)).length} 2 := by
  have d : (evenSearch none).deriver.Behaves (fun _ => True) _ := Derivation.Deriver.behaves_ofFn _
  have e : (evenSearch none).evaluator.assigner.Behaves (fun _ => True) _ _ :=
    Shard.Assigner.behaves_ofFn _ _
  have result : ((evenSearch none).run (.roundRobin 2) ⟨[]⟩ 3 () false).result =
      .ok ⟨[Rehearsal.stubKey ⟨0, 6⟩, Rehearsal.stubKey ⟨0, 8⟩, Rehearsal.stubKey ⟨0, 10⟩],
        ⟨2, 8, 4⟩⟩ :=
    Coordinator.run_of_within? (by decide) Run.result 3 (by cbv)
  obtain ⟨covers, least⟩ :=
    run_asks_for_each_candidate_once (evenSearch none) (.roundRobin 2) ⟨[]⟩ 3 () false _ rfl
  obtain ⟨iterations, all⟩ := covers.success _ result
  have two : ((evenSearch none).run (.roundRobin 2) ⟨[]⟩ 3 () false).iterations = 2 :=
    iterations.symm
  rw [two] at all
  exact ⟨_, rfl, covers.distinct, all,
    least _ _ _ _ Iteration.evenOracle _ d e trivial rfl result⟩

end KeySearch.Search
