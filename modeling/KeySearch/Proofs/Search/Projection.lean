import KeySearch.Proofs.Search.Discretion

/-! A search seen through a map of worlds. Services on a larger world may carry along what others on
a smaller one do not have. If a map of worlds takes their answers to those of the others from each
world on (`Job.LiesOver`), it takes every step of the one search to that of the other, and so every
iteration, every round and the whole run: what is carried along has no part in the search. With the
map that changes nothing, services that give the same answers are found to lead the same search. -/

namespace KeySearch.Search

variable {σ τ : Type} {view : τ → σ}

/-- From each world on the services of the second job do, through the map, what those of the first
one do. -/
structure Job.LiesOver (job' : Job τ) (view : τ → σ) (job : Job σ) : Prop where
  reply (position : Position) (world : τ) :
    job.deriver.derive job.seed position (view world) =
      (job'.deriver.derive job'.seed position world).map id view
  judged (key : Key) (world : τ) :
    job.evaluator.satisfies key (view world) = (job'.evaluator.satisfies key world).map id view

/-! ### From step to step -/

namespace Site

/-- The site with its world seen through the map. -/
def map (view : τ → σ) (s : Site τ) : Site σ :=
  ⟨view s.world, s.cancelled, s.failure, s.clock, s.history⟩

theorem tick_map (s : Site τ) (move : Move) : (s.map view).tick move = (s.tick move).map view := by
  unfold tick
  split <;> rfl

end Site

theorem Worker.step_map {job : Job σ} {job' : Job τ} (lies : job'.LiesOver view job) (w : Worker)
    (number : Nat) (site : Site τ) :
    w.step job number (site.map view) = (w.step job' number site).map id (Site.map view) := by
  unfold step
  split
  · rfl
  · have call := lies.reply (w.task.position w.next) site.world
    rcases call' : job'.deriver.derive job'.seed (w.task.position w.next) site.world with
      ⟨reply, world⟩
    rw [call'] at call
    cases outcome : reply.outcome with
    | error cause => simp only [examine, Site.map, call, call', Prod.map, id_eq, outcome]
    | ok key =>
      simp only [examine, Site.map, call, call', Prod.map, id_eq, outcome, lies.judged key world]
  · rfl
  · rfl

namespace Iteration

variable {job : Job σ} {job' : Job τ}

/-- The iteration with its world seen through the map. -/
def map (view : τ → σ) (it : Iteration τ) : Iteration σ := ⟨it.workers, it.site.map view⟩

theorem act_map (lies : job'.LiesOver view job) (it : Iteration τ) (move : Move) (number : Nat) :
    (it.map view).act job move number = (it.act job' move number).map view := by
  cases found : it.workers[number]? with
  | none => simp only [act, map, found, Site.tick_map]
  | some w => simp only [act, map, found, Site.tick_map, w.step_map lies, Prod.map, id_eq]

theorem settle_map (lies : job'.LiesOver view job) (it : Iteration τ) (schedule : Schedule) :
    (it.map view).settle job schedule = (it.settle job' schedule).map view := by
  fun_induction it.settle job' schedule with
  | case1 it move none => exact settle_of_turn_eq_none none
  | case2 it move number next _ ih =>
    have next' : turn (it.map view).workers
      (schedule (it.map view).site.clock).worker = some number := next
    rw [settle_of_turn_eq_some next', ← ih, ← it.act_map lies]
    rfl

theorem run_map (lies : job'.LiesOver view job) (schedule : Schedule) (tasks : List Task)
    (site : Site τ) :
    run job schedule tasks (site.map view) = (run job' schedule tasks site).map view := by
  have settled := settle_map lies (ofTasks tasks site) schedule
  change (ofTasks tasks (site.map view)).settle job schedule = _ at settled
  rw [run, settled, join, run, join]
  simp only [map, ← Site.tick_map]
  rfl

end Iteration

/-! ### From round to round -/

/-- The progress with its world seen through the map. -/
def Progress.map (view : τ → σ) (p : Progress τ) : Progress σ :=
  ⟨p.sliding, p.stats, p.found, p.events, p.site.map view⟩

/-- The run with its world seen through the map. -/
def Run.map (view : τ → σ) (run : Run τ) : Run σ :=
  ⟨run.result, run.events, run.history, view run.world, run.cancelled⟩

/-- The round with its world seen through the map. -/
def Round.map (view : τ → σ) : Round τ → Round σ
  | .ended run => .ended (run.map view)
  | .next p => .next (p.map view)

namespace Coordinator

/-- The coordinators have the same settings and the same constraints, and the services of the first
do through the map what those of the second do. -/
structure LiesOver (c' : Coordinator τ) (view : τ → σ) (c : Coordinator σ) : Prop where
  config : c'.config = c.config
  constraints : c'.evaluator.constraints = c.evaluator.constraints
  job (seed : Seed) : (c'.job seed).LiesOver view (c.job seed)

variable {c : Coordinator σ} {c' : Coordinator τ} (lies : c'.LiesOver view c)

include lies

theorem runBatch_map (schedule : Schedule) (seed : Seed) (p : Progress τ) (batch : Batch) :
    c.runBatch schedule seed (p.map view) batch =
      (c'.runBatch schedule seed p batch).map view := by
  have same : Iteration.run (c.job seed) schedule batch.tasks (p.map view).site =
    (Iteration.run (c'.job seed) schedule batch.tasks p.site).map view :=
      Iteration.run_map (lies.job seed) schedule batch.tasks p.site
  have outcome (it : Iteration τ) : (it.map view).outcome = it.outcome := rfl
  simp only [runBatch, same, outcome]
  split
  · simp only [Round.map, Progress.map, advance, lies.config]
    rfl
  · rfl
  · rfl

theorem proceed_map (schedule : Schedule) (seed : Seed) (p : Progress τ) :
    c.proceed schedule seed (p.map view) = (c'.proceed schedule seed p).map view := by
  have stats : (p.map view).stats = p.stats := rfl
  have sliding : (p.map view).sliding = p.sliding := rfl
  have limit : c.limitReached? p.stats.iterations = c'.limitReached? p.stats.iterations := by
    rw [limitReached?, limitReached?, lies.config]
  simp only [proceed, stats, sliding, limit, allocator_congr lies.config]
  split
  · rfl
  · split
    · exact runBatch_map lies schedule seed p _
    · rfl

theorem round_map (schedule : Schedule) (seed : Seed) (target : UInt64) (p : Progress τ) :
    c.round schedule seed target (p.map view) =
      (c'.round schedule seed target p).map view := by
  have found : (p.map view).found = p.found := rfl
  have tick' (p : Progress τ) : (p.map view).tick schedule = (p.tick schedule).map view := by
    simp only [Progress.tick, Progress.map, ← Site.tick_map]
    rfl
  have looked' : looked schedule (p.map view) = (looked schedule p).map view := by
    rw [looked, tick']
    rfl
  have admitted' : admitted schedule (p.map view) = (admitted schedule p).map view := by
    rw [admitted, looked', tick']
    rfl
  have flag : ((looked schedule p).map view).site.cancelled =
    (looked schedule p).site.cancelled := rfl
  rw [round_eq, round_eq, found, looked', admitted', flag]
  split
  · rfl
  · split
    · rfl
    · exact proceed_map lies schedule seed _

theorem rounds_map (schedule : Schedule) (seed : Seed) (target : UInt64) (p : Progress τ) :
    c.rounds schedule seed target (p.map view) =
      (c'.rounds schedule seed target p).map view := by
  fun_induction c'.rounds schedule seed target p with
  | case1 p run ended =>
    refine rounds_of_ended ?_
    rw [round_map lies, ended]
    rfl
  | case2 p q next _ ih =>
    rw [← ih]
    refine rounds_of_next ?_
    rw [round_map lies, next]
    rfl

/-- Through the map the search of the one coordinator is that of the other. -/
theorem run_map (schedule : Schedule) (seed : Seed) (target : UInt64) (world : τ)
    (cancelled : Bool) :
    c.run schedule seed target (view world) cancelled =
      (c'.run schedule seed target world cancelled).map view := by
  by_cases asked : target = 0
  · rw [run, run, if_pos asked, if_pos asked]
    rfl
  · have setOut' : c.setOut target (view world) cancelled =
        (c'.setOut target world cancelled).map view := by
      simp only [setOut, opening, Progress.map, lies.config, lies.constraints]
      rfl
    rw [run, run, if_neg asked, if_neg asked, setOut', rounds_map lies]

end Coordinator

end KeySearch.Search
