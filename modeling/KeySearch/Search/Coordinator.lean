import KeySearch.Search.Allocator
import KeySearch.Search.Iteration
import KeySearch.Search.Ranking

/-! The coordinator of a search. It hands out one batch after the other until enough keys are at
hand, and returns those with the smallest positions. Before each batch it looks, in this order,
whether the keys suffice, whether the search is cancelled, whether the allowed iterations are used
up and whether there are indices left; each batch is then run to its end, whatever it yields. Behind
its look at the flag the coordinator hands the batch out without another one, so the search may be
cancelled in between and the batch go to its workers all the same. A search for no keys does nothing
at all. Each round moves the sliding index up, so every search ends. -/

namespace KeySearch.Search

open KeySearch.Derivation (Deriver)
open KeySearch.Shard (Assigner Constraints Evaluator)

/-! ### Results -/

structure Stats where
  iterations : UInt64
  candidates : UInt64
  /-- The keys at hand before the cut. -/
  matched : UInt64
  deriving DecidableEq

namespace Stats

def zero : Stats := ⟨0, 0, 0⟩

/-- Candidates per second, for a search that took so long; none in no time. -/
def keysPerSecond (candidates : UInt64) (elapsedSeconds : Float) : Float :=
  if 0.0 < elapsedSeconds then candidates.toFloat / elapsedSeconds else 0.0

end Stats

structure Report where
  keys : List Key
  stats : Stats
  deriving DecidableEq

/-- A search at its end: what it returns, what it reported, every step in the order of time, and
what it left of the world and the flag. -/
structure Run (σ : Type) where
  result : Except Error Report
  events : List Event
  history : List Action
  world : σ
  cancelled : Bool

/-! ### Progress -/

/-- A search between two batches. -/
structure Progress (σ : Type) where
  sliding : UInt64
  stats : Stats
  found : Array Key
  events : Array Event
  site : Site σ

namespace Progress

variable {σ : Type}

/-- The next step of the coordinator begins, behind what its move does from outside. -/
def tick (p : Progress σ) (schedule : Schedule) : Progress σ :=
  { p with site := p.site.tick (schedule p.site.clock) }

/-- The coordinator looks whether the search is cancelled. -/
def look (p : Progress σ) : Progress σ :=
  { p with site := p.site.note (.looked p.site.cancelled) }

/-- The search ends, with a last few reports. -/
def finish (p : Progress σ) (result : Except Error Report) (last : List Event) : Run σ where
  result := result
  events := p.events.toList ++ last
  history := p.site.history.reverse
  world := p.site.world
  cancelled := p.site.cancelled

/-- The search ends with the keys asked for. -/
def complete (p : Progress σ) (target : UInt64) : Run σ :=
  let keys := rank p.found.toList target.toNat
  p.finish (.ok ⟨keys, p.stats⟩) [.completed keys.length p.stats.iterations p.stats.candidates]

end Progress

/-- A round ends the search or leads to the next round. -/
inductive Round (σ : Type) where
  | ended (run : Run σ)
  | next (progress : Progress σ)

/-! ### Coordinators -/

/-- Settings that can be run, with the services to run them on. -/
structure Coordinator (σ : Type) where
  deriver : Deriver σ
  evaluator : Evaluator σ
  config : Config
  allocator : Allocator
  allocator_eq : Allocator.ofConfig config = .ok allocator

namespace Coordinator

variable {σ : Type}

/-- The coordinator for the settings, unless they cannot be run. -/
def make (deriver : Deriver σ) (evaluator : Evaluator σ) (config : Config) :
    Except Error (Coordinator σ) :=
  match h : Allocator.ofConfig config with
  | .ok allocator => .ok ⟨deriver, evaluator, config, allocator, h⟩
  | .error fault => .error (.configuration fault)

def job (c : Coordinator σ) (seed : Seed) : Job σ := ⟨seed, c.deriver, c.evaluator⟩

/-- The limit, if so many iterations use it up. -/
def limitReached? (c : Coordinator σ) (iterations : UInt64) : Option UInt64 :=
  c.config.maxIterations.filter (· ≤ iterations)

/-- The progress behind an iteration that yielded these keys, with the reports of its workers. -/
def advance (c : Coordinator σ) (p : Progress σ) (next : UInt64) (keys : List Key)
    (reports : List Event) (site : Site σ) : Progress σ :=
  let iterations := p.stats.iterations + 1
  let found := p.found ++ keys
  { sliding := next
    stats :=
      { iterations
        candidates := p.stats.candidates + c.config.candidatesPerIteration
        matched := p.stats.matched + UInt64.ofNat keys.length }
    found
    events := (p.events ++ reports).push (.progress iterations found.size next)
    site }

/-- The batch from the sliding index on is handed out and run. -/
def runBatch (c : Coordinator σ) (schedule : Schedule) (seed : Seed) (p : Progress σ)
    (batch : Batch) : Round σ :=
  let iteration := Iteration.run (c.job seed) schedule batch.tasks p.site
  let joined := { p with site := iteration.site }
  match iteration.outcome with
  | .ok keys => .next (c.advance p batch.next keys iteration.reports iteration.site)
  | .error .cancelled =>
    .ended (joined.finish (.error .cancelled) (iteration.reports ++ [.cancelledWithin]))
  | .error error => .ended (joined.finish (.error error) iteration.reports)

/-- What follows a look that has found the flag down: the other checks before a batch, and the
batch. -/
def proceed (c : Coordinator σ) (schedule : Schedule) (seed : Seed) (p : Progress σ) : Round σ :=
  match c.limitReached? p.stats.iterations with
  | some limit =>
    .ended (p.finish (.error (.iterationLimit limit)) [.limitReached limit p.found.size])
  | none =>
    match c.allocator.nextBatch p.sliding with
    | .ok batch => c.runBatch schedule seed p batch
    | .error error => .ended (p.finish (.error error) [])

/-- One round: the checks before a batch, and the batch. The search may be cancelled right before
the look at the flag, and right behind it. -/
def round (c : Coordinator σ) (schedule : Schedule) (seed : Seed) (target : UInt64)
    (p : Progress σ) : Round σ :=
  if target.toNat ≤ p.found.size then .ended (p.complete target)
  else
    let p := (p.tick schedule).look
    if p.site.cancelled then
      .ended (p.finish (.error .cancelled) [.cancelledBefore p.stats.iterations])
    else c.proceed schedule seed (p.tick schedule)

theorem sliding_lt_of_proceed {c : Coordinator σ} {schedule : Schedule} {seed : Seed}
    {p q : Progress σ} (h : c.proceed schedule seed p = .next q) :
    p.sliding.toNat < q.sliding.toNat := by
  unfold proceed at h
  split at h
  · cases h
  · split at h
    · rename_i batch found
      unfold runBatch at h
      simp only at h
      split at h
      · cases h
        exact Allocator.lt_next_of_nextBatch found
      · cases h
      · cases h
    · cases h

theorem sliding_lt_of_round {c : Coordinator σ} {schedule : Schedule} {seed : Seed}
    {target : UInt64} {p q : Progress σ} (h : c.round schedule seed target p = .next q) :
    p.sliding.toNat < q.sliding.toNat := by
  unfold round at h
  split at h
  · cases h
  · simp only at h
    split at h
    · cases h
    · exact sliding_lt_of_proceed (p := (p.tick schedule).look.tick schedule) h

/-- Round after round, to the end. -/
def rounds (c : Coordinator σ) (schedule : Schedule) (seed : Seed) (target : UInt64)
    (p : Progress σ) : Run σ :=
  match h : c.round schedule seed target p with
  | .ended run => run
  | .next q =>
    have : UInt64.size - q.sliding.toNat < UInt64.size - p.sliding.toNat :=
      Nat.sub_lt_sub_left p.sliding.toNat_lt (sliding_lt_of_round h)
    c.rounds schedule seed target q
termination_by UInt64.size - p.sliding.toNat

theorem rounds_of_ended {c : Coordinator σ} {schedule : Schedule} {seed : Seed} {target : UInt64}
    {p : Progress σ} {run : Run σ} (h : c.round schedule seed target p = .ended run) :
    c.rounds schedule seed target p = run := by
  rw [rounds]
  split <;> simp_all

theorem rounds_of_next {c : Coordinator σ} {schedule : Schedule} {seed : Seed} {target : UInt64}
    {p q : Progress σ} (h : c.round schedule seed target p = .next q) :
    c.rounds schedule seed target p = c.rounds schedule seed target q := by
  rw [rounds]
  split <;> simp_all

/-- What a search reports at its start. -/
def opening (c : Coordinator σ) (target : UInt64) : Event :=
  let constraints := c.evaluator.constraints
  .started target constraints.numShards constraints.actualShard constraints.projectedShard
    c.config.startIndex c.config.numTasks c.config.taskWidth

/-- The search as it sets out for the given number of keys. -/
def setOut (c : Coordinator σ) (target : UInt64) (world : σ) (cancelled : Bool) : Progress σ :=
  ⟨c.config.startIndex, .zero, #[], #[c.opening target], .start world cancelled⟩

/-- Searches the keys of a seed, in a world and with a flag that may be up already. -/
def run (c : Coordinator σ) (schedule : Schedule) (seed : Seed) (target : UInt64) (world : σ)
    (cancelled : Bool) : Run σ :=
  if target = 0 then ⟨.ok ⟨[], .zero⟩, [.nothingAsked], [], world, cancelled⟩
  else c.rounds schedule seed target (c.setOut target world cancelled)

end Coordinator

/-- A single search with a coordinator of its own, of which only the keys are of interest. -/
def search {σ : Type} (schedule : Schedule) (seed : Seed) (deriver : Deriver σ)
    (assigner : Assigner σ) (constraints : Constraints) (config : Config) (target : UInt64)
    (world : σ) : Except Error (List Key) := do
  let coordinator ← Coordinator.make deriver ⟨constraints, assigner⟩ config
  let report ← (coordinator.run schedule seed target world false).result
  return report.keys

end KeySearch.Search
