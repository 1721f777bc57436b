import KeySearch.Derivation.Deriver
import KeySearch.Search.Site
import KeySearch.Shard.Assigner

/-! One worker goes through the candidates of its task in increasing order. For each it takes two
steps: it looks whether the search is to stop, and it derives the key and keeps it if the evaluator
accepts it. A failure to derive takes a third step, which puts the failure into the cell. The steps
of other workers may come between any two of these. A worker's work is a number that each of its
steps makes smaller. -/

namespace KeySearch.Search

/-- What the workers of a search are to do, and with which services. -/
structure Job (σ : Type) where
  seed : Seed
  deriver : Derivation.Deriver σ
  evaluator : Shard.Evaluator σ

/-- How a worker's part in an iteration ended. -/
inductive Ending where
  | scanned
  | brokeOff
  | failed (failure : Failure)
  deriving DecidableEq

/-- What a worker will do in its next step. -/
inductive Phase where
  | polling
  | cleared
  | failing (failure : Failure)
  | ended (ending : Ending)
  deriving DecidableEq

structure Worker where
  task : Task
  /-- The first candidate that the worker has not been through. -/
  next : UInt64
  /-- The keys kept so far, the latest first. -/
  kept : List Key
  phase : Phase

namespace Worker

variable {σ : Type}

/-- A worker goes on as long as candidates are left. -/
def phaseAt (t : Task) (index : Nat) : Phase :=
  if index < t.stop.toNat then .polling else .ended .scanned

def ofTask (t : Task) : Worker := ⟨t, t.start, [], phaseAt t t.start.toNat⟩

/-- The keys that the worker hands over, in the order of its candidates. -/
def keys (w : Worker) : List Key := w.kept.reverse

def isRunning (w : Worker) : Bool :=
  match w.phase with
  | .ended _ => false
  | _ => true

/-- The step that looks whether to stop. -/
def poll (w : Worker) (number : Nat) (site : Site σ) : Worker × Site σ :=
  ({ w with phase := if site.stops then .ended .brokeOff else .cleared },
    site.note (.polled number site.stops))

/-- The step that derives and evaluates one candidate. -/
def examine (w : Worker) (job : Job σ) (number : Nat) (site : Site σ) : Worker × Site σ :=
  let position := w.task.position w.next
  let (reply, world) := job.deriver.derive job.seed position site.world
  let cancelled := site.cancelled || reply.cancels
  match reply.outcome with
  | .error cause =>
    ({ w with phase := .failing ⟨position, cause⟩ },
      { site with
        world, cancelled
        history := .derived number position false reply.cancels :: site.history })
  | .ok key =>
    let (accepted, world) := job.evaluator.satisfies key world
    ({ w with
        next := w.next + 1
        kept := if accepted then key :: w.kept else w.kept
        phase := phaseAt w.task (w.next.toNat + 1) },
      { site with
        world, cancelled
        history := .derived number position true reply.cancels :: site.history })

/-- The next step of the worker with the given number; a worker at its end takes none. -/
def step (w : Worker) (job : Job σ) (number : Nat) (site : Site σ) : Worker × Site σ :=
  match w.phase with
  | .polling => w.poll number site
  | .cleared => w.examine job number site
  | .failing failure => ({ w with phase := .ended (.failed failure) }, site.record number failure)
  | .ended _ => (w, site)

/-- A bound on the steps that are left. -/
def work (w : Worker) : Nat :=
  match w.phase with
  | .polling => 3 * (w.task.stop.toNat - w.next.toNat) + 3
  | .cleared => 3 * (w.task.stop.toNat - w.next.toNat) + 2
  | .failing _ => 1
  | .ended _ => 0

theorem work_step_lt (w : Worker) (job : Job σ) (number : Nat) (site : Site σ)
    (running : w.isRunning = true) : (w.step job number site).1.work < w.work := by
  unfold step
  cases h : w.phase with
  | ended ending => simp [isRunning, h] at running
  | polling =>
    simp only [poll]
    cases site.stops <;> simp [work, h]
  | failing failure => simp [work, h]
  | cleared =>
    simp only [examine]
    split
    · simp [work, h]
    · have := w.next.toNat_lt
      simp only [work, h, phaseAt]
      split
      · rename_i phase
        split at phase
        · rename_i more
          have := w.task.stop.toNat_lt
          rw [UInt64.toNat_add, UInt64.toNat_one, Nat.mod_eq_of_lt (by omega)]
          omega
        · cases phase
      · rename_i phase
        split at phase <;> cases phase
      · omega
      · omega

end Worker

end KeySearch.Search
