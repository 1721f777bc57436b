import KeySearch.Search.Event
import KeySearch.Search.Worker

/-! One iteration: a worker for each task of a batch, all on one site, taking turns as the schedule
says until each has come to its end. Then their coordinator looks into the cell for a failure, and
only if there is none at the flag, and only if that is down takes the keys, worker by worker. -/

namespace KeySearch.Search

structure Iteration (σ : Type) where
  workers : List Worker
  site : Site σ

namespace Iteration

variable {σ : Type}

def ofTasks (tasks : List Task) (site : Site σ) : Iteration σ where
  workers := tasks.map Worker.ofTask
  site := site.note (.handedOut tasks)

/-- The work left to all of some workers. -/
def totalWork (workers : List Worker) : Nat :=
  workers.foldr (fun worker work => worker.work + work) 0

/-- The work left in the iteration. -/
def work (it : Iteration σ) : Nat := totalWork it.workers

/-- The worker whose turn it is: the preferred one if it is running, otherwise the first that is. -/
def turn (workers : List Worker) (preferred : Nat) : Option Nat :=
  if workers[preferred]?.any Worker.isRunning then some preferred
  else workers.findIdx? Worker.isRunning

/-- One step, by the worker with the given number. -/
def act (it : Iteration σ) (job : Job σ) (move : Move) (number : Nat) : Iteration σ :=
  let site := it.site.tick move
  match it.workers[number]? with
  | none => ⟨it.workers, site⟩
  | some worker =>
    let (worker, site) := worker.step job number site
    ⟨it.workers.set number worker, site⟩

theorem running_of_turn {workers : List Worker} {preferred number : Nat}
    (h : turn workers preferred = some number) :
    ∃ worker, workers[number]? = some worker ∧ worker.isRunning = true := by
  unfold turn at h
  split at h
  · rename_i running
    cases h
    cases found : workers[preferred]? with
    | none => simp [found] at running
    | some worker => exact ⟨worker, rfl, by simpa [found] using running⟩
  · obtain ⟨bound, running, -⟩ := List.findIdx?_eq_some_iff_getElem.1 h
    exact ⟨workers[number], List.getElem?_eq_getElem bound, running⟩

theorem totalWork_set_lt {workers : List Worker} {number : Nat} {before after : Worker}
    (h : workers[number]? = some before) (lt : after.work < before.work) :
    totalWork (workers.set number after) < totalWork workers := by
  induction workers generalizing number with
  | nil => simp at h
  | cons worker workers ih =>
    cases number with
    | zero =>
      simp only [List.getElem?_cons_zero, Option.some.injEq] at h
      subst h
      exact Nat.add_lt_add_right lt _
    | succ number => exact Nat.add_lt_add_left (ih h) _

theorem work_act_lt (it : Iteration σ) (job : Job σ) (move : Move) {number : Nat}
    (h : turn it.workers move.worker = some number) :
    (it.act job move number).work < it.work := by
  obtain ⟨worker, found, running⟩ := running_of_turn h
  simp only [act, found, work]
  exact totalWork_set_lt found (worker.work_step_lt job number _ running)

/-- All steps of the workers, until none is running. -/
def settle (it : Iteration σ) (job : Job σ) (schedule : Schedule) : Iteration σ :=
  let move := schedule it.site.clock
  match h : turn it.workers move.worker with
  | none => it
  | some number =>
    have := it.work_act_lt job move h
    (it.act job move number).settle job schedule
termination_by it.work

theorem settle_of_turn_eq_none {it : Iteration σ} {job : Job σ} {schedule : Schedule}
    (h : turn it.workers (schedule it.site.clock).worker = none) :
    it.settle job schedule = it := by
  rw [settle]
  split <;> simp_all

theorem settle_of_turn_eq_some {it : Iteration σ} {job : Job σ} {schedule : Schedule}
    {number : Nat} (h : turn it.workers (schedule it.site.clock).worker = some number) :
    it.settle job schedule =
      (it.act job (schedule it.site.clock) number).settle job schedule := by
  rw [settle]
  split <;> simp_all

/-! ### The end of an iteration -/

/-- What a worker reports at its end. -/
def reportOf (worker : Worker) (number : Nat) : Event :=
  match worker.phase with
  | .ended (.failed failure) => .taskFailed number failure
  | _ => .taskFinished number worker.task.start worker.task.stop worker.kept.length

/-- The reports of the workers, in the order of their numbers. -/
def reports (it : Iteration σ) : List Event :=
  it.workers.zipIdx.map fun (worker, number) => reportOf worker number

/-- The keys of all workers, or the reason to end the search. -/
def outcome (it : Iteration σ) : Except Error (List Key) :=
  match it.site.failure with
  | some failure => .error (.derivation failure)
  | none => if it.site.cancelled then .error .cancelled else .ok (it.workers.flatMap Worker.keys)

/-- The coordinator joins the workers, which is a step of its own. -/
def join (it : Iteration σ) (schedule : Schedule) : Iteration σ :=
  { it with site := it.site.tick (schedule it.site.clock) }

/-- A whole iteration up to the join. -/
def run (job : Job σ) (schedule : Schedule) (tasks : List Task) (site : Site σ) : Iteration σ :=
  ((ofTasks tasks site).settle job schedule).join schedule

end Iteration

end KeySearch.Search
