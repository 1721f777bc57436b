import KeySearch.Proofs.Search.Steps
import KeySearch.Proofs.Search.Tiling
import KeySearch.Rehearsal.Stub
import Mathlib.Data.List.Permutation

/-! The workers of one iteration under every schedule. A worker that follows an oracle holds exactly
the hits among the candidates it has been through, none of which fails, and its phase tells how it
stands with the next one (`Worker.Follows`). Between the workers and their site, a filled cell holds
what some worker has recorded, and a worker that recorded a failure or broke off leaves a reason to
stop behind (`Iteration.Coherent`); no such reason goes away before the join. -/

namespace KeySearch.Search

variable {σ : Type}

/-! ### A worker's candidates -/

/-- How the phase of a worker fits its next candidate. -/
def Worker.PhaseFits (o : Oracle) (w : Worker) : Prop :=
  match w.phase with
  | .polling | .cleared | .ended .brokeOff => w.next.toNat < w.task.stop.toNat
  | .failing failure | .ended (.failed failure) =>
    w.next.toNat < w.task.stop.toNat ∧ failure.position = w.task.position w.next ∧
      o.outcome failure.position = .error failure.cause
  | .ended .scanned => w.task.stop.toNat ≤ w.next.toNat

/-- The worker has kept the hits among the candidates up to its next one, and met no failure among
them. -/
structure Worker.Follows (o : Oracle) (w : Worker) : Prop where
  low : w.task.start.toNat ≤ w.next.toNat
  high : w.next.toNat ≤ max w.task.start.toNat w.task.stop.toNat
  keys : w.keys =
    o.hits w.task.accountOnly w.task.start.toNat (w.next.toNat - w.task.start.toNat)
  clean : ∀ index, w.task.start.toNat ≤ index → index < w.next.toNat →
    o.failsAt w.task.accountOnly index = false
  phase : w.PhaseFits o

/-- The failure is that of the first candidate of the task for which there is no key. -/
def Oracle.FirstFailure (o : Oracle) (t : Task) (failure : Failure) : Prop :=
  ∃ index, t.start.toNat ≤ index ∧ index < t.stop.toNat ∧
    failure.position = positionAt t.accountOnly (UInt64.ofNat index) ∧
    o.outcome failure.position = .error failure.cause ∧
    ∀ earlier, t.start.toNat ≤ earlier → earlier < index →
      o.failsAt t.accountOnly earlier = false

namespace Worker

variable {o : Oracle} {w : Worker}

theorem phaseFits_phaseAt {o : Oracle} {w : Worker}
    (phase : w.phase = phaseAt w.task w.next.toNat) : w.PhaseFits o := by
  unfold PhaseFits
  rw [phase, phaseAt]
  by_cases more : w.next.toNat < w.task.stop.toNat
  · rw [if_pos more]
    exact more
  · rw [if_neg more]
    exact Nat.le_of_not_lt more

theorem follows_ofTask (o : Oracle) (t : Task) : (ofTask t).Follows o where
  low := Nat.le_refl _
  high := Nat.le_max_left _ _
  keys := by simp [ofTask, Worker.keys, Oracle.hits_zero]
  clean := fun index low high => absurd (Nat.lt_of_le_of_lt low high) (Nat.lt_irrefl _)
  phase := phaseFits_phaseAt rfl

/-- A change of the phase alone. -/
theorem Follows.with_phase (h : w.Follows o) {phase : Phase}
    (fits : { w with phase }.PhaseFits o) : { w with phase }.Follows o :=
  ⟨h.low, h.high, h.keys, h.clean, fits⟩

theorem outcomeAt_next (o : Oracle) (w : Worker) :
    o.outcomeAt w.task.accountOnly w.next.toNat = o.outcome (w.task.position w.next) := by
  rw [Oracle.outcomeAt, UInt64.ofNat_toNat]
  rfl

/-- The next candidate is examined, whose key the oracle knows. -/
theorem Follows.examined (h : w.Follows o) (more : w.next.toNat < w.task.stop.toNat) {key : Key}
    (outcome : o.outcome (w.task.position w.next) = .ok key) :
    Worker.Follows o
      { w with
        next := w.next + 1
        kept := if o.wanted key then key :: w.kept else w.kept
        phase := phaseAt w.task (w.next.toNat + 1) } := by
  have next : (w.next + 1).toNat = w.next.toNat + 1 := by
    have := w.task.stop.toNat_lt
    rw [UInt64.toNat_add, UInt64.toNat_one, Nat.mod_eq_of_lt (by omega)]
  have low := h.low
  have found := (outcomeAt_next o w).trans outcome
  refine ⟨?_, ?_, ?_, ?_, phaseFits_phaseAt ?_⟩
  · change w.task.start.toNat ≤ (w.next + 1).toNat
    omega
  · change (w.next + 1).toNat ≤ max w.task.start.toNat w.task.stop.toNat
    omega
  · change (if o.wanted key then key :: w.kept else w.kept).reverse = o.hits w.task.accountOnly
      w.task.start.toNat ((w.next + 1).toNat - w.task.start.toNat)
    rw [next, show w.next.toNat + 1 - w.task.start.toNat =
      w.next.toNat - w.task.start.toNat + 1 by omega, Oracle.hits_succ, ← h.keys,
      show w.task.start.toNat + (w.next.toNat - w.task.start.toNat) = w.next.toNat by omega,
      Oracle.hitAt, found]
    cases wanted : o.wanted key <;> simp [Worker.keys, wanted]
  · intro index low high
    change index < (w.next + 1).toNat at high
    by_cases earlier : index < w.next.toNat
    · exact h.clean index low earlier
    · have : index = w.next.toNat := by omega
      exact Oracle.failsAt_eq_false_iff.2 ⟨key, this ▸ found⟩
  · exact congrArg (phaseAt w.task) next.symm

/-- A worker that follows the oracle goes on doing so, in a world where the services still do. -/
theorem Stepped.follows {job : Job σ} {inv : σ → Prop} (behaves : job.Behaves inv o) {number : Nat}
    {site : Site σ} {after : Worker × Site σ} (h : Stepped job w number site after)
    (follows : w.Follows o) (world : inv site.world) : after.1.Follows o ∧ inv after.2.world := by
  have fits := follows.phase
  unfold PhaseFits at fits
  cases h with
  | brokeOff phase _ | cleared phase _ =>
    rw [phase] at fits
    exact ⟨follows.with_phase fits, world⟩
  | @refused reply cause left phase call outcome =>
    rw [phase] at fits
    have answer := behaves.outcome (w.task.position w.next) world
    have kept := behaves.derive_keeps (w.task.position w.next) world
    rw [call] at answer kept
    exact ⟨follows.with_phase ⟨fits, rfl, answer ▸ outcome⟩, kept⟩
  | @examined reply key accepted left left' phase call outcome judged =>
    rw [phase] at fits
    have answer := behaves.outcome (w.task.position w.next) world
    have kept := behaves.derive_keeps (w.task.position w.next) world
    rw [call] at answer kept
    have verdict := behaves.wanted key kept
    have kept' := behaves.satisfies_keeps key kept
    rw [judged] at verdict kept'
    simp only at verdict
    rw [verdict]
    exact ⟨follows.examined fits (answer ▸ outcome), kept'⟩
  | recorded phase =>
    rw [phase] at fits
    exact ⟨follows.with_phase fits, world⟩

/-- A worker at its regular end has all hits of its task. -/
theorem Follows.scanned (h : w.Follows o) (phase : w.phase = .ended .scanned) :
    w.keys = o.hitsOf w.task ∧ ∀ index, w.task.start.toNat ≤ index → index < w.task.stop.toNat →
      o.failsAt w.task.accountOnly index = false := by
  have fits := h.phase
  unfold PhaseFits at fits
  rw [phase] at fits
  have high := h.high
  have low := h.low
  refine ⟨?_, fun index low high => h.clean index low (Nat.lt_of_lt_of_le high fits)⟩
  rw [h.keys, Oracle.hitsOf]
  congr 1
  omega

theorem Follows.firstFailure (h : w.Follows o) {failure : Failure}
    (phase : w.phase = .ended (.failed failure)) : o.FirstFailure w.task failure := by
  have fits := h.phase
  unfold PhaseFits at fits
  rw [phase] at fits
  obtain ⟨more, position, outcome⟩ := fits
  refine ⟨w.next.toNat, h.low, more, ?_, outcome, h.clean⟩
  rw [UInt64.ofNat_toNat]
  exact position

/-! ### Ends of a worker -/

theorem phaseAt_ne {t : Task} {index : Nat} {ending : Ending} (h : ending ≠ .scanned) :
    phaseAt t index ≠ .ended ending := by
  unfold phaseAt
  split
  · exact nofun
  · exact fun same => h (by cases same; rfl)

/-- What the step of a worker adds: an end without all keys leaves its reason on the site, and only
a recorded failure fills the cell. -/
theorem Stepped.coherent {job : Job σ} {w : Worker} {number : Nat} {site : Site σ}
    {after : Worker × Site σ} (h : Stepped job w number site after) :
    (∀ failure, after.1.phase = .ended (.failed failure) → after.2.failure.isSome = true) ∧
      (after.1.phase = .ended .brokeOff → after.2.stops = true) ∧
      (∀ failure, after.2.failure = some failure →
        site.failure = some failure ∨ after.1.phase = .ended (.failed failure)) := by
  cases h with
  | brokeOff _ stops => exact ⟨nofun, fun _ => stops, fun _ found => .inl found⟩
  | cleared _ _ => exact ⟨nofun, nofun, fun _ found => .inl found⟩
  | refused _ _ _ => exact ⟨nofun, nofun, fun _ found => .inl found⟩
  | examined _ _ _ _ =>
    refine ⟨fun failure same => ?_, fun same => ?_, fun _ found => .inl found⟩
    · exact absurd same (phaseAt_ne (by simp))
    · exact absurd same (phaseAt_ne (by simp))
  | @recorded failure phase =>
    refine ⟨fun _ _ => rfl, nofun, fun other found => ?_⟩
    cases before : site.failure with
    | none =>
      rw [Site.record, before] at found
      cases found
      exact .inr rfl
    | some first =>
      rw [Site.record, before] at found
      exact .inl found

end Worker

/-! ### Workers and their site -/

namespace Iteration

/-- What holds between the workers for some tasks and the cell and flag of their site. -/
structure Coherent (tasks : List Task) (it : Iteration σ) : Prop where
  tasks : it.workers.map Worker.task = tasks
  cell : ∀ failure, it.site.failure = some failure →
    ∃ w ∈ it.workers, w.phase = .ended (.failed failure)
  failed : ∀ w ∈ it.workers, ∀ failure, w.phase = .ended (.failed failure) →
    it.site.failure.isSome = true
  brokeOff : ∀ w ∈ it.workers, w.phase = .ended .brokeOff → it.site.stops = true

theorem coherent_ofTasks (tasks : List Task) {site : Site σ} (empty : site.failure = none) :
    (ofTasks tasks site).Coherent tasks where
  tasks := by
    rw [ofTasks, List.map_map]
    exact List.map_id _
  cell failure found := by
    rw [ofTasks, Site.note, empty] at found
    cases found
  failed w mem failure phase := by
    obtain ⟨t, -, rfl⟩ := List.mem_map.1 mem
    exact absurd phase (Worker.phaseAt_ne (by simp))
  brokeOff w mem phase := by
    obtain ⟨t, -, rfl⟩ := List.mem_map.1 mem
    exact absurd phase (Worker.phaseAt_ne (by simp))

/-- A worker at its end is not the one that takes a step. -/
theorem mem_set_of_ended {workers : List Worker} {number : Nat} {w v v' : Worker} {ending : Ending}
    (mem : w ∈ workers) (phase : w.phase = .ended ending) (found : workers[number]? = some v)
    (running : v.isRunning = true) : w ∈ workers.set number v' := by
  obtain ⟨place, bound, rfl⟩ := List.getElem_of_mem mem
  have apart : number ≠ place := by
    rintro rfl
    rw [List.getElem?_eq_getElem bound, Option.some.injEq] at found
    rw [← found, Worker.isRunning, phase] at running
    cases running
  refine List.mem_of_getElem? (i := place) ?_
  rw [List.getElem?_set_ne apart, List.getElem?_eq_getElem bound]

theorem coherent_act {tasks : List Task} {it : Iteration σ} (h : it.Coherent tasks) (job : Job σ)
    (move : Move) {number : Nat} {w : Worker} (found : it.workers[number]? = some w)
    (running : w.isRunning = true) : (it.act job move number).Coherent tasks := by
  obtain ⟨during, since⟩ := since_act job move found running
  rw [act_of_getElem? job move found] at since ⊢
  have stepped := Worker.stepped_step job number (it.site.tick move) running
  obtain ⟨failed, brokeOff, cell⟩ := stepped.coherent
  refine ⟨?_, fun failure filled => ?_, fun v mem failure phase => ?_, fun v mem phase => ?_⟩
  · rw [← h.tasks, List.map_set, stepped.task_eq]
    obtain ⟨bound, rfl⟩ := List.getElem?_eq_some_iff.1 found
    rw [← List.getElem_map Worker.task, List.set_getElem_self]
    rwa [List.length_map]
  · rcases cell failure filled with before | phase
    · rw [Site.failure_tick] at before
      obtain ⟨v, mem, phase⟩ := h.cell failure before
      exact ⟨v, mem_set_of_ended mem phase found running, phase⟩
    · obtain ⟨bound, -⟩ := List.getElem?_eq_some_iff.1 found
      exact ⟨_, List.mem_set bound _, phase⟩
  · rcases List.mem_or_eq_of_mem_set mem with old | rfl
    · exact since.failure_of (h.failed v old failure phase)
    · exact failed failure phase
  · rcases List.mem_or_eq_of_mem_set mem with old | rfl
    · exact since.stops_of (h.brokeOff v old phase)
    · exact brokeOff phase

/-- Behind the last step every worker is at its end. -/
theorem Stopped.exists_ending {it : Iteration σ} (h : it.Stopped) {w : Worker}
    (mem : w ∈ it.workers) : ∃ ending, w.phase = .ended ending := by
  have idle := h w mem
  unfold Worker.isRunning at idle
  split at idle
  · exact ⟨_, ‹_›⟩
  · cases idle

/-- Without a reason to stop behind the last step, every worker is through with its task. -/
theorem Coherent.scanned {tasks : List Task} {it : Iteration σ} (h : it.Coherent tasks)
    (stopped : it.Stopped) (down : it.site.stops = false) {w : Worker} (mem : w ∈ it.workers) :
    w.phase = .ended .scanned := by
  rw [Site.stops, Bool.or_eq_false_iff] at down
  obtain ⟨ending, phase⟩ := stopped.exists_ending mem
  cases ending with
  | scanned => exact phase
  | brokeOff =>
    have := h.brokeOff w mem phase
    rw [Site.stops, down.1, down.2] at this
    cases this
  | failed failure =>
    have := h.failed w mem failure phase
    rw [down.1] at this
    cases this

/-- The join adds nothing but a cancellation from outside. -/
theorem Coherent.join {tasks : List Task} {it : Iteration σ} (h : it.Coherent tasks)
    (schedule : Schedule) : (it.join schedule).Coherent tasks := by
  have ticked := it.site.since_tick (schedule it.site.clock)
  refine ⟨h.tasks, fun failure found => ?_, ?_, ?_⟩
  · exact h.cell failure (by rwa [Iteration.join, Site.failure_tick] at found)
  · exact fun w mem failure phase => ticked.failure_of (h.failed w mem failure phase)
  · exact fun w mem phase => ticked.stops_of (h.brokeOff w mem phase)

theorem coherent_run (job : Job σ) (schedule : Schedule) (tasks : List Task) {site : Site σ}
    (empty : site.failure = none) : (run job schedule tasks site).Coherent tasks :=
  (settle_induction job schedule
    (fun _ move _ _ h found running => coherent_act h job move found running)
    (coherent_ofTasks tasks empty)).join schedule

/-- All workers follow the oracle, in a world where the services still do. -/
structure Follows (o : Oracle) (inv : σ → Prop) (it : Iteration σ) : Prop where
  workers : ∀ w ∈ it.workers, w.Follows o
  world : inv it.site.world

theorem follows_ofTasks (o : Oracle) {inv : σ → Prop} (tasks : List Task) {site : Site σ}
    (world : inv site.world) : (ofTasks tasks site).Follows o inv where
  workers w mem := by
    obtain ⟨t, -, rfl⟩ := List.mem_map.1 mem
    exact Worker.follows_ofTask o t
  world := world

theorem follows_act {o : Oracle} {inv : σ → Prop} {job : Job σ} (behaves : job.Behaves inv o)
    {it : Iteration σ} (h : it.Follows o inv) (move : Move) {number : Nat} {w : Worker}
    (found : it.workers[number]? = some w) (running : w.isRunning = true) :
    (it.act job move number).Follows o inv := by
  rw [act_of_getElem? job move found]
  have world : inv (it.site.tick move).world := by rw [Site.world_tick]; exact h.world
  obtain ⟨follows, world'⟩ := (Worker.stepped_step job number _ running).follows behaves
    (h.workers w (List.mem_of_getElem? found)) world
  refine ⟨fun v mem => ?_, world'⟩
  rcases List.mem_or_eq_of_mem_set mem with old | rfl
  · exact h.workers v old
  · exact follows

/-! ### The join -/

theorem outcome_eq_ok_iff {it : Iteration σ} {keys : List Key} :
    it.outcome = .ok keys ↔
      it.site.stops = false ∧ it.workers.flatMap Worker.keys = keys := by
  unfold outcome Site.stops
  cases it.site.failure with
  | some failure => simp
  | none => cases it.site.cancelled <;> simp

theorem outcome_eq_derivation_iff {it : Iteration σ} {failure : Failure} :
    it.outcome = .error (.derivation failure) ↔ it.site.failure = some failure := by
  unfold outcome
  cases it.site.failure with
  | some found => simp
  | none => cases it.site.cancelled <;> simp

theorem outcome_eq_cancelled_iff {it : Iteration σ} :
    it.outcome = .error .cancelled ↔ it.site.failure = none ∧ it.site.cancelled = true := by
  unfold outcome
  cases it.site.failure with
  | some failure => simp
  | none => cases it.site.cancelled <;> simp

theorem error_of_outcome {it : Iteration σ} {error : Error} (h : it.outcome = .error error) :
    error = .cancelled ∨ ∃ failure, error = .derivation failure := by
  unfold outcome at h
  split at h
  · cases h
    exact .inr ⟨_, rfl⟩
  · split at h
    · cases h
      exact .inl rfl
    · cases h

/-- An iteration behind the join: all workers are at their ends, and nothing has been lost on the
way there. -/
structure Joined (o : Oracle) (inv : σ → Prop) (tasks : List Task) (before : Site σ)
    (it : Iteration σ) : Prop where
  coherent : it.Coherent tasks
  follows : it.Follows o inv
  stopped : it.Stopped
  since : ∃ during, before.Since during it.site

theorem joined_run {o : Oracle} {inv : σ → Prop} {job : Job σ} (behaves : job.Behaves inv o)
    (schedule : Schedule) (tasks : List Task) {site : Site σ} (empty : site.failure = none)
    (world : inv site.world) : (run job schedule tasks site).Joined o inv tasks site := by
  have follows := settle_induction job schedule (motive := fun it => it.Follows o inv)
    (fun _ move _ _ h found running => follows_act behaves h move found running)
    (follows_ofTasks o tasks world)
  refine ⟨coherent_run job schedule tasks empty, ⟨follows.workers, ?_⟩,
    stopped_settle (ofTasks tasks site) job schedule, since_run job schedule tasks site⟩
  rw [run, join, Site.world_tick]
  exact follows.world

namespace Joined

variable {o : Oracle} {inv : σ → Prop} {tasks : List Task} {before : Site σ} {it : Iteration σ}

/-- Without a reason to stop at the join, every worker is through with its task. -/
theorem scanned (h : it.Joined o inv tasks before) (down : it.site.stops = false) {w : Worker}
    (mem : w ∈ it.workers) : w.phase = .ended .scanned :=
  h.coherent.scanned h.stopped down mem

/-- Without a reason to stop at the join, the keys of the workers are the hits of the tasks. -/
theorem flatMap_keys (h : it.Joined o inv tasks before) (down : it.site.stops = false) :
    it.workers.flatMap Worker.keys = tasks.flatMap o.hitsOf := by
  rw [← h.coherent.tasks, List.flatMap_map, List.flatMap_def, List.flatMap_def]
  exact congrArg List.flatten (List.map_congr_left fun w mem =>
    ((h.follows.workers w mem).scanned (h.scanned down mem)).1)

theorem firstFailure (h : it.Joined o inv tasks before) {failure : Failure}
    (filled : it.site.failure = some failure) : ∃ t ∈ tasks, o.FirstFailure t failure := by
  obtain ⟨w, mem, phase⟩ := h.coherent.cell failure filled
  refine ⟨w.task, ?_, (h.follows.workers w mem).firstFailure phase⟩
  rw [← h.coherent.tasks]
  exact List.mem_map_of_mem mem

/-- Without a reason to stop at the join, no candidate of any task fails. -/
theorem clean (h : it.Joined o inv tasks before) (down : it.site.stops = false) {t : Task}
    (mem : t ∈ tasks) {index : Nat} (low : t.start.toNat ≤ index) (high : index < t.stop.toNat) :
    o.failsAt t.accountOnly index = false := by
  rw [← h.coherent.tasks] at mem
  obtain ⟨w, found, rfl⟩ := List.mem_map.1 mem
  exact ((h.follows.workers w found).scanned (h.scanned down found)).2 index low high

end Joined

/-- The runs of an iteration are exactly the interleavings of its workers' steps, and in each of
them: there are keys only if every worker is through with its task, and then they are all hits of
the batch in the order of their indices; it fails exactly if a failure is recorded, and with the
first failure of some task; it counts as cancelled exactly if the flag was raised and nothing
recorded; and a worker that broke off leaves no keys of anybody. -/
theorem outcome_run_of_every_schedule {job : Job σ} {inv : σ → Prop}
    {derive : Seed → Position → Derivation.Outcome} {actual projected : Key → UInt32 → UInt32}
    (d : job.deriver.Behaves inv derive) (e : job.evaluator.assigner.Behaves inv actual projected)
    {a : Allocator} {index : UInt64} {batch : Batch} (handed : a.nextBatch index = .ok batch)
    {site : Site σ} (empty : site.failure = none) (world : inv site.world) :
    (∀ it, (∃ schedule, it = run job schedule batch.tasks site) ↔
      ∃ last move, Interleaving job (ofTasks batch.tasks site) last ∧ last.Stopped ∧
        it = ⟨last.workers, last.site.tick move⟩) ∧
    ∀ (o : Oracle) (schedule : Schedule) (it : Iteration σ),
      o = .ofFunctions derive actual projected job.evaluator.constraints job.seed →
      it = run job schedule batch.tasks site →
      it.Stopped ∧ ∃ during, it.site.history = during ++ site.history ∧
        (∀ keys, it.outcome = .ok keys → (∀ w ∈ it.workers, w.phase = .ended .scanned) ∧
          keys = o.hits a.accountOnly index.toNat a.batchSize) ∧
        ((∃ keys, it.outcome = .ok keys) ↔
          (∀ action ∈ during, action.records = false) ∧ site.cancelled = false ∧
            ∀ action ∈ during, action.raises = false) ∧
        ((∃ failure, it.outcome = .error (.derivation failure)) ↔
          ∃ action ∈ during, action.records = true) ∧
        (∀ failure, it.outcome = .error (.derivation failure) →
          ∃ t ∈ batch.tasks, o.FirstFailure t failure) ∧
        (it.outcome = .error .cancelled ↔
          (∀ action ∈ during, action.records = false) ∧
            (site.cancelled = true ∨ ∃ action ∈ during, action.raises = true)) ∧
        (∀ w ∈ it.workers, w.phase = .ended .brokeOff → ∀ keys, it.outcome ≠ .ok keys) := by
  refine ⟨fun it => exists_run_eq_iff, ?_⟩
  rintro o schedule it rfl rfl
  have joined := joined_run (Job.behaves d e) schedule batch.tasks empty world
  obtain ⟨during, since⟩ := joined.since
  have records := since.failure
  rw [empty, Option.isSome_none, Bool.false_or] at records
  refine ⟨joined.stopped, during, since.history, fun keys outcome => ?_, ?_, ?_,
    fun failure outcome => joined.firstFailure (outcome_eq_derivation_iff.1 outcome), ?_,
    fun w mem phase keys outcome => ?_⟩
  · obtain ⟨down, rfl⟩ := outcome_eq_ok_iff.1 outcome
    refine ⟨fun w mem => joined.scanned down mem, ?_⟩
    rw [joined.flatMap_keys down, (Allocator.tiles_of_nextBatch handed).flatMap_hitsOf,
      (Allocator.nextBatch_eq_ok_iff.1 handed).2, Nat.add_sub_cancel_left]
  · simp only [outcome_eq_ok_iff, exists_and_left, exists_eq', and_true, Site.stops,
      Bool.or_eq_false_iff, records, since.cancelled, List.any_eq_false, Bool.not_eq_true]
  · simp only [outcome_eq_derivation_iff, ← Option.isSome_iff_exists, records, List.any_eq_true]
  · rw [outcome_eq_cancelled_iff, ← Option.isNone_iff_eq_none, ← Option.isSome_eq_false_iff,
      records, since.cancelled, Bool.or_eq_true]
    simp only [List.any_eq_false, List.any_eq_true, Bool.not_eq_true]
  · have down := (outcome_eq_ok_iff.1 outcome).1
    have scanned := joined.scanned down mem
    rw [phase] at scanned
    cases scanned

/-- Stub keys, of which those with an even sum of indices are wanted. -/
def evenStubs : Job Unit where
  seed := ⟨[]⟩
  deriver := Rehearsal.stub 0 false
  evaluator := ⟨⟨2, by decide, some ⟨0, by decide⟩, none⟩, Rehearsal.byRemainder⟩

def evenOracle : Oracle :=
  .ofFunctions (fun _ position => .ok (Rehearsal.stubKey (Rehearsal.moved 0 false position)))
    (fun key numShards => (Rehearsal.indexSum key % numShards.toUInt64).toUInt32)
    (fun key numShards => (Rehearsal.indexSum key % numShards.toUInt64).toUInt32)
    evenStubs.evaluator.constraints evenStubs.seed

/-- Two workers, whose tasks are the addresses 4, 5 and 6, 7. -/
theorem outcome_run_of_every_schedule_evenStubs :
    ∃ (a : Allocator) (batch : Batch) (it : Iteration Unit), a.nextBatch 4 = .ok batch ∧
      it = run evenStubs (.roundRobin 2) batch.tasks (.start () false) ∧
      it.outcome = .ok [Rehearsal.stubKey ⟨0, 4⟩, Rehearsal.stubKey ⟨0, 6⟩] ∧
      (∀ w ∈ it.workers, w.phase = .ended .scanned) ∧
      evenOracle.hits a.accountOnly 4 a.batchSize =
        [Rehearsal.stubKey ⟨0, 4⟩, Rehearsal.stubKey ⟨0, 6⟩] := by
  let a : Allocator := ⟨2, 2, false, by decide, by decide⟩
  have handed : a.nextBatch 4 = .ok ⟨[⟨4, 6, false⟩, ⟨6, 8, false⟩], 8⟩ := rfl
  have d : evenStubs.deriver.Behaves (fun _ => True) _ := Derivation.Deriver.behaves_ofFn _
  have e : evenStubs.evaluator.assigner.Behaves (fun _ => True) _ _ :=
    Shard.Assigner.behaves_ofFn _ _
  have empty : (Site.start () false).failure = none := rfl
  have outcome : (run evenStubs (.roundRobin 2) [⟨4, 6, false⟩, ⟨6, 8, false⟩]
      (.start () false)).outcome =
    .ok [Rehearsal.stubKey ⟨0, 4⟩, Rehearsal.stubKey ⟨0, 6⟩] := by cbv
  obtain ⟨-, always⟩ := outcome_run_of_every_schedule d e handed empty trivial
  obtain ⟨-, during, -, found, -⟩ := always evenOracle (.roundRobin 2) _ rfl rfl
  obtain ⟨scanned, hits⟩ := found _ outcome
  exact ⟨a, _, _, handed, rfl, outcome, scanned, hits.symm⟩

end Iteration

end KeySearch.Search
