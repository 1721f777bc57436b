import KeySearch.Search.Iteration

/-! Single steps, and what becomes of a site over many of them. `Site.Since` compares a site with an
earlier one: the history has grown, the flag is up only where it was up before or something has
raised it, and the cell is filled only where it was or a worker has recorded a failure. `Stepped`
lists everything that one step of a worker can do. Whatever holds at first and survives each step
of a running worker holds when the workers have settled. The schedules are all the ways to get
there: an interleaving, in which any running worker may take the next step and anybody may cancel
before it, that has come to its end is what some schedule settles to, and the other way round. -/

namespace KeySearch.Search

variable {σ : Type}

/-! ### Sites over time -/

/-- The flag is raised. -/
def Action.raises : Action → Bool
  | .cancelled => true
  | .derived _ _ _ cancels => cancels
  | _ => false

/-- A failure goes into the cell, or finds it taken. -/
def Action.records : Action → Bool
  | .recorded .. => true
  | _ => false

/-- A step before a batch: the search is cancelled from outside, or the coordinator looks whether it
is. -/
def Action.isSilent : Action → Bool
  | .cancelled | .looked _ => true
  | _ => false

/-- The second site is the first one some actions later, given the latest first. -/
structure Site.Since (before : Site σ) (during : List Action) (after : Site σ) : Prop where
  history : after.history = during ++ before.history
  cancelled : after.cancelled = (before.cancelled || during.any Action.raises)
  failure : after.failure.isSome = (before.failure.isSome || during.any Action.records)

namespace Site

theorem Since.refl (s : Site σ) : s.Since [] s := ⟨rfl, by simp, by simp⟩

theorem Since.trans {s t u : Site σ} {first second : List Action} (h : s.Since first t)
    (h' : t.Since second u) : s.Since (second ++ first) u where
  history := by rw [h'.history, h.history, List.append_assoc]
  cancelled := by
    rw [h'.cancelled, h.cancelled, List.any_append, Bool.or_assoc, Bool.or_comm (first.any _)]
  failure := by
    rw [h'.failure, h.failure, List.any_append, Bool.or_assoc, Bool.or_comm (first.any _)]

theorem Since.cancelled_of {s t : Site σ} {during : List Action} (h : s.Since during t)
    (up : s.cancelled = true) : t.cancelled = true := by
  rw [h.cancelled, up, Bool.true_or]

theorem Since.failure_of {s t : Site σ} {during : List Action} (h : s.Since during t)
    (filled : s.failure.isSome = true) : t.failure.isSome = true := by
  rw [h.failure, filled, Bool.true_or]

/-- A reason to stop does not go away. -/
theorem Since.stops_of {s t : Site σ} {during : List Action} (h : s.Since during t)
    (stops : s.stops = true) : t.stops = true := by
  rw [Site.stops, Bool.or_eq_true] at stops ⊢
  exact stops.imp h.failure_of h.cancelled_of

theorem failure_eq_none {s : Site σ} (down : s.stops = false) : s.failure = none := by
  rw [stops, Bool.or_eq_false_iff, Option.isSome_eq_false_iff, Option.isNone_iff_eq_none] at down
  exact down.1

theorem since_tick (s : Site σ) (move : Move) :
    s.Since (if move.cancels then [.cancelled] else []) (s.tick move) := by
  unfold tick
  cases move.cancels with
  | false => exact ⟨rfl, by simp, by simp⟩
  | true => exact ⟨rfl, by simp [Action.raises], by simp [Action.records]⟩

theorem exists_since_tick (s : Site σ) (move : Move) :
    ∃ silent : List Action, (∀ action ∈ silent, action.isSilent = true) ∧
      s.Since silent (s.tick move) := by
  refine ⟨_, ?_, s.since_tick move⟩
  split <;> simp [Action.isSilent]

theorem since_note (s : Site σ) {action : Action} (raises : action.raises = false)
    (records : action.records = false) : s.Since [action] (s.note action) :=
  ⟨rfl, by simp [note, raises], by simp [note, records]⟩

theorem since_record (s : Site σ) (number : Nat) (failure : Failure) :
    s.Since [.recorded number s.failure.isNone] (s.record number failure) :=
  ⟨rfl, by simp [record, Action.raises], by simp [record, Action.records]⟩

@[simp] theorem failure_tick (s : Site σ) (move : Move) : (s.tick move).failure = s.failure := by
  unfold tick
  split <;> rfl

@[simp] theorem world_tick (s : Site σ) (move : Move) : (s.tick move).world = s.world := by
  unfold tick
  split <;> rfl

theorem cancelled_tick (s : Site σ) {move : Move} (h : move.cancels = false) :
    (s.tick move).cancelled = s.cancelled := by
  rw [tick, h]
  rfl

@[simp] theorem clock_tick (s : Site σ) (move : Move) : (s.tick move).clock = s.clock + 1 := by
  unfold tick
  split <;> rfl

end Site

/-- Nobody outside cancels. -/
def Schedule.IsQuiet (schedule : Schedule) : Prop := ∀ step, (schedule step).cancels = false

theorem Schedule.isQuiet_roundRobin (workers : Nat) : (roundRobin workers).IsQuiet := fun _ => rfl

/-- No call cancels. -/
def Job.IsQuiet (job : Job σ) : Prop :=
  ∀ position world, (job.deriver.derive job.seed position world).1.cancels = false

/-! ### Steps of a worker -/

/-- What one step makes of a running worker and its site. -/
inductive Worker.Stepped (job : Job σ) (w : Worker) (number : Nat) (site : Site σ) :
    Worker × Site σ → Prop
  | brokeOff (phase : w.phase = .polling) (stops : site.stops = true) :
    Stepped job w number site
      ({ w with phase := .ended .brokeOff }, site.note (.polled number true))
  | cleared (phase : w.phase = .polling) (stops : site.stops = false) :
    Stepped job w number site ({ w with phase := .cleared }, site.note (.polled number false))
  | refused {reply : Derivation.Reply} {cause : Derivation.Error} {world : σ}
    (phase : w.phase = .cleared)
    (call : job.deriver.derive job.seed (w.task.position w.next) site.world = (reply, world))
    (outcome : reply.outcome = .error cause) :
    Stepped job w number site
      ({ w with phase := .failing ⟨w.task.position w.next, cause⟩ },
        { site with
          world
          cancelled := site.cancelled || reply.cancels
          history :=
            .derived number (w.task.position w.next) false reply.cancels :: site.history })
  | examined {reply : Derivation.Reply} {key : Key} {accepted : Bool} {world world' : σ}
    (phase : w.phase = .cleared)
    (call : job.deriver.derive job.seed (w.task.position w.next) site.world = (reply, world))
    (outcome : reply.outcome = .ok key)
    (judged : job.evaluator.satisfies key world = (accepted, world')) :
    Stepped job w number site
      ({ w with
          next := w.next + 1
          kept := if accepted then key :: w.kept else w.kept
          phase := phaseAt w.task (w.next.toNat + 1) },
        { site with
          world := world'
          cancelled := site.cancelled || reply.cancels
          history := .derived number (w.task.position w.next) true reply.cancels :: site.history })
  | recorded {failure : Failure} (phase : w.phase = .failing failure) :
    Stepped job w number site
      ({ w with phase := .ended (.failed failure) }, site.record number failure)

namespace Worker

theorem stepped_step {w : Worker} (job : Job σ) (number : Nat) (site : Site σ)
    (running : w.isRunning = true) : Stepped job w number site (w.step job number site) := by
  unfold step
  split
  · rename_i phase
    unfold poll
    cases stops : site.stops with
    | true => exact .brokeOff phase stops
    | false => exact .cleared phase stops
  · rename_i phase
    rcases call : job.deriver.derive job.seed (w.task.position w.next) site.world with
      ⟨reply, world⟩
    cases outcome : reply.outcome with
    | error cause =>
      simp only [examine, call, outcome]
      exact .refused phase call outcome
    | ok key =>
      rcases judged : job.evaluator.satisfies key world with ⟨accepted, world'⟩
      simp only [examine, call, outcome, judged]
      exact .examined phase call outcome judged
  · rename_i phase
    exact .recorded phase
  · rename_i phase
    simp [isRunning, phase] at running

theorem Stepped.task_eq {job : Job σ} {w : Worker} {number : Nat} {site : Site σ}
    {after : Worker × Site σ} (h : Stepped job w number site after) : after.1.task = w.task := by
  cases h <;> rfl

/-- With calls that do not cancel, a worker leaves the flag as it is. -/
theorem Stepped.cancelled_eq {job : Job σ} (calls : job.IsQuiet) {w : Worker} {number : Nat}
    {site : Site σ} {after : Worker × Site σ} (h : Stepped job w number site after) :
    after.2.cancelled = site.cancelled := by
  cases h with
  | brokeOff | cleared | recorded => rfl
  | @refused reply cause world phase call | @examined reply key accepted world world' phase call =>
    have silent := calls (w.task.position w.next) site.world
    rw [call] at silent
    exact (congrArg (site.cancelled || ·) silent).trans (Bool.or_false _)

theorem Stepped.clock_eq {job : Job σ} {w : Worker} {number : Nat} {site : Site σ}
    {after : Worker × Site σ} (h : Stepped job w number site after) :
    after.2.clock = site.clock := by
  cases h <;> rfl

theorem Stepped.since {job : Job σ} {w : Worker} {number : Nat} {site : Site σ}
    {after : Worker × Site σ} (h : Stepped job w number site after) :
    ∃ during, site.Since during after.2 := by
  cases h with
  | brokeOff _ _ | cleared _ _ => exact ⟨_, site.since_note rfl rfl⟩
  | refused _ _ _ | examined _ _ _ _ =>
    exact ⟨[_], rfl, by simp [Action.raises], by simp [Action.records]⟩
  | recorded _ => exact ⟨_, site.since_record number _⟩

end Worker

/-! ### Steps of an iteration -/

namespace Iteration

theorem act_of_getElem? {it : Iteration σ} (job : Job σ) (move : Move) {number : Nat} {w : Worker}
    (found : it.workers[number]? = some w) :
    it.act job move number =
      ⟨it.workers.set number (w.step job number (it.site.tick move)).1,
        (w.step job number (it.site.tick move)).2⟩ := by
  simp only [act, found]

theorem clock_act {it : Iteration σ} (job : Job σ) (move : Move) {number : Nat} {w : Worker}
    (found : it.workers[number]? = some w) (running : w.isRunning = true) :
    (it.act job move number).site.clock = it.site.clock + 1 := by
  rw [act_of_getElem? job move found]
  exact (Worker.stepped_step job number _ running).clock_eq.trans (it.site.clock_tick move)

theorem since_act {it : Iteration σ} (job : Job σ) (move : Move) {number : Nat} {w : Worker}
    (found : it.workers[number]? = some w) (running : w.isRunning = true) :
    ∃ during, it.site.Since during (it.act job move number).site := by
  rw [act_of_getElem? job move found]
  obtain ⟨during, since⟩ := (Worker.stepped_step job number (it.site.tick move) running).since
  exact ⟨_, (it.site.since_tick move).trans since⟩

/-- All workers are at their ends. -/
def Stopped (it : Iteration σ) : Prop := ∀ w ∈ it.workers, w.isRunning = false

theorem turn_eq_none_iff {it : Iteration σ} {preferred : Nat} :
    turn it.workers preferred = none ↔ it.Stopped := by
  unfold turn Stopped
  constructor
  · intro h
    split at h
    · cases h
    · simpa [List.findIdx?_eq_none_iff] using h
  · intro h
    have idle : it.workers[preferred]?.any Worker.isRunning = false := by
      cases found : it.workers[preferred]? with
      | none => rfl
      | some w => exact h w (List.mem_of_getElem? found)
    rw [idle, if_neg Bool.false_ne_true, List.findIdx?_eq_none_iff]
    exact h

/-- What holds at first and survives every step holds when the workers have settled. -/
theorem settle_induction (job : Job σ) (schedule : Schedule) {motive : Iteration σ → Prop}
    (step : ∀ (it : Iteration σ) (move : Move) (number : Nat) (w : Worker), motive it →
      it.workers[number]? = some w → w.isRunning = true → motive (it.act job move number))
    {it : Iteration σ} (start : motive it) : motive (it.settle job schedule) := by
  fun_induction it.settle job schedule with
  | case1 it move h => exact start
  | case2 it move number h _ ih =>
    obtain ⟨w, found, running⟩ := running_of_turn h
    exact ih (step it move number w start found running)

theorem stopped_settle (it : Iteration σ) (job : Job σ) (schedule : Schedule) :
    (it.settle job schedule).Stopped := by
  fun_induction it.settle job schedule with
  | case1 it move h => exact turn_eq_none_iff.1 h
  | case2 it move number h _ ih => exact ih

theorem since_settle (it : Iteration σ) (job : Job σ) (schedule : Schedule) :
    ∃ during, it.site.Since during (it.settle job schedule).site := by
  refine settle_induction job schedule
    (motive := fun later => ∃ during, it.site.Since during later.site)
    (fun later move number w ⟨first, since⟩ found running => ?_) ⟨[], .refl _⟩
  obtain ⟨second, since'⟩ := since_act job move found running
  exact ⟨_, since.trans since'⟩

theorem since_run (job : Job σ) (schedule : Schedule) (tasks : List Task) (site : Site σ) :
    ∃ during, site.Since during (run job schedule tasks site).site := by
  have started : site.Since [.handedOut tasks] (ofTasks tasks site).site := site.since_note rfl rfl
  obtain ⟨during, settled⟩ := since_settle (ofTasks tasks site) job schedule
  exact ⟨_, (started.trans settled).trans (Site.since_tick _ _)⟩

/-- What holds of a site, and survives moves from outside, the hand-out of the batch and steps of
running workers, holds at the join. -/
theorem site_run_induction (job : Job σ) (schedule : Schedule) (tasks : List Task) (site : Site σ)
    {motive : Site σ → Prop} (start : motive site)
    (tick : ∀ s move, motive s → motive (s.tick move))
    (handedOut : ∀ s, motive s → motive (s.note (.handedOut tasks)))
    (step : ∀ s (w : Worker) number, motive s → w.isRunning = true →
      motive (w.step job number s).2) :
    motive (run job schedule tasks site).site := by
  have settled : motive ((ofTasks tasks site).settle job schedule).site :=
    settle_induction job schedule (motive := fun it => motive it.site)
      (fun it move number w holds found running => by
        rw [act_of_getElem? job move found]
        exact step _ w number (tick _ move holds) running)
      (handedOut site start)
  exact tick _ _ settled

/-! ### Steps without cancellation -/

theorem cancelled_settle {job : Job σ} (calls : job.IsQuiet) {schedule : Schedule}
    (quiet : schedule.IsQuiet) (it : Iteration σ) :
    (it.settle job schedule).site.cancelled = it.site.cancelled := by
  fun_induction it.settle job schedule with
  | case1 it move h => rfl
  | case2 it move number h _ ih =>
    obtain ⟨w, found, running⟩ := running_of_turn h
    rw [ih, act_of_getElem? job move found,
      (Worker.stepped_step job number _ running).cancelled_eq calls,
      it.site.cancelled_tick (quiet it.site.clock)]

theorem cancelled_run {job : Job σ} (calls : job.IsQuiet) {schedule : Schedule}
    (quiet : schedule.IsQuiet) (tasks : List Task) (site : Site σ) :
    (run job schedule tasks site).site.cancelled = site.cancelled := by
  rw [run, join, Site.cancelled_tick _ (quiet _), cancelled_settle calls quiet]
  rfl

/-! ### Interleavings -/

/-- Running workers take steps in any order, and before each the search may be cancelled. -/
inductive Interleaving (job : Job σ) : Iteration σ → Iteration σ → Prop
  | refl (it : Iteration σ) : Interleaving job it it
  | step {it last : Iteration σ} {number : Nat} {w : Worker} (cancels : Bool)
    (found : it.workers[number]? = some w) (running : w.isRunning = true)
    (rest : Interleaving job (it.act job ⟨cancels, number⟩ number) last) :
    Interleaving job it last

theorem interleaving_settle (it : Iteration σ) (job : Job σ) (schedule : Schedule) :
    Interleaving job it (it.settle job schedule) := by
  fun_induction it.settle job schedule with
  | case1 it move h => exact .refl it
  | case2 it move number h _ ih =>
    obtain ⟨w, found, running⟩ := running_of_turn h
    exact .step move.cancels found running ih

/-- The moves before the clock have no part in what comes. -/
theorem settle_congr {it : Iteration σ} {job : Job σ} {schedule schedule' : Schedule}
    (h : ∀ time, it.site.clock ≤ time → schedule time = schedule' time) :
    it.settle job schedule = it.settle job schedule' := by
  fun_induction it.settle job schedule with
  | case1 it move none =>
    rw [settle_of_turn_eq_none]
    rwa [← h _ (Nat.le_refl _)]
  | case2 it move number next _ ih =>
    obtain ⟨w, found, running⟩ := running_of_turn next
    have same := h _ (Nat.le_refl _)
    have next' : turn it.workers (schedule' it.site.clock).worker = some number := by rwa [← same]
    rw [settle_of_turn_eq_some next', ← same]
    refine ih fun time late => h time ?_
    rw [clock_act job move found running] at late
    omega

theorem Interleaving.clock_le {job : Job σ} {it last : Iteration σ}
    (h : Interleaving job it last) : it.site.clock ≤ last.site.clock := by
  induction h with
  | refl it => exact Nat.le_refl _
  | step cancels found running _ ih =>
    rw [clock_act job _ found running] at ih
    exact Nat.le_of_succ_le ih

/-- Every interleaving that has come to its end, with any move for the join, is the work of some
schedule. -/
theorem exists_settle_eq {job : Job σ} {it last : Iteration σ} (h : Interleaving job it last)
    (stopped : last.Stopped) (move : Move) :
    ∃ schedule, it.settle job schedule = last ∧ schedule last.site.clock = move := by
  induction h with
  | refl it => exact ⟨fun _ => move, settle_of_turn_eq_none (turn_eq_none_iff.2 stopped), rfl⟩
  | @step it last number w cancels found running rest ih =>
    obtain ⟨schedule, settled, joins⟩ := ih stopped
    have clock := clock_act job ⟨cancels, number⟩ found running
    have later := rest.clock_le
    let first : Schedule := fun time =>
      if time = it.site.clock then ⟨cancels, number⟩ else schedule time
    have now : first it.site.clock = ⟨cancels, number⟩ := if_pos rfl
    have turns : turn it.workers (first it.site.clock).worker = some number := by
      rw [now, turn, found, if_pos]
      simpa using running
    refine ⟨first, ?_, ?_⟩
    · rw [settle_of_turn_eq_some turns, now, ← settled]
      refine settle_congr fun time late => if_neg ?_
      omega
    · rw [← joins]
      refine if_neg ?_
      omega

/-- The schedules leave out no order of steps and no moment of cancellation, and add none. -/
theorem exists_run_eq_iff {job : Job σ} {tasks : List Task} {site : Site σ} {it : Iteration σ} :
    (∃ schedule, it = run job schedule tasks site) ↔
      ∃ last move, Interleaving job (ofTasks tasks site) last ∧ last.Stopped ∧
        it = ⟨last.workers, last.site.tick move⟩ := by
  constructor
  · rintro ⟨schedule, rfl⟩
    exact ⟨_, _, interleaving_settle (ofTasks tasks site) job schedule,
      stopped_settle (ofTasks tasks site) job schedule, rfl⟩
  · rintro ⟨last, move, steps, stopped, rfl⟩
    obtain ⟨schedule, settled, joins⟩ := exists_settle_eq steps stopped move
    exact ⟨schedule, by rw [run, settled, join, joins]⟩

end Iteration

end KeySearch.Search
