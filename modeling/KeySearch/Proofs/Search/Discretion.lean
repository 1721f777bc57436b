import KeySearch.Proofs.Search.AlikeWorlds
import KeySearch.Proofs.Search.BruteForce
import KeySearch.Proofs.Search.Verdicts

/-! What a search lets others notice of its keys. A call is noticed by whether the key is accepted
or why there is none, and by whether it cancels the search (`Notice`). Nothing else of what the
services answer has a part in the log, in the numbers or in the errors: two searches with the same
settings and the same schedule, whose seeds, services and worlds may differ, look alike step by step
and round by round but for the keys themselves (`Worker.view`), as long as their calls for a
candidate are noticed alike. This is only asked of the calls that were made, so each step looks back
on them and needs no more than what has been told by then (`Site.told`). -/

namespace KeySearch.Search

variable {σ τ : Type}

/-- Results that are the same when something is made of what they hold. -/
theorem exists_of_map_eq_map {ε α β γ : Type} {f : α → γ} {g : β → γ} {x : Except ε α}
    {y : Except ε β} (h : y.map g = x.map f) :
    (∃ error, x = .error error ∧ y = .error error) ∨ ∃ a b, x = .ok a ∧ y = .ok b ∧ g b = f a := by
  cases x with
  | error error =>
    cases y with
    | error error' => exact .inl ⟨error, rfl, congrArg Except.error (Except.error.inj h)⟩
    | ok b => cases h
  | ok a =>
    cases y with
    | error error' => cases h
    | ok b => exact .inr ⟨a, b, rfl, rfl, Except.ok.inj h⟩

/-! ### Notices -/

/-- What a call lets others notice: whether the key of the candidate is accepted, or why there is
none, and whether the call cancels the search. -/
structure Notice where
  position : Position
  outcome : Except Derivation.Error Bool
  cancels : Bool

/-- A candidate that both speak of is noticed alike. -/
def Agree (told told' : List Notice) : Prop :=
  ∀ notice ∈ told, ∀ notice' ∈ told', notice'.position = notice.position → notice' = notice

theorem Agree.mono {told told' part part' : List Notice} (h : Agree told told')
    (subset : part ⊆ told) (subset' : part' ⊆ told') : Agree part part' :=
  fun notice mem notice' mem' => h notice (subset mem) notice' (subset' mem')

namespace Job

/-- The notice of a call that is made in a world. -/
def notice (job : Job σ) (position : Position) (world : σ) : Notice :=
  let (reply, world) := job.deriver.derive job.seed position world
  { position
    outcome := reply.outcome.map fun key => (job.evaluator.satisfies key world).1
    cancels := reply.cancels }

/-- The notices of some calls, made one after the other from a world on. -/
def notices (job : Job σ) : (calls : List (Nat × Position)) → σ → List Notice
  | [], _ => []
  | (_, position) :: calls, world =>
    job.notice position world :: job.notices calls (job.judge position world).2

theorem notices_append (job : Job σ) (calls more : List (Nat × Position)) (world : σ) :
    job.notices (calls ++ more) world =
      job.notices calls world ++ job.notices more (job.worldBehind calls world) := by
  induction calls generalizing world with
  | nil => rfl
  | cons call calls ih => exact congrArg (_ :: ·) (ih _)

/-- What the calls in the history of a search that began in the given world let others notice. -/
def told (job : Job σ) (start : σ) (history : List Action) : List Notice :=
  job.notices (Action.calls history) start

/-- What has been told stays told. -/
theorem told_subset {job : Job σ} {start : σ} {part history : List Action}
    (first : part <+: history) : job.told start part ⊆ job.told start history := by
  obtain ⟨rest, rfl⟩ := first
  rw [told, told, Action.calls_append, notices_append]
  exact List.subset_append_left _ _

theorem exists_of_mem_notices {job : Job σ} {calls : List (Nat × Position)} {world : σ}
    {notice : Notice} (mem : notice ∈ job.notices calls world) :
    ∃ world', notice = job.notice notice.position world' := by
  induction calls generalizing world with
  | nil => cases mem
  | cons call calls ih =>
    rcases List.mem_cons.1 mem with rfl | later
    · exact ⟨world, rfl⟩
    · exact ih later

/-- Where a candidate is noticed alike in all worlds, it is so in any two searches. -/
theorem agree_told {job : Job σ} {job' : Job τ}
    (same : ∀ position world world', job'.notice position world' = job.notice position world)
    (start : σ) (start' : τ) (history history' : List Action) :
    Agree (job.told start history) (job'.told start' history') := by
  intro notice mem notice' mem' position
  obtain ⟨left, told⟩ := exists_of_mem_notices mem
  obtain ⟨left', told'⟩ := exists_of_mem_notices mem'
  rw [told', position, told]
  exact same _ _ _

end Job

/-! ### Looking back -/

namespace Site

/-- What has been told so far. -/
def told (s : Site σ) (job : Job σ) (start : σ) : List Notice := job.told start s.history.reverse

/-- The world is what the calls so far have made of the one in which the search began. -/
def Behind (s : Site σ) (job : Job σ) (start : σ) : Prop :=
  s.world = job.worldBehind (Action.calls s.history.reverse) start

variable {job : Job σ} {start : σ} {s t : Site σ}

theorem Since.told_subset {during : List Action} (h : s.Since during t) :
    s.told job start ⊆ t.told job start := by
  refine Job.told_subset ?_
  rw [h.history, List.reverse_append]
  exact List.prefix_append _ _

theorem calls_history_tick (s : Site σ) (move : Move) :
    Action.calls (s.tick move).history.reverse = Action.calls s.history.reverse := by
  rw [(s.since_tick move).history, List.reverse_append, Action.calls_append]
  split <;> exact List.append_nil _

theorem Behind.tick (h : s.Behind job start) (move : Move) : (s.tick move).Behind job start := by
  rw [Behind, calls_history_tick, world_tick]
  exact h

theorem calls_history_note (s : Site σ) {action : Action} (silent : action.call? = none) :
    Action.calls (s.note action).history.reverse = Action.calls s.history.reverse := by
  rw [note, List.reverse_cons, Action.calls_append_singleton, silent, Option.toList_none,
    List.append_nil]

/-- An action that is no call leaves the world behind the calls. -/
theorem Behind.note (h : s.Behind job start) {action : Action} (silent : action.call? = none) :
    (s.note action).Behind job start := by
  rw [Behind, s.calls_history_note silent]
  exact h

end Site

namespace Worker

variable {job : Job σ} {start : σ} {w : Worker} {site : Site σ}

theorem Stepped.behind {number : Nat} {after : Worker × Site σ}
    (h : Stepped job w number site after) (behind : site.Behind job start) :
    after.2.Behind job start := by
  obtain ⟨action, history, ⟨silent, -, same, -⟩ | ⟨position, called, -, later, -⟩⟩ :=
    h.exists_judged
  · rw [Site.Behind, history, List.reverse_cons, Action.calls_append_singleton, silent, same,
      Option.toList_none, List.append_nil]
    exact behind
  · rw [Site.Behind, history, List.reverse_cons, Action.calls_append_singleton, called, later,
      job.worldBehind_append, ← behind]
    rfl

/-- The call of a worker adds its notice. -/
theorem mem_told_step (number : Nat) (behind : site.Behind job start)
    (cleared : w.phase = .cleared) :
    job.notice (w.task.position w.next) site.world ∈ (w.step job number site).2.told job start := by
  have history : ∃ yields cancels, (w.step job number site).2.history =
      .derived number (w.task.position w.next) yields cancels :: site.history := by
    rw [step, cleared]
    simp only [examine]
    split <;> exact ⟨_, _, rfl⟩
  obtain ⟨yields, cancels, history⟩ := history
  rw [Site.told, Job.told, history, List.reverse_cons, Action.calls_append_singleton,
    job.notices_append, ← behind]
  exact List.mem_append_right _ (List.mem_singleton.2 rfl)

end Worker

/-! ### Workers that look alike -/

/-- A worker as others see it: not the keys that it has kept, but how many. -/
structure Worker.View where
  task : Task
  next : UInt64
  matched : Nat
  phase : Phase

namespace Worker

def view (w : Worker) : View := ⟨w.task, w.next, w.kept.length, w.phase⟩

def View.isRunning (v : View) : Bool :=
  match v.phase with
  | .ended _ => false
  | _ => true

theorem isRunning_view (w : Worker) : w.view.isRunning = w.isRunning := rfl

variable {w w' : Worker}

theorem reportOf_congr (h : w'.view = w.view) (number : Nat) :
    Iteration.reportOf w' number = Iteration.reportOf w number := by
  simp only [view, View.mk.injEq] at h
  obtain ⟨task, -, matched, phase⟩ := h
  simp only [Iteration.reportOf, task, matched, phase]

end Worker

/-! ### Sites that look alike -/

/-- The sites are the same but for the world of the services. -/
structure Site.LooksLike (s : Site σ) (s' : Site τ) : Prop where
  cancelled : s'.cancelled = s.cancelled
  failure : s'.failure = s.failure
  clock : s'.clock = s.clock
  history : s'.history = s.history

namespace Site.LooksLike

variable {s : Site σ} {s' : Site τ} (h : s.LooksLike s')

include h

theorem stops_eq : s'.stops = s.stops := by rw [stops, stops, h.failure, h.cancelled]

theorem note (action : Action) : (s.note action).LooksLike (s'.note action) :=
  ⟨h.cancelled, h.failure, h.clock, congrArg (action :: ·) h.history⟩

theorem tick (move : Move) : (s.tick move).LooksLike (s'.tick move) := by
  unfold Site.tick
  split
  · exact ⟨rfl, h.failure, congrArg (· + 1) h.clock, congrArg (.cancelled :: ·) h.history⟩
  · exact ⟨h.cancelled, h.failure, congrArg (· + 1) h.clock, h.history⟩

theorem record (worker : Nat) (failure : Failure) :
    (s.record worker failure).LooksLike (s'.record worker failure) where
  cancelled := h.cancelled
  failure := by simp only [Site.record, h.failure]
  clock := h.clock
  history := by simp only [Site.record, h.failure, h.history]

/-- The same call on both sites. -/
theorem derived (world : σ) (world' : τ) (cancels : Bool) (action : Action) :
    Site.LooksLike
      { s with world, cancelled := s.cancelled || cancels, history := action :: s.history }
      { s' with
        world := world'
        cancelled := s'.cancelled || cancels
        history := action :: s'.history } :=
  ⟨congrArg (· || cancels) h.cancelled, h.failure, h.clock, congrArg (action :: ·) h.history⟩

end Site.LooksLike

/-! ### Steps -/

/-- Workers that look alike, on sites that look alike, take the same step, if their calls for keys
are noticed alike. -/
theorem Worker.step_looksLike (job : Job σ) (job' : Job τ) {w w' : Worker} (number : Nat)
    {site : Site σ} {site' : Site τ} (view : w'.view = w.view) (h : site.LooksLike site')
    (same : w.phase = .cleared → job'.notice (w.task.position w.next) site'.world =
      job.notice (w.task.position w.next) site.world) :
    (w'.step job' number site').1.view = (w.step job number site).1.view ∧
      (w.step job number site).2.LooksLike (w'.step job' number site').2 := by
  obtain ⟨task, next, kept, phase⟩ := w
  obtain ⟨task', next', kept', phase'⟩ := w'
  simp only [Worker.view, View.mk.injEq] at view
  obtain ⟨rfl, rfl, matched, rfl⟩ := view
  cases phase' with
  | polling =>
    simp only [step, poll, h.stops_eq, Worker.view, matched, true_and]
    exact h.note _
  | failing failure =>
    simp only [step, Worker.view, matched, true_and]
    exact h.record number failure
  | ended ending =>
    simp only [step, Worker.view, matched, true_and]
    exact h
  | cleared =>
    replace same := same rfl
    rcases call : job.deriver.derive job.seed (task'.position next') site.world with ⟨reply, world⟩
    rcases call' : job'.deriver.derive job'.seed (task'.position next') site'.world with
      ⟨reply', world'⟩
    simp only [Job.notice, call, call', Notice.mk.injEq, true_and] at same
    obtain ⟨outcomes, cancels⟩ := same
    rcases exists_of_map_eq_map outcomes with
      ⟨cause, refused, refused'⟩ | ⟨key, key', yields, yields', accepted⟩
    · simp only [step, examine, call, call', refused, refused', cancels, Worker.view, matched,
        true_and]
      exact h.derived _ _ _ _
    · simp only [step, examine, call, call', yields, yields', cancels, Worker.view, accepted]
      refine ⟨?_, h.derived _ _ _ _⟩
      split <;> simp [matched]

/-! ### Iterations -/

namespace Iteration

/-- The workers and their sites look alike. -/
structure LooksLike (it : Iteration σ) (it' : Iteration τ) : Prop where
  workers : it'.workers.map Worker.view = it.workers.map Worker.view
  site : it.site.LooksLike it'.site

variable {job : Job σ} {job' : Job τ} {start : σ} {start' : τ} {it : Iteration σ}
  {it' : Iteration τ}

theorem looksLike_ofTasks {site : Site σ} {site' : Site τ} (h : site.LooksLike site')
    (tasks : List Task) : (ofTasks tasks site).LooksLike (ofTasks tasks site') :=
  ⟨rfl, h.note _⟩

theorem behind_act (behind : it.site.Behind job start) (move : Move) {number : Nat} {w : Worker}
    (found : it.workers[number]? = some w) (running : w.isRunning = true) :
    (it.act job move number).site.Behind job start := by
  rw [act_of_getElem? job move found]
  exact (Worker.stepped_step job number _ running).behind (behind.tick move)

theorem behind_ofTasks {site : Site σ} (behind : site.Behind job start) (tasks : List Task) :
    (ofTasks tasks site).site.Behind job start := behind.note rfl

theorem behind_run {site : Site σ} (behind : site.Behind job start) (schedule : Schedule)
    (tasks : List Task) : (run job schedule tasks site).site.Behind job start :=
  site_run_induction job schedule tasks site (motive := fun s => s.Behind job start) behind
    (fun _ move behind => behind.tick move) (fun _ behind => behind_ofTasks behind tasks)
    (fun s _ number behind running => (Worker.stepped_step job number s running).behind behind)

namespace LooksLike

variable (h : it.LooksLike it')

include h

theorem view_eq (number : Nat) :
    it'.workers[number]?.map Worker.view = it.workers[number]?.map Worker.view := by
  rw [← List.getElem?_map, ← List.getElem?_map, h.workers]

theorem exists_view_eq {number : Nat} {w : Worker} (found : it.workers[number]? = some w) :
    ∃ w', it'.workers[number]? = some w' ∧ w'.view = w.view := by
  have view := h.view_eq number
  rw [found, Option.map_some] at view
  exact Option.map_eq_some_iff.1 view

theorem turn_eq (preferred : Nat) : turn it'.workers preferred = turn it.workers preferred := by
  have first (workers : List Worker) :
      workers.findIdx? Worker.isRunning =
        (workers.map Worker.view).findIdx? Worker.View.isRunning := by
    rw [List.findIdx?_map]
    rfl
  have preferred' (workers : List Worker) :
      workers[preferred]?.any Worker.isRunning =
        (workers.map Worker.view)[preferred]?.any Worker.View.isRunning := by
    rw [List.getElem?_map]
    cases workers[preferred]? <;> rfl
  rw [turn, turn, preferred', preferred', first, first, h.workers]

/-- The same worker takes the same step. -/
theorem act (behind : it.site.Behind job start) (behind' : it'.site.Behind job' start')
    (move : Move) {number : Nat} {w : Worker} (found : it.workers[number]? = some w)
    (agree : Agree ((it.act job move number).site.told job start)
      ((it'.act job' move number).site.told job' start')) :
    (it.act job move number).LooksLike (it'.act job' move number) := by
  obtain ⟨w', found', view⟩ := h.exists_view_eq found
  rw [act_of_getElem? job move found, act_of_getElem? job' move found'] at agree ⊢
  have phase : w'.phase = w.phase := congrArg Worker.View.phase view
  have position : w'.task.position w'.next = w.task.position w.next :=
    congrArg (fun view => view.task.position view.next) view
  obtain ⟨views, sites⟩ := Worker.step_looksLike job job' number view
    (h.site.tick move) fun cleared => by
      -- Both notices are among those told behind the step, and they are for one candidate.
      have told := Worker.mem_told_step number (behind.tick move) cleared
      have told' := Worker.mem_told_step number (behind'.tick move) (phase.trans cleared)
      rw [position] at told'
      exact agree _ told _ told' rfl
  refine ⟨?_, sites⟩
  rw [List.map_set, List.map_set, views, h.workers]

theorem settle (behind : it.site.Behind job start) (behind' : it'.site.Behind job' start')
    (schedule : Schedule)
    (agree : Agree ((it.settle job schedule).site.told job start)
      ((it'.settle job' schedule).site.told job' start')) :
    (it.settle job schedule).LooksLike (it'.settle job' schedule) := by
  fun_induction it.settle job schedule generalizing it' with
  | case1 it move =>
    rename_i none
    rw [settle_of_turn_eq_none]
    · exact h
    · rw [h.turn_eq, h.site.clock]
      exact none
  | case2 it move number next =>
    rename_i ih
    obtain ⟨w, found, running⟩ := running_of_turn next
    obtain ⟨w', found', view⟩ := h.exists_view_eq found
    have running' : w'.isRunning = true := by
      rw [← w'.isRunning_view, view, w.isRunning_view, running]
    have clock : schedule it'.site.clock = move := congrArg schedule h.site.clock
    have next' : turn it'.workers (schedule it'.site.clock).worker = some number := by
      rw [h.turn_eq, clock, next]
    rw [settle_of_turn_eq_some next', clock] at agree ⊢
    -- What is told behind this step is still told behind the last one.
    obtain ⟨during, since⟩ := (it.act job move number).since_settle job schedule
    obtain ⟨during', since'⟩ := (it'.act job' move number).since_settle job' schedule
    exact ih (h.act behind behind' move found (agree.mono since.told_subset since'.told_subset))
      (behind_act behind move found running) (behind_act behind' move found' running') agree

theorem reports_eq : it'.reports = it.reports := by
  refine List.ext_getElem? fun number => ?_
  have view := h.view_eq number
  simp only [reports, List.getElem?_map, List.getElem?_zipIdx, Option.map_map]
  cases found : it.workers[number]? with
  | none =>
    rw [found, Option.map_none, Option.map_eq_none_iff] at view
    rw [view]
  | some w =>
    obtain ⟨w', found', view⟩ := h.exists_view_eq found
    rw [found']
    exact congrArg some (Worker.reportOf_congr view _)

/-- As many keys, or the same reason to end the search. -/
theorem outcome_eq : it'.outcome.map List.length = it.outcome.map List.length := by
  have length (workers : List Worker) : (workers.flatMap Worker.keys).length =
      ((workers.map Worker.view).map Worker.View.matched).sum := by
    rw [List.length_flatMap, List.map_map]
    simp only [Worker.keys, List.length_reverse]
    rfl
  rw [outcome, outcome, h.site.failure, h.site.cancelled]
  cases it.site.failure with
  | some failure => rfl
  | none =>
    cases it.site.cancelled with
    | true => rfl
    | false => exact congrArg Except.ok (by rw [length, length, h.workers])

end LooksLike

/-- A whole iteration of two searches whose calls are noticed alike up to its end. -/
theorem looksLike_run {site : Site σ} {site' : Site τ} (h : site.LooksLike site')
    (behind : site.Behind job start) (behind' : site'.Behind job' start') (schedule : Schedule)
    (tasks : List Task)
    (agree : Agree ((run job schedule tasks site).site.told job start)
      ((run job' schedule tasks site').site.told job' start')) :
    (run job schedule tasks site).LooksLike (run job' schedule tasks site') := by
  have settled := (looksLike_ofTasks h tasks).settle (behind_ofTasks behind tasks)
    (behind_ofTasks behind' tasks) schedule
    (agree.mono (Site.since_tick _ _).told_subset (Site.since_tick _ _).told_subset)
  refine ⟨settled.workers, ?_⟩
  rw [run, run, join, join, settled.site.clock]
  exact settled.site.tick _

end Iteration

/-! ### Rounds -/

/-- What there is to see of a report: the number of its keys, and the statistics. -/
def Report.outline (report : Report) : Nat × Stats := (report.keys.length, report.stats)

/-- The searches at their loop heads have as many keys at hand, and are the same in all else but
the worlds. -/
structure Progress.LooksLike (p : Progress σ) (p' : Progress τ) : Prop where
  sliding : p'.sliding = p.sliding
  stats : p'.stats = p.stats
  found : p'.found.size = p.found.size
  events : p'.events = p.events
  site : p.site.LooksLike p'.site

/-- The runs have returned as many keys or the same error, and are the same in all else but the
worlds. -/
structure Run.LooksLike (run : Run σ) (run' : Run τ) : Prop where
  result : run'.result.map Report.outline = run.result.map Report.outline
  events : run'.events = run.events
  history : run'.history = run.history
  cancelled : run'.cancelled = run.cancelled

inductive Round.LooksLike : Round σ → Round τ → Prop
  | ended {run : Run σ} {run' : Run τ} (h : run.LooksLike run') :
    LooksLike (.ended run) (.ended run')
  | next {p : Progress σ} {p' : Progress τ} (h : p.LooksLike p') : LooksLike (.next p) (.next p')

/-- The steps up to the end of a round. -/
def Round.history : Round σ → List Action
  | .ended run => run.history
  | .next p => p.site.history.reverse

theorem Progress.LooksLike.finish {p : Progress σ} {p' : Progress τ} (h : p.LooksLike p')
    {result result' : Except Error Report}
    (same : result'.map Report.outline = result.map Report.outline) (last : List Event) :
    Round.LooksLike (.ended (p.finish result last)) (.ended (p'.finish result' last)) :=
  .ended
    { result := same
      events := congrArg (fun events : Array Event => events.toList ++ last) h.events
      history := congrArg List.reverse h.site.history
      cancelled := h.site.cancelled }

theorem Progress.LooksLike.complete {p : Progress σ} {p' : Progress τ} (h : p.LooksLike p')
    (target : UInt64) :
    Round.LooksLike (.ended (p.complete target)) (.ended (p'.complete target)) := by
  have length : (rank p'.found.toList target.toNat).length =
      (rank p.found.toList target.toNat).length := by
    simp only [rank, List.length_take, List.length_mergeSort, Array.length_toList, h.found]
  simp only [Progress.complete, length, h.stats]
  refine h.finish ?_ _
  simp only [Except.map, Report.outline, length]

namespace Coordinator

variable {c : Coordinator σ} {c' : Coordinator τ} {schedule : Schedule} {seed seed' : Seed}
  {target : UInt64} {start : σ} {start' : τ} {p : Progress σ} {p' : Progress τ}

theorem allocator_congr (config : c'.config = c.config) : c'.allocator = c.allocator := by
  have made := c'.allocator_eq
  rw [config, c.allocator_eq] at made
  exact (Except.ok.inj made).symm

theorem looksLike_tick (h : p.LooksLike p') (schedule : Schedule) :
    (p.tick schedule).LooksLike (p'.tick schedule) where
  sliding := h.sliding
  stats := h.stats
  found := h.found
  events := h.events
  site := by
    rw [Progress.tick, Progress.tick, h.site.clock]
    exact h.site.tick _

theorem looksLike_looked (h : p.LooksLike p') (schedule : Schedule) :
    (looked schedule p).LooksLike (looked schedule p') where
  sliding := h.sliding
  stats := h.stats
  found := h.found
  events := h.events
  site := by
    have ticked := (looksLike_tick h schedule).site
    rw [looked, looked, Progress.look, Progress.look, ticked.cancelled]
    exact ticked.note _

theorem calls_history_admitted (schedule : Schedule) (p : Progress σ) :
    Action.calls (admitted schedule p).site.history.reverse =
      Action.calls p.site.history.reverse := by
  rw [admitted, Progress.tick, Site.calls_history_tick, looked, Progress.look,
    Site.calls_history_note _ rfl, Progress.tick, Site.calls_history_tick]

theorem behind_looked (behind : p.site.Behind (c.job seed) start) (schedule : Schedule) :
    (looked schedule p).site.Behind (c.job seed) start := (behind.tick _).note rfl

theorem behind_admitted (behind : p.site.Behind (c.job seed) start) (schedule : Schedule) :
    (admitted schedule p).site.Behind (c.job seed) start := (behind_looked behind schedule).tick _

theorem looksLike_advance (config : c'.config = c.config) (h : p.LooksLike p') (next : UInt64)
    {keys keys' : List Key} (length : keys'.length = keys.length) (reports : List Event)
    {site : Site σ} {site' : Site τ} (sites : site.LooksLike site') :
    (c.advance p next keys reports site).LooksLike (c'.advance p' next keys' reports site') := by
  have size (found : Array Key) (keys : List Key) :
      (found ++ keys).size = found.size + keys.length := by
    rw [← Array.length_toList, Array.toList_appendList, List.length_append, Array.length_toList]
  refine ⟨rfl, ?_, ?_, ?_, sites⟩
  · simp only [advance, h.stats, config, length]
  · simp only [advance, size, h.found, length]
  · simp only [advance, size, h.events, h.stats, h.found, length]

theorem looksLike_runBatch (config : c'.config = c.config) (h : p.LooksLike p')
    (behind : p.site.Behind (c.job seed) start) (behind' : p'.site.Behind (c'.job seed') start')
    (schedule : Schedule) (batch : Batch)
    (agree : Agree
      ((c.job seed).told start (c.runBatch schedule seed p batch).history)
      ((c'.job seed').told start' (c'.runBatch schedule seed' p' batch).history)) :
    (c.runBatch schedule seed p batch).LooksLike (c'.runBatch schedule seed' p' batch) := by
  have history {υ : Type} (c : Coordinator υ) (seed : Seed) (p : Progress υ) :
      (c.runBatch schedule seed p batch).history =
        (Iteration.run (c.job seed) schedule batch.tasks p.site).site.history.reverse := by
    unfold runBatch
    dsimp only
    split <;> rfl
  rw [history, history] at agree
  have alike := Iteration.looksLike_run h.site behind behind' schedule batch.tasks agree
  have joined : Progress.LooksLike
      { p with site := (Iteration.run (c.job seed) schedule batch.tasks p.site).site }
      { p' with site := (Iteration.run (c'.job seed') schedule batch.tasks p'.site).site } :=
    { h with site := alike.site }
  unfold runBatch
  dsimp only
  rw [alike.reports_eq]
  rcases exists_of_map_eq_map alike.outcome_eq with
    ⟨error, ended, ended'⟩ | ⟨keys, keys', found, found', length⟩
  · rw [ended, ended']
    cases error <;> exact joined.finish rfl _
  · rw [found, found']
    exact .next (looksLike_advance config h _ length _ alike.site)

theorem looksLike_proceed (config : c'.config = c.config) (h : p.LooksLike p')
    (behind : p.site.Behind (c.job seed) start) (behind' : p'.site.Behind (c'.job seed') start')
    (schedule : Schedule)
    (agree : Agree
      ((c.job seed).told start (c.proceed schedule seed p).history)
      ((c'.job seed').told start' (c'.proceed schedule seed' p').history)) :
    (c.proceed schedule seed p).LooksLike (c'.proceed schedule seed' p') := by
  have limit : c'.limitReached? p.stats.iterations = c.limitReached? p.stats.iterations := by
    rw [limitReached?, limitReached?, config]
  unfold proceed at agree ⊢
  rw [h.stats, limit, h.sliding, allocator_congr config, h.found] at agree ⊢
  split
  · exact h.finish rfl _
  · rename_i free
    rw [free] at agree
    split
    · rename_i batch handed
      rw [handed] at agree
      exact looksLike_runBatch config h behind behind' schedule batch agree
    · exact h.finish rfl _

theorem looksLike_round (config : c'.config = c.config) (h : p.LooksLike p')
    (behind : p.site.Behind (c.job seed) start) (behind' : p'.site.Behind (c'.job seed') start')
    (schedule : Schedule) (target : UInt64)
    (agree : Agree
      ((c.job seed).told start (c.round schedule seed target p).history)
      ((c'.job seed').told start' (c'.round schedule seed' target p').history)) :
    (c.round schedule seed target p).LooksLike (c'.round schedule seed' target p') := by
  have looks := looksLike_looked h schedule
  rw [round_eq, round_eq, h.found, h.stats, looks.site.cancelled] at agree ⊢
  split
  · exact h.complete target
  · rename_i short
    rw [if_neg short, if_neg short] at agree
    split
    · exact looks.finish rfl _
    · rename_i down
      rw [if_neg down, if_neg down] at agree
      exact looksLike_proceed config (looksLike_tick looks schedule)
        (behind_admitted behind schedule) (behind_admitted behind' schedule) schedule agree

/-- The world at the next loop head is behind the calls up to there. -/
theorem behind_of_next (behind : p.site.Behind (c.job seed) start) {q : Progress σ}
    (next : c.round schedule seed target p = .next q) : q.site.Behind (c.job seed) start := by
  have rounded := c.rounded_round schedule seed target p
  rw [next] at rounded
  cases rounded with
  | advanced => exact Iteration.behind_run (behind_admitted behind schedule) schedule _

/-- The rounds after the first one add to its steps. -/
theorem history_round_isPrefix (c : Coordinator σ) (schedule : Schedule) (seed : Seed)
    (target : UInt64) (p : Progress σ) :
    (c.round schedule seed target p).history <+: (c.rounds schedule seed target p).history := by
  cases round : c.round schedule seed target p with
  | ended run =>
    rw [rounds_of_ended round]
    exact List.prefix_rfl
  | next q =>
    rw [rounds_of_next round]
    obtain ⟨k, r, reached, ended⟩ :=
      exists_reached_ended (.start : Reached c schedule seed target q 0 q)
    have rounded := c.rounded_round schedule seed target r
    rw [ended] at rounded
    obtain ⟨earlier, since⟩ := reached.since
    obtain ⟨later, site, since', history, -⟩ := rounded.since
    rw [history, (since.trans since').history, List.reverse_append]
    exact List.prefix_append _ _

theorem looksLike_rounds (config : c'.config = c.config) (h : p.LooksLike p')
    (behind : p.site.Behind (c.job seed) start) (behind' : p'.site.Behind (c'.job seed') start')
    (schedule : Schedule) (target : UInt64)
    (agree : Agree
      ((c.job seed).told start (c.rounds schedule seed target p).history)
      ((c'.job seed').told start' (c'.rounds schedule seed' target p').history)) :
    (c.rounds schedule seed target p).LooksLike (c'.rounds schedule seed' target p') := by
  fun_induction c.rounds schedule seed target p generalizing p' with
  | case1 p run ended =>
    have first := looksLike_round config h behind behind' schedule target
      (agree.mono (by rw [ended]; exact List.Subset.refl _)
        (Job.told_subset (c'.history_round_isPrefix schedule seed' target p')))
    rw [ended] at first
    generalize other : c'.round schedule seed' target p' = round at first
    cases first with
    | ended alike =>
      rw [rounds_of_ended other]
      exact alike
  | case2 p q next _ ih =>
    have first := looksLike_round config h behind behind' schedule target
      (agree.mono
        (Job.told_subset (rounds_of_next next ▸ c.history_round_isPrefix schedule seed target p))
        (Job.told_subset (c'.history_round_isPrefix schedule seed' target p')))
    rw [next] at first
    generalize other : c'.round schedule seed' target p' = round at first
    cases first with
    | next alike =>
      rw [rounds_of_next other] at agree ⊢
      exact ih alike (behind_of_next behind next) (behind_of_next behind' other) agree

end Coordinator

/-! ### Searches -/

/-- Of two searches with the same settings, the same constraints, the same schedule and the same
flag at first, whatever their seeds, services and worlds: if the calls that they make for a
candidate are noticed alike, they report the same events, take the same steps and leave the same
flag, and they end with the same error or with as many keys and the same statistics. -/
theorem keys_show_in_notices_only (c : Coordinator σ) (c' : Coordinator τ)
    (config : c'.config = c.config)
    (constraints : c'.evaluator.constraints = c.evaluator.constraints) (schedule : Schedule)
    (target : UInt64) (cancelled : Bool) {seed seed' : Seed} {world : σ} {world' : τ}
    {run : Run σ} {run' : Run τ} (ran : run = c.run schedule seed target world cancelled)
    (ran' : run' = c'.run schedule seed' target world' cancelled)
    (agree : Agree ((c.job seed).told world run.history)
      ((c'.job seed').told world' run'.history)) :
    run'.events = run.events ∧ run'.history = run.history ∧ run'.cancelled = run.cancelled ∧
      run'.result.map Report.outline = run.result.map Report.outline := by
  subst ran ran'
  by_cases asked : target = 0
  · rw [Coordinator.run, Coordinator.run, if_pos asked, if_pos asked]
    exact ⟨rfl, rfl, rfl, rfl⟩
  · rw [Coordinator.run, Coordinator.run, if_neg asked, if_neg asked] at agree ⊢
    have setOut : (c.setOut target world cancelled).LooksLike
        (c'.setOut target world' cancelled) :=
      { sliding := congrArg Config.startIndex config
        stats := rfl
        found := rfl
        events := by simp only [Coordinator.setOut, Coordinator.opening, config, constraints]
        site := ⟨rfl, rfl, rfl, rfl⟩ }
    obtain ⟨result, events, history, flag⟩ :=
      Coordinator.looksLike_rounds config setOut rfl rfl schedule target agree
    exact ⟨events, history, flag, result⟩

/-- The search of `evenSearch` among the keys of the positions with both indices exchanged, with an
assigner that counts how often it is asked. -/
def exchangedSearch : Coordinator (Unit × Shard.Tally) where
  deriver := Rehearsal.stub 0 true
  evaluator := ⟨(evenSearch none).evaluator.constraints, Rehearsal.byRemainder.counted⟩
  config := (evenSearch none).config
  allocator := (evenSearch none).allocator
  allocator_eq := rfl

/-- With both indices exchanged the sum is the same, and only that decides about a stub key. -/
theorem notice_exchangedSearch (seed seed' : Seed) (position : Position) (world : Unit)
    (world' : Unit × Shard.Tally) :
    (exchangedSearch.job seed').notice position world' =
      ((evenSearch none).job seed).notice position world := by
  have sums : Rehearsal.indexSum (Rehearsal.stubKey (Rehearsal.moved 0 true position)) =
      Rehearsal.indexSum (Rehearsal.stubKey (Rehearsal.moved 0 false position)) :=
    UInt64.add_comm _ _
  exact congrArg (fun sum : UInt64 => Notice.mk position
    (.ok (((sum % 2).toUInt32 == 0) && true)) false) sums

/-- The searches return different keys. -/
theorem keys_show_in_notices_only_exchanged :
    ∃ (run : Run Unit) (run' : Run (Unit × Shard.Tally)),
      run = (evenSearch none).run (.roundRobin 2) ⟨[]⟩ 3 () false ∧
      run' = exchangedSearch.run (.roundRobin 2) ⟨[7]⟩ 3 ((), ⟨0, 0⟩) false ∧
      run.result =
        .ok ⟨[Rehearsal.stubKey ⟨0, 6⟩, Rehearsal.stubKey ⟨0, 8⟩, Rehearsal.stubKey ⟨0, 10⟩],
          ⟨2, 8, 4⟩⟩ ∧
      run'.result =
        .ok ⟨[Rehearsal.stubKey ⟨6, 0⟩, Rehearsal.stubKey ⟨8, 0⟩, Rehearsal.stubKey ⟨10, 0⟩],
          ⟨2, 8, 4⟩⟩ ∧
      run'.events = run.events := by
  have asked : (3 : UInt64) ≠ 0 := by decide
  have result : ((evenSearch none).run (.roundRobin 2) ⟨[]⟩ 3 () false).result =
      .ok ⟨[Rehearsal.stubKey ⟨0, 6⟩, Rehearsal.stubKey ⟨0, 8⟩, Rehearsal.stubKey ⟨0, 10⟩],
        ⟨2, 8, 4⟩⟩ :=
    Coordinator.run_of_within? asked Run.result 3 (by cbv)
  have result' : (exchangedSearch.run (.roundRobin 2) ⟨[7]⟩ 3 ((), ⟨0, 0⟩) false).result =
      .ok ⟨[Rehearsal.stubKey ⟨6, 0⟩, Rehearsal.stubKey ⟨8, 0⟩, Rehearsal.stubKey ⟨10, 0⟩],
        ⟨2, 8, 4⟩⟩ :=
    Coordinator.run_of_within? asked Run.result 3 (by cbv)
  obtain ⟨events, -⟩ := keys_show_in_notices_only (evenSearch none) exchangedSearch rfl rfl
    (.roundRobin 2) 3 false rfl rfl
    (Job.agree_told (notice_exchangedSearch ⟨[]⟩ ⟨[7]⟩) () ((), ⟨0, 0⟩) _ _)
  exact ⟨_, _, rfl, rfl, result, result', events⟩

end KeySearch.Search
