import KeySearch.Proofs.Search.BruteForce
import KeySearch.Proofs.Search.Calls
import KeySearch.Rehearsal.Cue
import Mathlib.Data.List.Perm.Subperm

/-! What is still done behind a stop signal. Every action of a search fits the history before it:
whoever looks, worker or coordinator, finds out whether there has been a reason to stop; a worker
that asks for a key has looked last of all it did, found none and met no failure; and a batch is
handed out only behind a look of the coordinator that found none, since when nobody but somebody
outside can have given one (`Disciplined`). So whoever looks behind a signal stops, and a worker
makes at most the one call it had looked for already; a worker whose own step gives the signal makes
none. Where somebody outside cancels between the look of the coordinator and the hand-out, the batch
goes to its workers all the same, and nobody calls any more. -/

namespace KeySearch.Search

variable {σ : Type}

/-! ### Disciplined histories -/

namespace Action

/-- A reason to stop: the flag is raised, or a failure goes into the cell. -/
def halts (action : Action) : Bool := action.raises || action.records

/-- A call that yields no key. -/
def refuses : Action → Bool
  | .derived _ _ yields _ => !yields
  | _ => false

/-- The workers that call, in the order of their calls. -/
def callers (history : List Action) : List Nat := (calls history).map Prod.fst

/-- The last step of a worker in a history with the latest step first. -/
def latestOf (worker : Nat) (history : List Action) : Option Action :=
  history.find? (·.worker? == some worker)

/-- The coordinator has looked, the latest step being the first one, found no reason to stop, and
nothing has been done since but from outside. -/
def Admits (history : List Action) : Prop :=
  ∃ since past, history = since ++ .looked false :: past ∧ ∀ action ∈ since, action = .cancelled

/-- No worker has looked without asking for a key since. -/
def Idle (history : List Action) : Prop :=
  ∀ worker, latestOf worker history ≠ some (.polled worker false)

/-- What an action tells about the history before it, the latest step first, in a search by so many
workers whose flag was up at first or not. -/
def Fits (workers : Nat) (up : Bool) (earlier : List Action) : Action → Prop
  | .cancelled => True
  | .looked stops => stops = (up || earlier.any halts)
  | .handedOut _ =>
    Admits earlier ∧ Idle earlier ∧ ∀ action ∈ earlier, action.refuses = false
  | .polled worker stops => worker < workers ∧ stops = (up || earlier.any halts)
  | .derived worker _ _ _ => worker < workers ∧
    latestOf worker earlier = some (.polled worker false) ∧
    ∀ action ∈ earlier, action.worker? = some worker → action.refuses = false
  | .recorded worker _ => worker < workers

theorem latestOf_cons_self {action : Action} {worker : Nat} (h : action.worker? = some worker)
    (history : List Action) : latestOf worker (action :: history) = some action := by
  rw [latestOf, List.find?_cons, h, beq_self_eq_true]

theorem latestOf_cons_of_ne {action : Action} {worker : Nat} (h : action.worker? ≠ some worker)
    (history : List Action) : latestOf worker (action :: history) = latestOf worker history := by
  rw [latestOf, List.find?_cons, beq_false_of_ne h]
  rfl

/-- What workers have not done changes nothing about their last steps. -/
theorem latestOf_append {silent : List Action} (h : ∀ action ∈ silent, action.worker? = none)
    (worker : Nat) (history : List Action) :
    latestOf worker (silent ++ history) = latestOf worker history := by
  induction silent with
  | nil => rfl
  | cons action silent ih =>
    obtain ⟨first, rest⟩ := List.forall_mem_cons.1 h
    rw [List.cons_append, latestOf_cons_of_ne (by rw [first]; exact nofun), ih rest]

theorem Idle.cons {history : List Action} (h : Idle history) {action : Action}
    (silent : action.worker? = none) : Idle (action :: history) := by
  intro worker
  rw [latestOf_cons_of_ne (by rw [silent]; exact nofun)]
  exact h worker

theorem mem_callers {history : List Action} {worker : Nat} :
    worker ∈ callers history ↔ ∃ position yields cancels,
      .derived worker position yields cancels ∈ history := by
  rw [callers, List.mem_map]
  constructor
  · rintro ⟨call, mem, rfl⟩
    obtain ⟨action, there, called⟩ := List.mem_filterMap.1 mem
    cases action with
    | derived worker position yields cancels => cases called; exact ⟨_, _, _, there⟩
    | _ => cases called
  · rintro ⟨position, yields, cancels, there⟩
    exact ⟨(worker, position), List.mem_filterMap.2 ⟨_, there, rfl⟩, rfl⟩

theorem exists_of_handsOut {action : Action} (h : action.handsOut = true) :
    ∃ tasks, action = .handedOut tasks := by
  cases action with
  | handedOut tasks => exact ⟨tasks, rfl⟩
  | _ => cases h

theorem callers_cons_of_none {action : Action} (h : action.call? = none) (history : List Action) :
    callers (action :: history) = callers history := by
  rw [callers, calls, List.filterMap_cons_none h]
  rfl

theorem callers_reverse (history : List Action) :
    callers history.reverse = (callers history).reverse := by
  rw [callers, calls_reverse, List.map_reverse]
  rfl

end Action

/-- Histories, the latest step first, in which every action fits the history before it. -/
inductive Disciplined (workers : Nat) (up : Bool) : List Action → Prop
  | nil : Disciplined workers up []
  | cons {action : Action} {earlier : List Action} (fits : action.Fits workers up earlier)
    (rest : Disciplined workers up earlier) : Disciplined workers up (action :: earlier)

namespace Disciplined

variable {workers : Nat} {up : Bool} {later earlier : List Action}

theorem of_append (h : Disciplined workers up (later ++ earlier)) :
    Disciplined workers up earlier := by
  induction later with
  | nil => exact h
  | cons _ later ih => cases h with | cons _ rest => exact ih rest

theorem fits_of_append {action : Action} (h : Disciplined workers up (later ++ action :: earlier)) :
    action.Fits workers up earlier := by
  cases h.of_append with
  | cons fits _ => exact fits

/-- Only the workers of the search take steps. -/
theorem worker_lt {history : List Action} (h : Disciplined workers up history) {action : Action}
    (mem : action ∈ history) {worker : Nat} (own : action.worker? = some worker) :
    worker < workers := by
  obtain ⟨later, earlier, rfl⟩ := List.append_of_mem mem
  have fits := h.fits_of_append
  cases action with
  | cancelled | looked | handedOut => cases own
  | polled | derived => cases own; exact fits.1
  | recorded => cases own; exact fits

/-- Behind a reason to stop a worker makes at most one more call, for which it had looked already.
As long as a look without such a reason is the last of all it did, it has not made that call. -/
theorem count_callers (h : Disciplined workers up (later ++ earlier))
    (halted : (up || earlier.any Action.halts) = true) (worker : Nat) :
    (Action.callers later).count worker ≤ 1 ∧
      (worker ∈ Action.callers later →
        Action.latestOf worker earlier = some (.polled worker false)) ∧
      (Action.latestOf worker (later ++ earlier) = some (.polled worker false) →
        worker ∉ Action.callers later ∧
          Action.latestOf worker earlier = some (.polled worker false)) := by
  induction later with
  | nil => exact ⟨Nat.zero_le _, nofun, fun latest => ⟨List.not_mem_nil, latest⟩⟩
  | cons action later ih =>
    rw [List.cons_append] at h ⊢
    cases h with
    | cons fits rest =>
      obtain ⟨most, looked, open'⟩ := ih rest
      by_cases own : action.worker? = some worker
      · rw [Action.latestOf_cons_self own]
        cases action with
        | cancelled | looked | handedOut => cases own
        | polled number stops =>
          rw [Action.callers_cons_of_none rfl]
          refine ⟨most, looked, fun same => ?_⟩
          -- A look behind a reason to stop finds it.
          have up' : stops = true := by
            rw [fits.2, List.any_append, Bool.or_left_comm, halted, Bool.or_true]
          rw [up'] at same
          cases same
        | recorded number first =>
          rw [Action.callers_cons_of_none rfl]
          exact ⟨most, looked, nofun⟩
        | derived number position yields cancels =>
          cases own
          obtain ⟨none, before⟩ := open' fits.2.1
          refine ⟨?_, fun _ => before, nofun⟩
          change (worker :: Action.callers later).count worker ≤ 1
          rw [List.count_cons_self, List.count_eq_zero.2 none]
      · rw [Action.latestOf_cons_of_ne own]
        cases called : action.call? with
        | none =>
          rw [Action.callers_cons_of_none called]
          exact ⟨most, looked, open'⟩
        | some call =>
          have other : call.1 ≠ worker := fun same =>
            own (same ▸ Action.worker?_of_call? called)
          have split : Action.callers (action :: later) = call.1 :: Action.callers later := by
            rw [Action.callers, Action.calls, List.filterMap_cons_some called]
            rfl
          rw [split, List.count_cons_of_ne other, List.mem_cons, or_iff_right (Ne.symm other)]
          exact ⟨most, looked, open'⟩

theorem nodup_callers (h : Disciplined workers up (later ++ earlier))
    (halted : (up || earlier.any Action.halts) = true) : (Action.callers later).Nodup :=
  List.nodup_iff_count_le_one.2 fun worker => (h.count_callers halted worker).1

/-- A look that finds no reason to stop has none before it. -/
theorem quiet_of_looked (h : Disciplined workers up (later ++ .looked false :: earlier)) :
    up = false ∧ ∀ signal ∈ earlier, signal.halts = false := by
  have fits : false = (up || earlier.any Action.halts) := h.fits_of_append
  obtain ⟨lowered, quiet⟩ := Bool.or_eq_false_iff.1 fits.symm
  exact ⟨lowered, fun signal mem => Bool.eq_false_iff.2 (List.any_eq_false.1 quiet signal mem)⟩

/-- A search whose flag is up at first hands nothing out. -/
theorem handsOut_eq_false_of_up {history : List Action} (h : Disciplined workers true history)
    {action : Action} (mem : action ∈ history) : action.handsOut = false := by
  refine Bool.eq_false_iff.2 fun hands => ?_
  obtain ⟨tasks, rfl⟩ := Action.exists_of_handsOut hands
  obtain ⟨after, before, rfl⟩ := List.append_of_mem mem
  obtain ⟨⟨since, past, rfl, -⟩, -, -⟩ := h.fits_of_append
  rw [← List.cons_append, ← List.append_assoc] at h
  cases h.quiet_of_looked.1

/-- A batch is handed out behind a reason to stop only if that comes from outside and behind the
look of the coordinator, and nothing else is done up to the hand-out. -/
theorem unseen_of_handedOut {signal : Action} {tasks : List Task}
    (h : Disciplined workers up (.handedOut tasks :: (later ++ signal :: earlier)))
    (halts : signal.halts = true) :
    signal = .cancelled ∧ Action.Admits earlier ∧ ∀ action ∈ later, action = .cancelled := by
  cases h with
  | cons fits rest =>
    obtain ⟨⟨since, past, split, outside⟩, -, -⟩ := fits
    have quiet := (split ▸ rest).quiet_of_looked.2
    have unlike : signal ≠ .looked false := by
      rintro rfl
      cases halts
    have unheard : signal ∉ past := fun mem => by
      rw [quiet signal mem] at halts
      cases halts
    rcases List.append_eq_append_iff.1 split with ⟨between, rfl, same⟩ | ⟨between, rfl, same⟩
    · cases between with
      | nil => exact absurd (List.cons.inj same).1 unlike
      | cons first between =>
        obtain ⟨rfl, rfl⟩ := List.cons.inj same
        refine ⟨outside _ (List.mem_append_right _ List.mem_cons_self), ?_, fun action mem =>
          outside action (List.mem_append_left _ mem)⟩
        exact ⟨between, past, rfl, fun action mem =>
          outside action (List.mem_append_right _ (List.mem_cons_of_mem _ mem))⟩
    · have mem : signal ∈ .looked false :: past :=
        same ▸ List.mem_append_right _ List.mem_cons_self
      exact absurd mem (List.not_mem_cons_of_ne_of_not_mem unlike unheard)

/-- Where a batch is handed out behind a reason to stop, nobody calls behind it. -/
theorem callers_eq_nil_of_handedOut {signal : Action} {tasks : List Task}
    (h : Disciplined workers up (later ++ signal :: earlier)) (halts : signal.halts = true)
    (mem : .handedOut tasks ∈ later) : Action.callers later = [] := by
  have halted : (up || (signal :: earlier).any Action.halts) = true := by
    rw [List.any_cons, halts, Bool.true_or, Bool.or_true]
  refine List.eq_nil_iff_forall_not_mem.2 fun worker calls => ?_
  have latest := (h.count_callers halted worker).2.1 calls
  obtain ⟨after, before, rfl⟩ := List.append_of_mem mem
  rw [List.append_assoc, List.cons_append] at h
  obtain ⟨-, idle, -⟩ := h.fits_of_append
  have outside := (h.of_append.unseen_of_handedOut halts).2.2
  -- Up to the hand-out the worker does nothing, so its last step is no look to call behind.
  apply idle worker
  rw [Action.latestOf_append fun action there => outside action there ▸ rfl]
  exact latest

/-- Behind a reason to stop at most one batch is handed out. -/
theorem countP_handsOut_le {signal : Action}
    (h : Disciplined workers up (later ++ signal :: earlier)) (halts : signal.halts = true) :
    later.countP Action.handsOut ≤ 1 := by
  cases latest : later.find? Action.handsOut with
  | none =>
    rw [List.countP_eq_zero.2 (List.find?_eq_none.1 latest)]
    exact Nat.zero_le _
  | some action =>
    obtain ⟨hands, after, before, rfl, later⟩ := List.find?_eq_some_iff_append.1 latest
    obtain ⟨tasks, rfl⟩ := Action.exists_of_handsOut hands
    rw [List.append_assoc, List.cons_append] at h
    have outside := (h.of_append.unseen_of_handedOut halts).2.2
    have none : before.countP Action.handsOut = 0 :=
      List.countP_eq_zero.2 fun action mem => by
        rw [outside action mem]
        exact Bool.false_ne_true
    have none' : after.countP Action.handsOut = 0 :=
      List.countP_eq_zero.2 fun action mem => by simpa using later action mem
    rw [List.countP_append, List.countP_cons, none, none', hands]
    exact Nat.le_refl 1

/-- A worker whose call has failed makes no more calls. -/
theorem notMem_callers_of_refuses {signal : Action} {worker : Nat}
    (h : Disciplined workers up (later ++ signal :: earlier)) (own : signal.worker? = some worker)
    (refuses : signal.refuses = true) : worker ∉ Action.callers later := by
  intro mem
  obtain ⟨position, yields, cancels, there⟩ := Action.mem_callers.1 mem
  obtain ⟨after, before, rfl⟩ := List.append_of_mem there
  rw [List.append_assoc, List.cons_append] at h
  have clean := h.fits_of_append.2.2 signal (List.mem_append_right _ List.mem_cons_self) own
  rw [refuses] at clean
  cases clean

/-- No batch is handed out behind a call that has failed. -/
theorem handsOut_eq_false_of_refuses {signal : Action}
    (h : Disciplined workers up (later ++ signal :: earlier)) (refuses : signal.refuses = true)
    {action : Action} (mem : action ∈ later) : action.handsOut = false := by
  refine Bool.eq_false_iff.2 fun hands => ?_
  obtain ⟨tasks, rfl⟩ := Action.exists_of_handsOut hands
  obtain ⟨after, before, rfl⟩ := List.append_of_mem mem
  rw [List.append_assoc, List.cons_append] at h
  have clean := h.fits_of_append.2.2 signal (List.mem_append_right _ List.mem_cons_self)
  rw [refuses] at clean
  cases clean

end Disciplined

/-! ### Workers and their site -/

/-- The history of a site tells whether there is a reason to stop. -/
structure Site.Orderly (workers : Nat) (up : Bool) (s : Site σ) : Prop where
  disciplined : Disciplined workers up s.history
  stops : s.stops = (up || s.history.any Action.halts)

theorem Site.tick_eq (s : Site σ) (move : Move) :
    s.tick move = { s with clock := s.clock + 1 } ∨
      s.tick move =
        { s with cancelled := true, clock := s.clock + 1, history := .cancelled :: s.history } := by
  unfold tick
  split
  · exact .inr rfl
  · exact .inl rfl

theorem Site.Orderly.tick {workers : Nat} {up : Bool} {s : Site σ} (h : s.Orderly workers up)
    (move : Move) : (s.tick move).Orderly workers up := by
  rcases s.tick_eq move with same | cancelled
  · rw [same]
    exact ⟨h.disciplined, h.stops⟩
  · rw [cancelled]
    refine ⟨.cons trivial h.disciplined, ?_⟩
    simp [Site.stops, Action.halts, Action.raises]

/-- A call that has failed is older than a step from outside. -/
theorem Site.mem_of_mem_tick {s : Site σ} {move : Move} {action : Action}
    (mem : action ∈ (s.tick move).history) (refuses : action.refuses = true) :
    action ∈ s.history := by
  rcases s.tick_eq move with same | cancelled
  · rwa [same] at mem
  · rw [cancelled] at mem
    rcases List.mem_cons.1 mem with rfl | old
    · cases refuses
    · exact old

theorem Site.latestOf_tick (s : Site σ) (move : Move) (worker : Nat) :
    Action.latestOf worker (s.tick move).history = Action.latestOf worker s.history := by
  rcases s.tick_eq move with same | cancelled
  · rw [same]
  · rw [cancelled]
    rfl

namespace Worker

/-- The worker has met a failure. -/
def hasFailed (w : Worker) : Bool :=
  match w.phase with
  | .failing _ | .ended (.failed _) => true
  | _ => false

theorem phaseAt_ne_cleared (t : Task) (index : Nat) : phaseAt t index ≠ .cleared := by
  unfold phaseAt
  split <;> exact nofun

/-- The step of a worker fits the history, if that tells how the worker stands. -/
theorem Stepped.exists_fitting {job : Job σ} {w : Worker} {number : Nat} {site : Site σ}
    {after : Worker × Site σ} (h : Stepped job w number site after) {workers : Nat} {up : Bool}
    (bound : number < workers) (stops : site.stops = (up || site.history.any Action.halts))
    (cleared : w.phase = .cleared →
      Action.latestOf number site.history = some (.polled number false))
    (refused : ∀ action ∈ site.history, action.worker? = some number → action.refuses = true →
      w.hasFailed = true) :
    ∃ action, after.2.history = action :: site.history ∧ action.worker? = some number ∧
      action.Fits workers up site.history ∧ after.2.stops = (site.stops || action.halts) ∧
      (after.1.phase = .cleared ↔ action = .polled number false) ∧
      (w.hasFailed = true ∨ action.refuses = true → after.1.hasFailed = true) := by
  have clean (phase : w.phase = .cleared) :
      ∀ action ∈ site.history, action.worker? = some number → action.refuses = false := by
    intro action mem own
    rw [Bool.eq_false_iff]
    intro refuses
    have failed := refused action mem own refuses
    rw [hasFailed, phase] at failed
    cases failed
  cases h with
  | brokeOff phase stops' =>
    refine ⟨_, rfl, rfl, ⟨bound, stops'.symm.trans stops⟩, ?_, by simp, ?_⟩
    · simp [Site.stops, Site.note, Action.halts, Action.raises, Action.records]
    · simp [hasFailed, phase, Action.refuses]
  | cleared phase stops' =>
    refine ⟨_, rfl, rfl, ⟨bound, stops'.symm.trans stops⟩, ?_, iff_of_true rfl rfl, ?_⟩
    · simp [Site.stops, Site.note, Action.halts, Action.raises, Action.records]
    · simp [hasFailed, phase, Action.refuses]
  | refused phase _ _ =>
    refine ⟨_, rfl, rfl, ⟨bound, cleared phase, clean phase⟩, ?_, by simp, fun _ => rfl⟩
    simp [Site.stops, Action.halts, Action.raises, Action.records, Bool.or_assoc]
  | examined phase _ _ _ =>
    refine ⟨_, rfl, rfl, ⟨bound, cleared phase, clean phase⟩, ?_, ?_, ?_⟩
    · simp [Site.stops, Action.halts, Action.raises, Action.records, Bool.or_assoc]
    · simp [phaseAt_ne_cleared]
    · simp [hasFailed, phase, Action.refuses]
  | recorded phase =>
    refine ⟨_, rfl, rfl, bound, ?_, by simp, fun _ => rfl⟩
    simp [Site.stops, Site.record, Action.halts, Action.records]

end Worker

namespace Iteration

/-- The history tells how the workers and their site stand. -/
structure Orderly (up : Bool) (it : Iteration σ) : Prop where
  site : it.site.Orderly it.workers.length up
  cleared : ∀ number w, it.workers[number]? = some w → (w.phase = .cleared ↔
    Action.latestOf number it.site.history = some (.polled number false))
  refused : ∀ number w, it.workers[number]? = some w → ∀ action ∈ it.site.history,
    action.worker? = some number → action.refuses = true → w.hasFailed = true

variable {up : Bool}

/-- Somebody outside cancels, or nobody does. -/
theorem Orderly.tick {it : Iteration σ} (h : it.Orderly up) (move : Move) :
    ({ it with site := it.site.tick move } : Iteration σ).Orderly up where
  site := h.site.tick move
  cleared number w found := by
    rw [it.site.latestOf_tick move number]
    exact h.cleared number w found
  refused number w found action mem own refuses :=
    h.refused number w found action (Site.mem_of_mem_tick mem refuses) own refuses

theorem Orderly.act {it : Iteration σ} (h : it.Orderly up) (job : Job σ) (move : Move)
    {number : Nat} {w : Worker} (found : it.workers[number]? = some w)
    (running : w.isRunning = true) : (it.act job move number).Orderly up := by
  have before := h.tick move
  have bound := (List.getElem?_eq_some_iff.1 found).1
  obtain ⟨action, history, own, fits, stops, cleared, failed⟩ :=
    (Worker.stepped_step job number (it.site.tick move) running).exists_fitting bound
      before.site.stops (before.cleared number w found).1 (before.refused number w found)
  rw [act_of_getElem? job move found]
  refine ⟨⟨?_, ?_⟩, fun place v there => ?_, fun place v there other mem mine refuses => ?_⟩
  · rw [List.length_set, history]
    exact .cons fits before.site.disciplined
  · rw [stops, history, before.site.stops, List.any_cons, Bool.or_assoc, Bool.or_comm action.halts]
  · rw [history]
    rcases getElem?_of_set there with ⟨rfl, rfl⟩ | ⟨apart, there⟩
    · rw [Action.latestOf_cons_self own, Option.some.injEq]
      exact cleared
    · rw [Action.latestOf_cons_of_ne]
      · exact before.cleared place v there
      · rw [own, ne_eq, Option.some.injEq]
        exact apart
  · rw [history] at mem
    rcases getElem?_of_set there with ⟨rfl, rfl⟩ | ⟨apart, there⟩
    · rcases List.mem_cons.1 mem with rfl | old
      · exact failed (.inr refuses)
      · exact failed (.inl (before.refused number w found other old mine refuses))
    · rcases List.mem_cons.1 mem with rfl | old
      · rw [own, Option.some.injEq] at mine
        exact absurd mine apart
      · exact before.refused place v there other old mine refuses

/-- The batch goes to its workers behind a look that has found no reason to stop. -/
theorem orderly_ofTasks {tasks : List Task} {site : Site σ} (h : site.Orderly tasks.length up)
    (admits : Action.Admits site.history) (idle : Action.Idle site.history)
    (unrefused : ∀ action ∈ site.history, action.refuses = false) :
    (ofTasks tasks site).Orderly up := by
  refine ⟨⟨?_, h.stops⟩, fun number w found => ?_, fun number w found action mem own refuses => ?_⟩
  · rw [ofTasks, List.length_map]
    exact .cons ⟨admits, idle, unrefused⟩ h.disciplined
  · obtain ⟨t, -, rfl⟩ := List.mem_map.1 (List.mem_of_getElem? found)
    exact iff_of_false (Worker.phaseAt_ne_cleared _ _) (idle.cons rfl number)
  · rcases List.mem_cons.1 mem with rfl | old
    · cases own
    · rw [unrefused action old] at refuses
      cases refuses

theorem Orderly.run {tasks : List Task} {site : Site σ} (h : (ofTasks tasks site).Orderly up)
    (job : Job σ) (schedule : Schedule) : (run job schedule tasks site).Orderly up :=
  (settle_induction job schedule
    (fun _ move _ _ h found running => Orderly.act h job move found running) h).tick _

/-- With all workers through with their tasks, no call has failed. -/
theorem Orderly.refuses_eq_false {it : Iteration σ} (h : it.Orderly up)
    (scanned : ∀ w ∈ it.workers, w.phase = .ended .scanned) {action : Action}
    (mem : action ∈ it.site.history) : action.refuses = false := by
  cases action with
  | derived number position yields cancels =>
    have bound := h.site.disciplined.worker_lt mem rfl
    refine Bool.eq_false_iff.2 fun refuses => ?_
    have failed := h.refused number _ (List.getElem?_eq_getElem bound) _ mem rfl refuses
    rw [Worker.hasFailed, scanned _ (List.getElem_mem bound)] at failed
    cases failed
  | _ => rfl

/-- With all workers through with their tasks, none has looked without asking for a key since. -/
theorem Orderly.idle {it : Iteration σ} (h : it.Orderly up)
    (scanned : ∀ w ∈ it.workers, w.phase = .ended .scanned) : Action.Idle it.site.history := by
  intro worker latest
  have bound := h.site.disciplined.worker_lt (List.mem_of_find?_eq_some latest) rfl
  have phase := (h.cleared worker _ (List.getElem?_eq_getElem bound)).2 latest
  rw [scanned _ (List.getElem_mem bound)] at phase
  cases phase

end Iteration

/-! ### Searches -/

/-- A search between two batches, in which nothing has gone wrong within an iteration. -/
structure Progress.Orderly (c : Config) (up : Bool) (p : Progress σ) : Prop where
  site : p.site.Orderly c.numTasks.toNat up
  cell : p.site.failure = none
  unrefused : ∀ action ∈ p.site.history, action.refuses = false
  idle : Action.Idle p.site.history

namespace Progress.Orderly

variable {c : Config} {up : Bool} {p : Progress σ} (h : p.Orderly c up)

include h

theorem tick (schedule : Schedule) : (p.tick schedule).Orderly c up where
  site := h.site.tick _
  cell := (p.site.failure_tick _).trans h.cell
  unrefused action mem := by
    refine Bool.eq_false_iff.2 fun refuses => ?_
    rw [h.unrefused action (Site.mem_of_mem_tick mem refuses)] at refuses
    cases refuses
  idle worker := by
    rw [Progress.tick, Site.latestOf_tick]
    exact h.idle worker

/-- With the cell empty, only the flag is a reason to stop. -/
theorem cancelled_eq : p.site.cancelled = (up || p.site.history.any Action.halts) := by
  rw [← h.site.stops, Site.stops, h.cell]
  rfl

theorem look : p.look.Orderly c up where
  site := ⟨.cons h.cancelled_eq h.site.disciplined, h.site.stops⟩
  cell := h.cell
  unrefused := List.forall_mem_cons.2 ⟨rfl, h.unrefused⟩
  idle := h.idle.cons rfl

theorem looked (schedule : Schedule) : (Coordinator.looked schedule p).Orderly c up :=
  (h.tick schedule).look

theorem admitted (schedule : Schedule) : (Coordinator.admitted schedule p).Orderly c up :=
  (h.looked schedule).tick schedule

end Progress.Orderly

namespace Coordinator

variable {c : Coordinator σ} {schedule : Schedule} {seed : Seed} {target : UInt64} {p : Progress σ}
  {up : Bool}

theorem orderly_setOut (c : Coordinator σ) (target : UInt64) (world : σ) (up : Bool) :
    (c.setOut target world up).Orderly c.config up where
  site := ⟨.nil, (Bool.or_false up).symm⟩
  cell := rfl
  unrefused := nofun
  idle := nofun

/-- Behind a look that finds the flag down, nobody but somebody outside does anything up to the
hand-out. -/
theorem admits_admitted (schedule : Schedule) (p : Progress σ)
    (down : (looked schedule p).site.cancelled = false) :
    Action.Admits (admitted schedule p).site.history := by
  have looks : (looked schedule p).site.history =
      .looked false :: (p.tick schedule).site.history := by
    rw [← down]
    rfl
  rw [admitted, Progress.tick, (Site.since_tick _ _).history, looks]
  refine ⟨_, _, rfl, fun action mem => ?_⟩
  split at mem
  · exact List.mem_singleton.1 mem
  · cases mem

theorem orderly_iterate (h : p.Orderly c.config up) (schedule : Schedule) (seed : Seed)
    {batch : Batch} (down : (looked schedule p).site.cancelled = false)
    (handed : c.allocator.nextBatch p.sliding = .ok batch) :
    (c.iterate schedule seed p batch).Orderly up := by
  have admitted := h.admitted schedule
  have site := admitted.site
  rw [← length_tasks handed] at site
  exact (Iteration.orderly_ofTasks site (admits_admitted schedule p down) admitted.idle
    admitted.unrefused).run _ _

/-- Nothing has gone wrong in an iteration that hands over its keys. -/
theorem orderly_advance (h : p.Orderly c.config up) {batch : Batch} {keys : List Key}
    (down : (looked schedule p).site.cancelled = false)
    (handed : c.allocator.nextBatch p.sliding = .ok batch)
    (outcome : (c.iterate schedule seed p batch).outcome = .ok keys) :
    (c.advance p batch.next keys (c.iterate schedule seed p batch).reports
      (c.iterate schedule seed p batch).site).Orderly c.config up := by
  have orderly := orderly_iterate h schedule seed down handed
  have quiet := (Iteration.outcome_eq_ok_iff.1 outcome).1
  have scanned : ∀ w ∈ (c.iterate schedule seed p batch).workers, w.phase = .ended .scanned :=
    fun w mem => scanned_iterate h.cell quiet mem
  exact ⟨length_workers_iterate h.cell handed ▸ orderly.site, Site.failure_eq_none quiet,
    fun action mem => orderly.refuses_eq_false scanned mem, orderly.idle scanned⟩

theorem Reached.orderly {q : Progress σ} {k : Nat} (h : Reached c schedule seed target p k q)
    (start : p.Orderly c.config up) : q.Orderly c.config up :=
  h.of_advance (motive := fun _ q => q.Orderly c.config up) start
    fun _ _ _ _ orderly down handed outcome =>
    orderly_advance orderly down handed outcome

theorem Rounded.disciplined (h : p.Orderly c.config up) {run : Run σ}
    (last : Rounded c schedule seed target p (.ended run)) :
    Disciplined c.config.numTasks.toNat up run.history.reverse := by
  have finished (site : Site σ) (result : Except Error Report) (events : List Event) :
      ({ p with site }.finish result events).history.reverse = site.history :=
    List.reverse_reverse _
  cases last with
  | enough => exact (finished p.site _ _).symm ▸ h.site.disciplined
  | cancelled =>
    exact (finished (looked schedule p).site _ _).symm ▸ (h.looked schedule).site.disciplined
  | limited | exhausted =>
    exact (finished (admitted schedule p).site _ _).symm ▸ (h.admitted schedule).site.disciplined
  | @failed batch _ _ down _ handed | @interrupted batch _ down _ handed =>
    rw [finished, ← length_workers_iterate h.cell handed]
    exact (orderly_iterate h schedule seed down handed).site.disciplined

theorem disciplined_run (c : Coordinator σ) (schedule : Schedule) (seed : Seed) (target : UInt64)
    (world : σ) (cancelled : Bool) :
    Disciplined c.config.numTasks.toNat cancelled
      (c.run schedule seed target world cancelled).history.reverse := by
  by_cases asked : target = 0
  · rw [run, if_pos asked]
    exact .nil
  · obtain ⟨k, p, reached, last⟩ := c.exists_reached_rounded schedule seed asked world cancelled
    exact last.disciplined (reached.orderly (c.orderly_setOut target world cancelled))

end Coordinator

/-- What is still done behind a signal: each worker makes at most one more call, which is not the
worker of the signal and has looked last of all it did before, and at most one more batch goes to
the workers. It goes to them only if the signal comes from outside and behind the look that has
admitted the batch; and then nobody makes a call. -/
structure WindsUp (workers : Nat) (before : List Action) (signal : Action)
    (after : List Action) : Prop where
  once : (Action.callers after).Nodup
  cleared : ∀ worker ∈ Action.callers after, worker < workers ∧ signal.worker? ≠ some worker ∧
    before.findRev? (·.worker? == some worker) = some (.polled worker false)
  length : (Action.calls after).length ≤ workers
  others : signal.worker?.isSome = true → (Action.calls after).length ≤ workers - 1
  closed : signal.worker?.isSome = true → ∀ action ∈ after, action.handsOut = false
  further : after.countP Action.handsOut ≤ 1
  admitted : ∀ tasks, .handedOut tasks ∈ after → signal = .cancelled ∧ Action.calls after = [] ∧
    ∃ past since, before = past ++ .looked false :: since ∧ ∀ action ∈ since, action = .cancelled

theorem Disciplined.windsUp {workers : Nat} {up : Bool} {before after : List Action}
    {signal : Action}
    (h : Disciplined workers up (after.reverse ++ signal :: before.reverse))
    (halts : signal.halts = true) : WindsUp workers before signal after := by
  have halted : (up || (signal :: before.reverse).any Action.halts) = true := by
    rw [List.any_cons, halts, Bool.true_or, Bool.or_true]
  have once : (Action.callers after).Nodup := by
    rw [← List.nodup_reverse, ← Action.callers_reverse]
    exact h.nodup_callers halted
  have cleared : ∀ worker ∈ Action.callers after, worker < workers ∧
      signal.worker? ≠ some worker ∧
      before.findRev? (·.worker? == some worker) = some (.polled worker false) := by
    intro worker mem
    obtain ⟨position, yields, cancels, called⟩ := Action.mem_callers.1 mem
    have bound := h.worker_lt (List.mem_append_left _ (List.mem_reverse.2 called)) rfl
    rw [← List.mem_reverse, ← Action.callers_reverse] at mem
    have latest := (h.count_callers halted worker).2.1 mem
    have apart : signal.worker? ≠ some worker := by
      intro own
      rw [Action.latestOf_cons_self own, Option.some.injEq] at latest
      rw [latest] at halts
      cases halts
    rw [Action.latestOf_cons_of_ne apart] at latest
    exact ⟨bound, apart, List.findRev?_eq_find?_reverse.trans latest⟩
  have calls : (Action.calls after).length = (Action.callers after).length :=
    (List.length_map _).symm
  have admitted (tasks : List Task) (mem : .handedOut tasks ∈ after) :
      signal = .cancelled ∧ Action.calls after = [] ∧ ∃ past since,
        before = past ++ .looked false :: since ∧ ∀ action ∈ since, action = .cancelled := by
    have mem := List.mem_reverse.2 mem
    have none := h.callers_eq_nil_of_handedOut halts mem
    rw [Action.callers_reverse, List.reverse_eq_nil_iff, Action.callers, List.map_eq_nil_iff]
      at none
    obtain ⟨more, rest, split⟩ := List.append_of_mem mem
    rw [split, List.append_assoc, List.cons_append] at h
    obtain ⟨outside, ⟨since, past, admits, quiet⟩, -⟩ := h.of_append.unseen_of_handedOut halts
    refine ⟨outside, none, past.reverse, since.reverse, ?_, fun action there =>
      quiet action (List.mem_reverse.1 there)⟩
    rw [← List.reverse_reverse before, admits, List.reverse_append, List.reverse_cons,
      List.append_assoc, List.singleton_append]
  refine ⟨once, cleared, ?_, fun own => ?_, fun own action mem => ?_, ?_, admitted⟩
  · have within := once.length_le_of_subset fun worker mem =>
      List.mem_range.2 (cleared worker mem).1
    rwa [calls, ← List.length_range (n := workers)]
  · obtain ⟨sender, own⟩ := Option.isSome_iff_exists.1 own
    have bound := h.worker_lt (List.mem_append_right _ List.mem_cons_self) own
    have within : (Action.callers after).length ≤ ((List.range workers).erase sender).length := by
      refine once.length_le_of_subset fun worker mem => ?_
      obtain ⟨known, apart, -⟩ := cleared worker mem
      refine (List.mem_erase_of_ne fun same => apart ?_).2 (List.mem_range.2 known)
      rw [own, same]
    rwa [calls, ← List.length_range (n := workers),
      ← List.length_erase_of_mem (List.mem_range.2 bound)]
  · refine Bool.eq_false_iff.2 fun hands => ?_
    obtain ⟨tasks, rfl⟩ := Action.exists_of_handsOut hands
    rw [(admitted tasks mem).1] at own
    cases own
  · rw [← List.countP_reverse]
    exact h.countP_handsOut_le halts

/-- With the flag up at first nobody calls. -/
theorem Disciplined.callers_eq_nil {workers : Nat} {history : List Action}
    (h : Disciplined workers true history) : Action.callers history = [] := by
  refine List.eq_nil_iff_forall_not_mem.2 fun worker mem => ?_
  rw [← List.append_nil history] at h
  have latest := (h.count_callers (Bool.true_or _) worker).2.1 mem
  cases latest

/-- In every search, under every interleaving, a reason to stop leaves at most one more call to each
worker, and none to the worker that gives it. It leaves at most one more batch, for which the
coordinator has looked already and in which nobody calls, and none if a worker gives it. With the
flag up at first there is no call and no batch at all, and a single worker makes no call behind one
of its own that cancels or fails. -/
theorem stop_signal_bounds_remaining_calls (c : Coordinator σ) (schedule : Schedule) (seed : Seed)
    (target : UInt64) (world : σ) (cancelled : Bool) :
    ∀ run, run = c.run schedule seed target world cancelled →
      (cancelled = true →
        Action.calls run.history = [] ∧ ∀ action ∈ run.history, action.handsOut = false) ∧
      ∀ before signal after, run.history = before ++ signal :: after →
        (signal.raises = true ∨ signal.records = true →
          WindsUp c.config.numTasks.toNat before signal after) ∧
        ∀ worker position yields cancels,
          c.config.numTasks = 1 → signal = .derived worker position yields cancels →
          cancels = true ∨ yields = false →
          Action.calls after = [] ∧ ∀ action ∈ after, action.handsOut = false := by
  rintro run rfl
  have disciplined := c.disciplined_run schedule seed target world cancelled
  refine ⟨fun up => ?_, fun before signal after split => ?_⟩
  · subst up
    have quiet := disciplined.callers_eq_nil
    rw [Action.callers_reverse, List.reverse_eq_nil_iff, Action.callers, List.map_eq_nil_iff]
      at quiet
    exact ⟨quiet, fun action mem =>
      disciplined.handsOut_eq_false_of_up (List.mem_reverse.2 mem)⟩
  · rw [split, List.reverse_append, List.reverse_cons, List.append_assoc, List.singleton_append]
      at disciplined
    have windsUp (halts : signal.raises = true ∨ signal.records = true) :
        WindsUp c.config.numTasks.toNat before signal after :=
      disciplined.windsUp (Bool.or_eq_true_iff.2 halts)
    refine ⟨windsUp, ?_⟩
    rintro worker position yields cancels single rfl (rfl | rfl)
    · have rest := windsUp (.inl rfl)
      have none := rest.others rfl
      rw [single] at none
      exact ⟨List.eq_nil_of_length_eq_zero (Nat.le_zero.1 none), rest.closed rfl⟩
    · refine ⟨?_, fun action mem =>
        disciplined.handsOut_eq_false_of_refuses rfl (List.mem_reverse.2 mem)⟩
      have quiet := disciplined.notMem_callers_of_refuses rfl rfl
      have only {number : Nat} (h : number < c.config.numTasks.toNat) : number = 0 := by
        rw [single] at h
        exact Nat.lt_one_iff.1 h
      rw [← List.map_eq_nil_iff (f := Prod.fst)]
      refine List.eq_nil_iff_forall_not_mem.2 fun other mem => quiet ?_
      obtain ⟨position', yields', cancels', called⟩ := Action.mem_callers.1 mem
      have first := disciplined.worker_lt (List.mem_append_left _ (List.mem_reverse.2 called)) rfl
      have own := disciplined.worker_lt (List.mem_append_right _ List.mem_cons_self) rfl
      rw [Action.callers_reverse, List.mem_reverse, only own, ← only first]
      exact mem

/-- A search of two workers with two candidates each, whose calls follow a script. -/
def cueSearch : Coordinator (Unit × Rehearsal.Script) where
  deriver := Rehearsal.scripted Iteration.evenStubs.deriver
  evaluator := ⟨Iteration.evenStubs.evaluator.constraints, Rehearsal.byRemainder⟩
  config := ⟨5, 2, 2, false, none⟩
  allocator := (evenSearch none).allocator
  allocator_eq := rfl

/-- The workers take turns, the second one first, and nobody outside cancels. -/
def secondFirst : Schedule := fun step => ⟨false, (step + 1) % 2⟩

/-- Somebody outside cancels right behind the first look of the coordinator. -/
def cancelBehindLook : Schedule := fun step => ⟨step == 1, step % 2⟩

theorem history_cancelBehindLook :
    (cueSearch.run cancelBehindLook ⟨[]⟩ 3 ((), ⟨[], []⟩) false).history =
      [.looked false] ++ .cancelled ::
        [.handedOut [⟨5, 7, false⟩, ⟨7, 9, false⟩], .polled 0 true, .polled 1 true] :=
  Coordinator.run_of_within? (by decide) Run.history 2 (by cbv)

/-- In the first search the first worker has looked already when the second one's call cancels, and
in the second one the coordinator has when somebody outside does. -/
theorem stop_signal_bounds_remaining_calls_cueSearch :
    (∃ before after,
      (cueSearch.run secondFirst ⟨[]⟩ 3 ((), ⟨[⟨⟨0, 7⟩, none, ()⟩], []⟩) false).history =
        before ++ .derived 1 ⟨0, 7⟩ true true :: after ∧
      WindsUp 2 before (.derived 1 ⟨0, 7⟩ true true) after ∧
      Action.calls after = [(0, ⟨0, 5⟩)] ∧ (Action.calls after).length ≤ 1) ∧
    ∃ before after,
      (cueSearch.run cancelBehindLook ⟨[]⟩ 3 ((), ⟨[], []⟩) false).history =
        before ++ .cancelled :: after ∧
      WindsUp 2 before .cancelled after ∧
      after.countP Action.handsOut = 1 ∧ Action.calls after = [] := by
  have history :
      (cueSearch.run secondFirst ⟨[]⟩ 3 ((), ⟨[⟨⟨0, 7⟩, none, ()⟩], []⟩) false).history =
        [.looked false, .handedOut [⟨5, 7, false⟩, ⟨7, 9, false⟩], .polled 1 false,
          .polled 0 false] ++
          .derived 1 ⟨0, 7⟩ true true ::
            [.derived 0 ⟨0, 5⟩ true false, .polled 1 true, .polled 0 true] :=
    Coordinator.run_of_within? (by decide) Run.history 2 (by cbv)
  obtain ⟨-, split⟩ := stop_signal_bounds_remaining_calls cueSearch secondFirst ⟨[]⟩ 3
    ((), ⟨[⟨⟨0, 7⟩, none, ()⟩], []⟩) false _ rfl
  have windsUp := (split _ _ _ history).1 (.inl rfl)
  obtain ⟨-, split'⟩ := stop_signal_bounds_remaining_calls cueSearch cancelBehindLook ⟨[]⟩ 3
    ((), ⟨[], []⟩) false _ rfl
  have windsUp' := (split' _ _ _ history_cancelBehindLook).1 (.inl rfl)
  exact ⟨⟨_, _, history, windsUp, rfl, windsUp.others rfl⟩,
    ⟨_, _, history_cancelBehindLook, windsUp', rfl,
      (windsUp'.admitted _ List.mem_cons_self).2.1⟩⟩

/-- A batch can be handed out behind a reason to stop. -/
theorem handsOut_behind_cancellation :
    ¬ ∀ before signal after,
      (cueSearch.run cancelBehindLook ⟨[]⟩ 3 ((), ⟨[], []⟩) false).history =
        before ++ signal :: after →
      signal.raises = true → ∀ action ∈ after, action.handsOut = false := by
  intro closed
  have withheld := closed _ _ _ history_cancelBehindLook rfl _ List.mem_cons_self
  cases withheld

end KeySearch.Search
