import KeySearch.Proofs.Search.WorkerProtocol
import Mathlib.Algebra.Order.BigOperators.Group.List
import Mathlib.Algebra.Order.Group.Nat
import Mathlib.Data.List.Flatten

/-! The calls for keys in one iteration, whatever the key service answers. A worker has asked for
the candidates that it has been through and, if its last call has failed, for one more
(`Worker.visited`); these are the first candidates of its task, in their order. What the history
holds since the batch was handed out are the calls of the workers in some order, each worker's own
calls in their order (`Iteration.Traced`). So no candidate of a batch is asked for twice, and if all
workers are through with their tasks, every candidate has been asked for. -/

namespace KeySearch.Search

variable {σ : Type}

/-! ### Calls in a history -/

namespace Action

/-- The call for a key, if the step is one: who asks, and for which position. -/
def call? : Action → Option (Nat × Position)
  | .derived worker position _ _ => some (worker, position)
  | _ => none

/-- The worker whose step it is, if it is the step of a worker. -/
def worker? : Action → Option Nat
  | .polled worker _ | .derived worker _ _ _ | .recorded worker _ => some worker
  | .cancelled | .looked _ | .handedOut _ => none

/-- A batch goes to the workers. -/
def handsOut : Action → Bool
  | .handedOut _ => true
  | _ => false

def calls (history : List Action) : List (Nat × Position) := history.filterMap call?

theorem calls_append (history more : List Action) :
    calls (history ++ more) = calls history ++ calls more := List.filterMap_append

theorem calls_append_singleton (history : List Action) (action : Action) :
    calls (history ++ [action]) = calls history ++ action.call?.toList := by
  rw [calls_append]
  cases called : action.call? <;> simp [calls, called]

theorem calls_reverse (history : List Action) : calls history.reverse = (calls history).reverse :=
  List.filterMap_reverse

theorem calls_eq_nil {silent : List Action} (quiet : ∀ action ∈ silent, action.call? = none) :
    calls silent = [] := List.filterMap_eq_nil_iff.2 quiet

theorem requested_eq_map_calls (history : List Action) :
    requested history = (calls history).map Prod.snd := by
  rw [requested, calls, List.map_filterMap]
  congr 1
  funext action
  cases action <;> rfl

theorem worker?_of_call? {action : Action} {call : Nat × Position} (h : action.call? = some call) :
    action.worker? = some call.1 := by
  cases action with
  | derived => cases h; rfl
  | _ => cases h

theorem handsOut_eq_false {action : Action} {worker : Nat} (h : action.worker? = some worker) :
    action.handsOut = false := by
  cases action with
  | handedOut => cases h
  | _ => rfl

/-- A step before a batch is no call, and hands nothing out. -/
theorem of_isSilent {action : Action} (h : action.isSilent = true) :
    action.call? = none ∧ action.handsOut = false := by
  cases action with
  | cancelled | looked => exact ⟨rfl, rfl⟩
  | _ => cases h

end Action

/-- The positions that one worker asks for. -/
def requestsOf (worker : Nat) (calls : List (Nat × Position)) : List Position :=
  (calls.filter (·.1 == worker)).map Prod.snd

theorem requestsOf_append (worker : Nat) (calls more : List (Nat × Position)) :
    requestsOf worker (calls ++ more) = requestsOf worker calls ++ requestsOf worker more := by
  simp [requestsOf]

/-! ### The candidates of one worker -/

namespace Worker

/-- How many candidates the worker has asked for. -/
def asked (w : Worker) : Nat :=
  match w.phase with
  | .failing _ | .ended (.failed _) => w.next.toNat - w.task.start.toNat + 1
  | _ => w.next.toNat - w.task.start.toNat

/-- The candidates that the worker has asked for. -/
def visited (w : Worker) : List Position := w.task.firstCandidates w.asked

/-- The worker goes up from the start of its task, is through with it exactly when no candidate is
left, and keeps at most one key for every candidate. -/
structure Proceeds (w : Worker) : Prop where
  low : w.task.start.toNat ≤ w.next.toNat
  more : w.next.toNat < w.task.stop.toNat ↔ w.phase ≠ .ended .scanned
  kept : w.kept.length ≤ w.visited.length

theorem lt_iff_phaseAt_ne (t : Task) (index : Nat) :
    index < t.stop.toNat ↔ phaseAt t index ≠ .ended .scanned := by
  unfold phaseAt
  split <;> simp_all

theorem asked_of_phaseAt {w : Worker} {index : Nat} (h : w.phase = phaseAt w.task index) :
    w.asked = w.next.toNat - w.task.start.toNat := by
  by_cases more : index < w.task.stop.toNat <;> simp [asked, h, phaseAt, more]

theorem visited_ofTask (t : Task) : (ofTask t).visited = [] := by
  rw [visited, asked_of_phaseAt rfl, Task.firstCandidates_eq]
  simp [ofTask, positions]

theorem proceeds_ofTask (t : Task) : (ofTask t).Proceeds where
  low := Nat.le_refl _
  more := lt_iff_phaseAt_ne t _
  kept := Nat.zero_le _

/-- One more candidate is the next one. -/
theorem firstCandidates_succ {w : Worker} (low : w.task.start.toNat ≤ w.next.toNat)
    (more : w.next.toNat < w.task.stop.toNat) :
    w.task.firstCandidates (w.next.toNat - w.task.start.toNat + 1) =
      w.task.firstCandidates (w.next.toNat - w.task.start.toNat) ++
        [w.task.position w.next] := by
  rw [Task.firstCandidates_eq, Task.firstCandidates_eq, Nat.min_eq_left (by omega),
    Nat.min_eq_left (by omega), positions_add,
    show w.task.start.toNat + (w.next.toNat - w.task.start.toNat) = w.next.toNat by omega]
  simp [positions, Task.position]

/-- One step of a worker: it adds one action of this worker to the history, and with it the
candidate that it asks for, if it does. -/
theorem Stepped.exists_action {job : Job σ} {w : Worker} {number : Nat} {site : Site σ}
    {after : Worker × Site σ} (h : Stepped job w number site after) (proceeds : w.Proceeds) :
    ∃ action, after.2.history = action :: site.history ∧ action.worker? = some number ∧
      after.1.Proceeds ∧
      after.1.visited = w.visited ++ (action.call?.map Prod.snd).toList := by
  have same {phase : Phase} (unasked : { w with phase }.asked = w.asked)
      (open' : w.phase ≠ .ended .scanned) (still : phase ≠ .ended .scanned) :
      { w with phase }.Proceeds ∧ { w with phase }.visited = w.visited ++ [] := by
    have visited : { w with phase }.visited = w.visited := by
      rw [Worker.visited, Worker.visited, unasked]
    rw [List.append_nil]
    refine ⟨⟨proceeds.low, ?_, ?_⟩, visited⟩
    · exact proceeds.more.trans (iff_of_true open' still)
    · rw [visited]
      exact proceeds.kept
  cases h with
  | brokeOff phase _ =>
    exact ⟨_, rfl, rfl, same (by simp [asked, phase]) (by simp [phase]) (by simp)⟩
  | cleared phase _ =>
    exact ⟨_, rfl, rfl, same (by simp [asked, phase]) (by simp [phase]) (by simp)⟩
  | recorded phase =>
    exact ⟨_, rfl, rfl, same (by simp [asked, phase]) (by simp [phase]) (by simp)⟩
  | @refused reply cause world phase =>
    have more := proceeds.more.2 (by simp [phase])
    have before : w.visited = w.task.firstCandidates (w.next.toNat - w.task.start.toNat) := by
      rw [visited, asked, phase]
    have after := (firstCandidates_succ proceeds.low more).trans (by rw [← before])
    refine ⟨_, rfl, rfl, ⟨proceeds.low, iff_of_true more (by simp), ?_⟩, after⟩
    refine Nat.le_trans proceeds.kept ?_
    rw [show Worker.visited { w with phase := .failing ⟨w.task.position w.next, cause⟩ } = _ from
      after, List.length_append]
    exact Nat.le_add_right _ _
  | @examined reply key accepted world world' phase =>
    have more := proceeds.more.2 (by simp [phase])
    have before : w.visited = w.task.firstCandidates (w.next.toNat - w.task.start.toNat) := by
      rw [visited, asked, phase]
    have next : (w.next + 1).toNat = w.next.toNat + 1 := by
      have := w.task.stop.toNat_lt
      rw [UInt64.toNat_add, UInt64.toNat_one, Nat.mod_eq_of_lt (by omega)]
    have low := proceeds.low
    have after : Worker.visited
        { w with
          next := w.next + 1
          kept := if accepted then key :: w.kept else w.kept
          phase := phaseAt w.task (w.next.toNat + 1) } = w.visited ++ [w.task.position w.next] := by
      rw [visited, asked_of_phaseAt rfl, before, ← firstCandidates_succ proceeds.low more, next,
        Nat.sub_add_comm low]
    refine ⟨_, rfl, rfl, ⟨?_, ?_, ?_⟩, after⟩
    · change w.task.start.toNat ≤ (w.next + 1).toNat
      omega
    · rw [next]
      exact lt_iff_phaseAt_ne w.task _
    · rw [after, List.length_append]
      have := proceeds.kept
      cases accepted
      · exact Nat.le_add_right_of_le this
      · exact Nat.succ_le_succ this

/-- What a worker has asked for is a first part of its task. -/
theorem visited_prefix (w : Worker) : w.visited <+: w.task.candidates := by
  rw [visited, Task.firstCandidates_eq, Task.candidates_eq]
  exact positions_prefix (Nat.min_le_right _ _)

/-- A worker at its regular end has asked for its whole task. -/
theorem Proceeds.visited_eq {w : Worker} (h : w.Proceeds) (phase : w.phase = .ended .scanned) :
    w.visited = w.task.candidates := by
  have through : w.task.stop.toNat ≤ w.next.toNat :=
    Nat.le_of_not_lt fun more => h.more.1 more phase
  rw [visited, Task.firstCandidates_eq, Task.candidates_eq, asked, phase]
  congr 1
  simp only
  omega

end Worker

/-! ### The calls of an iteration -/

/-- The entries of a list in which one is replaced. -/
theorem getElem?_of_set {α : Type} {entries : List α} {place other : Nat} {after entry : α}
    (h : (entries.set place after)[other]? = some entry) :
    place = other ∧ after = entry ∨ place ≠ other ∧ entries[other]? = some entry := by
  rw [List.getElem?_set] at h
  split at h
  · rename_i same
    split at h
    · exact .inl ⟨same, Option.some.inj h⟩
    · cases h
  · rename_i apart
    exact .inr ⟨apart, h⟩

/-- One entry is replaced, and what it stands for grows at the end. -/
theorem flatMap_set_perm {α β : Type} {f : α → List β} {entries : List α} {place : Nat}
    {before after : α} {more : List β} (found : entries[place]? = some before)
    (grown : f after = f before ++ more) :
    ((entries.set place after).flatMap f).Perm (entries.flatMap f ++ more) := by
  induction entries generalizing place with
  | nil => cases found
  | cons entry entries ih =>
    cases place with
    | zero =>
      rw [List.getElem?_cons_zero, Option.some.injEq] at found
      rw [List.set_cons_zero, List.flatMap_cons, List.flatMap_cons, grown, found, List.append_assoc,
        List.append_assoc]
      exact List.perm_append_comm.append_left _
    | succ place =>
      rw [List.set_cons_succ, List.flatMap_cons, List.flatMap_cons, List.append_assoc]
      exact (ih found).append_left _

namespace Iteration

/-- What holds at the hand-out of a batch, and survives moves from outside and steps of running
workers together with the action that each adds, holds at the join of all actions in between. -/
theorem exists_during_run (job : Job σ) (schedule : Schedule) (tasks : List Task) (site : Site σ)
    {motive : Iteration σ → List Action → Prop} (start : motive (ofTasks tasks site) [])
    (outside : ∀ (it : Iteration σ) (during : List Action) (move : Move), motive it during →
      motive ⟨it.workers, it.site.tick move⟩
        (during ++ if move.cancels then [.cancelled] else []))
    (step : ∀ (it : Iteration σ) (during : List Action) (number : Nat) (w : Worker),
      motive it during → it.workers[number]? = some w → w.isRunning = true →
        ∃ action, (w.step job number it.site).2.history = action :: it.site.history ∧
          motive ⟨it.workers.set number (w.step job number it.site).1,
            (w.step job number it.site).2⟩ (during ++ [action])) :
    ∃ during, (run job schedule tasks site).site.history =
        during.reverse ++ .handedOut tasks :: site.history ∧
      motive (run job schedule tasks site) during := by
  have ticked (s : Site σ) (move : Move) : (s.tick move).history =
      (if move.cancels then [.cancelled] else []).reverse ++ s.history := by
    rw [Site.tick]
    split <;> rfl
  have settled := settle_induction job schedule (motive := fun it =>
    ∃ during, it.site.history = during.reverse ++ .handedOut tasks :: site.history ∧
      motive it during)
    (fun it move number w ih found running => by
      obtain ⟨during, history, holds⟩ := ih
      obtain ⟨action, after, holds'⟩ := step ⟨it.workers, it.site.tick move⟩ _ number w
        (outside it during move holds) found running
      rw [act_of_getElem? job move found]
      refine ⟨_, ?_, holds'⟩
      rw [after]
      simp [ticked, history])
    ⟨[], rfl, start⟩
  obtain ⟨during, history, holds⟩ := settled
  refine ⟨_, ?_, outside _ during (schedule ((ofTasks tasks site).settle job schedule).site.clock)
    holds⟩
  rw [run, join, ticked, history]
  simp

/-- What has happened since the batch was handed out, in the order of time: every worker proceeds,
its calls are for the candidates it has asked for, and these are all calls. -/
structure Traced (it : Iteration σ) (during : List Action) : Prop where
  proceeds : ∀ w ∈ it.workers, w.Proceeds
  closed : ∀ action ∈ during, action.handsOut = false
  known : ∀ action ∈ during, ∀ number, action.worker? = some number → number < it.workers.length
  each : ∀ number w, it.workers[number]? = some w →
    requestsOf number (Action.calls during) = w.visited
  all : ((Action.calls during).map Prod.snd).Perm (it.workers.flatMap Worker.visited)

theorem traced_ofTasks (tasks : List Task) (site : Site σ) : (ofTasks tasks site).Traced [] where
  proceeds w mem := by
    obtain ⟨t, -, rfl⟩ := List.mem_map.1 mem
    exact Worker.proceeds_ofTask t
  closed := nofun
  known := nofun
  each number w found := by
    obtain ⟨t, -, rfl⟩ := List.mem_map.1 (List.mem_of_getElem? found)
    rw [Worker.visited_ofTask]
    rfl
  all := by
    have none : (tasks.map Worker.ofTask).flatMap Worker.visited = [] := by
      simp [List.flatMap_eq_nil_iff, Worker.visited_ofTask]
    rw [ofTasks, none]
    exact .nil

/-- Somebody outside does something. -/
theorem Traced.outside {it : Iteration σ} {during : List Action} (h : it.Traced during)
    {silent : List Action} (quiet : ∀ action ∈ silent, action = .cancelled) (site : Site σ) :
    ({ it with site } : Iteration σ).Traced (during ++ silent) := by
  have calls : Action.calls (during ++ silent) = Action.calls during := by
    rw [Action.calls_append, Action.calls_eq_nil fun action mem => quiet action mem ▸ rfl,
      List.append_nil]
  refine ⟨h.proceeds, fun action mem => ?_, fun action mem number worker => ?_, ?_, ?_⟩
  · rcases List.mem_append.1 mem with old | new
    · exact h.closed action old
    · rw [quiet action new]
      rfl
  · rcases List.mem_append.1 mem with old | new
    · exact h.known action old number worker
    · rw [quiet action new] at worker
      cases worker
  · rw [calls]
    exact h.each
  · rw [calls]
    exact h.all

/-- A worker takes a step. -/
theorem Traced.step {it : Iteration σ} {during : List Action} (h : it.Traced during) (job : Job σ)
    {number : Nat} {w : Worker} (found : it.workers[number]? = some w)
    (running : w.isRunning = true) :
    ∃ action, (w.step job number it.site).2.history = action :: it.site.history ∧
      (⟨it.workers.set number (w.step job number it.site).1, (w.step job number it.site).2⟩ :
        Iteration σ).Traced (during ++ [action]) := by
  obtain ⟨action, history, worker, proceeds, visited⟩ :=
    (Worker.stepped_step job number it.site running).exists_action
      (h.proceeds w (List.mem_of_getElem? found))
  have bound := (List.getElem?_eq_some_iff.1 found).1
  have added := Action.calls_append_singleton during action
  refine ⟨action, history, fun v mem => ?_, fun other mem => ?_, fun other mem place worker' => ?_,
    fun place v there => ?_, ?_⟩
  · rcases List.mem_or_eq_of_mem_set mem with old | rfl
    · exact h.proceeds v old
    · exact proceeds
  · rcases List.mem_append.1 mem with old | new
    · exact h.closed other old
    · rw [List.mem_singleton.1 new]
      exact Action.handsOut_eq_false worker
  · rw [List.length_set]
    rcases List.mem_append.1 mem with old | new
    · exact h.known other old place worker'
    · rw [List.mem_singleton.1 new, worker] at worker'
      exact Option.some.inj worker' ▸ bound
  · rw [added, requestsOf_append]
    rcases getElem?_of_set there with ⟨rfl, rfl⟩ | ⟨apart, there⟩
    · rw [h.each number w found, visited]
      cases called : action.call? with
      | none => rfl
      | some call =>
        have own := Action.worker?_of_call? called
        rw [worker, Option.some.injEq] at own
        simp [requestsOf, own]
    · rw [h.each place v there, List.append_right_eq_self]
      cases called : action.call? with
      | none => rfl
      | some call =>
        have own := Action.worker?_of_call? called
        rw [worker, Option.some.injEq] at own
        simpa [requestsOf, ← own] using apart
  · rw [added, List.map_append]
    refine (h.all.append_right _).trans ((flatMap_set_perm found ?_).symm)
    rw [visited]
    cases action.call? <;> rfl

/-- Between the hand-out of a batch and the join, the history holds the calls for the candidates
that the workers have asked for. -/
theorem exists_traced_run (job : Job σ) (schedule : Schedule) (tasks : List Task) (site : Site σ) :
    ∃ during, (run job schedule tasks site).site.history =
        during.reverse ++ .handedOut tasks :: site.history ∧
      (run job schedule tasks site).Traced during :=
  exists_during_run job schedule tasks site (traced_ofTasks tasks site)
    (fun _ _ move traced => traced.outside (by split <;> simp) (Site.tick _ move))
    (fun _ _ _ _ traced found running => traced.step job found running)

namespace Traced

variable {it : Iteration σ} {during : List Action}

/-- No candidate of the tasks is asked for more often than it occurs there. -/
theorem subperm (h : it.Traced during) :
    ((Action.calls during).map Prod.snd).Subperm
      ((it.workers.map Worker.task).flatMap Task.candidates) := by
  refine h.all.subperm.trans (List.Sublist.subperm ?_)
  rw [List.flatMap_map]
  exact List.Sublist.flatMap_right _ fun w _ => w.visited_prefix.sublist

/-- With all workers through with their tasks, every candidate has been asked for. -/
theorem perm_of_scanned (h : it.Traced during)
    (scanned : ∀ w ∈ it.workers, w.phase = .ended .scanned) :
    ((Action.calls during).map Prod.snd).Perm
      ((it.workers.map Worker.task).flatMap Task.candidates) := by
  refine h.all.trans ?_
  rw [List.flatMap_map]
  rw [List.flatMap_congr fun w mem => (h.proceeds w mem).visited_eq (scanned w mem)]

/-- There are no more keys than calls. -/
theorem length_keys_le (h : it.Traced during) :
    (it.workers.flatMap Worker.keys).length ≤ (Action.calls during).length := by
  rw [← List.length_map Prod.snd, h.all.length_eq, List.length_flatMap, List.length_flatMap]
  refine List.sum_le_sum fun w mem => ?_
  rw [Worker.keys, List.length_reverse]
  exact (h.proceeds w mem).kept

end Traced

end Iteration

end KeySearch.Search
