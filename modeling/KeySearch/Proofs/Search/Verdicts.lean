import KeySearch.Proofs.Search.Visits

/-! What the services make of each candidate. The history of a search tells which keys were asked
for, and in which order; asking again for the same keys in the same order, from the same world on,
gives the same answers (`Job.verdicts`) and the same keys (`Job.gather`). In an iteration the world
is always the one that the calls so far have left, every worker has kept as many keys as its own
calls have met candidates that are accepted, and together these are the keys that were accepted
(`Iteration.Judged`). As no candidate is asked for twice, the verdicts say of every candidate
whether it was accepted, and the keys of a range of candidates can be counted by that. -/

namespace KeySearch.Search

variable {σ : Type}

/-! ### Asking again -/

/-- A call for a candidate, and whether the services gave a key for it and accepted that. -/
structure Verdict where
  worker : Nat
  position : Position
  accepted : Bool

namespace Job

/-- Whether there is a key at the position that is accepted, and the world behind the answer. -/
def judge (job : Job σ) (position : Position) (world : σ) : Bool × σ :=
  let (reply, world) := job.deriver.derive job.seed position world
  match reply.outcome with
  | .error _ => (false, world)
  | .ok key => job.evaluator.satisfies key world

/-- The verdicts on the candidates of some calls, made one after the other from a world on. -/
def verdicts (job : Job σ) : (calls : List (Nat × Position)) → σ → List Verdict
  | [], _ => []
  | (worker, position) :: calls, world =>
    ⟨worker, position, (job.judge position world).1⟩ ::
      job.verdicts calls (job.judge position world).2

/-- The key at the position, if there is one. -/
def yield? (job : Job σ) (position : Position) (world : σ) : Option Key :=
  (job.deriver.derive job.seed position world).1.outcome.toOption

/-- The key at the position, if there is one that is accepted. -/
def keep? (job : Job σ) (position : Position) (world : σ) : Option Key :=
  if (job.judge position world).1 then job.yield? position world else none

/-- What is read off at each of some calls, made one after the other from a world on. -/
def gather (job : Job σ) (read : Position → σ → Option Key) :
    (calls : List (Nat × Position)) → σ → List Key
  | [], _ => []
  | (_, position) :: calls, world =>
    (read position world).toList ++ job.gather read calls (job.judge position world).2

/-- The world behind the calls. -/
def worldBehind (job : Job σ) (calls : List (Nat × Position)) (world : σ) : σ :=
  calls.foldl (fun world call => (job.judge call.2 world).2) world

variable {job : Job σ} {position : Position} {world : σ}

theorem judge_of_error {reply : Derivation.Reply} {after : σ} {cause : Derivation.Error}
    (call : job.deriver.derive job.seed position world = (reply, after))
    (outcome : reply.outcome = .error cause) : job.judge position world = (false, after) := by
  simp only [judge, call, outcome]

theorem judge_of_ok {reply : Derivation.Reply} {after : σ} {key : Key}
    (call : job.deriver.derive job.seed position world = (reply, after))
    (outcome : reply.outcome = .ok key) :
    job.judge position world = job.evaluator.satisfies key after := by
  simp only [judge, call, outcome]

theorem yield?_of_error {reply : Derivation.Reply} {after : σ} {cause : Derivation.Error}
    (call : job.deriver.derive job.seed position world = (reply, after))
    (outcome : reply.outcome = .error cause) : job.yield? position world = none := by
  rw [yield?, call, outcome]
  rfl

theorem yield?_of_ok {reply : Derivation.Reply} {after : σ} {key : Key}
    (call : job.deriver.derive job.seed position world = (reply, after))
    (outcome : reply.outcome = .ok key) : job.yield? position world = some key := by
  rw [yield?, call, outcome]
  rfl

/-- Where a key is accepted, there is one. -/
theorem length_keep? (job : Job σ) (position : Position) (world : σ) :
    (job.keep? position world).toList.length = (job.judge position world).1.toNat := by
  rcases call : job.deriver.derive job.seed position world with ⟨reply, after⟩
  cases outcome : reply.outcome with
  | error cause =>
    rw [keep?, judge_of_error call outcome]
    rfl
  | ok key =>
    rw [keep?, yield?_of_ok call outcome]
    cases (job.judge position world).1 <;> rfl

theorem worldBehind_append (job : Job σ) (calls more : List (Nat × Position)) (world : σ) :
    job.worldBehind (calls ++ more) world = job.worldBehind more (job.worldBehind calls world) :=
  List.foldl_append

theorem verdicts_append (job : Job σ) (calls more : List (Nat × Position)) (world : σ) :
    job.verdicts (calls ++ more) world =
      job.verdicts calls world ++ job.verdicts more (job.worldBehind calls world) := by
  induction calls generalizing world with
  | nil => rfl
  | cons call calls ih => exact congrArg (_ :: ·) (ih _)

theorem gather_append (job : Job σ) (read : Position → σ → Option Key)
    (calls more : List (Nat × Position)) (world : σ) :
    job.gather read (calls ++ more) world =
      job.gather read calls world ++ job.gather read more (job.worldBehind calls world) := by
  induction calls generalizing world with
  | nil => rfl
  | cons call calls ih =>
    rw [List.cons_append, gather, gather, ih, List.append_assoc]
    rfl

theorem gather_append_singleton (job : Job σ) (read : Position → σ → Option Key)
    (calls : List (Nat × Position)) (call : Nat × Position) (world : σ) :
    job.gather read (calls ++ [call]) world =
      job.gather read calls world ++ (read call.2 (job.worldBehind calls world)).toList := by
  rw [gather_append, gather, gather, List.append_nil]

theorem map_position_verdicts (job : Job σ) (calls : List (Nat × Position)) (world : σ) :
    (job.verdicts calls world).map Verdict.position = calls.map Prod.snd := by
  induction calls generalizing world with
  | nil => rfl
  | cons call calls ih => exact congrArg (_ :: ·) (ih _)

/-- The verdicts on the calls of one worker. -/
theorem map_position_filter_verdicts (job : Job σ) (number : Nat)
    (calls : List (Nat × Position)) (world : σ) :
    ((job.verdicts calls world).filter (·.worker == number)).map Verdict.position =
      requestsOf number calls := by
  induction calls generalizing world with
  | nil => rfl
  | cons call calls ih =>
    rw [verdicts, requestsOf, List.filter_cons, List.filter_cons]
    split
    · exact congrArg (_ :: ·) (ih _)
    · exact ih _

end Job

/-! ### Counting by verdicts -/

/-- Whether the verdicts say that the candidate was accepted. -/
def accepts (verdicts : List Verdict) (position : Position) : Bool :=
  verdicts.any fun verdict => verdict.position == position && verdict.accepted

theorem accepts_of_mem {verdicts : List Verdict} (distinct : (verdicts.map Verdict.position).Nodup)
    {verdict : Verdict} (mem : verdict ∈ verdicts) :
    accepts verdicts verdict.position = verdict.accepted := by
  rw [accepts, Bool.eq_iff_iff, List.any_eq_true]
  constructor
  · rintro ⟨other, there, same⟩
    rw [Bool.and_eq_true, beq_iff_eq] at same
    cases List.inj_on_of_nodup_map distinct there mem same.1
    exact same.2
  · intro accepted
    exact ⟨verdict, mem, by rw [accepted, beq_self_eq_true, Bool.and_self]⟩

/-- Of the candidates of some verdicts as many are accepted as these say. -/
theorem countP_accepts {verdicts part : List Verdict}
    (distinct : (verdicts.map Verdict.position).Nodup) (subset : part ⊆ verdicts) :
    (part.map Verdict.position).countP (accepts verdicts) = part.countP Verdict.accepted := by
  rw [List.countP_map]
  refine List.countP_congr fun verdict mem => ?_
  rw [Function.comp, accepts_of_mem distinct (subset mem)]

/-! ### Services that keep nothing in mind -/

/-- Whether there is a key at the position that is wanted. -/
def Oracle.accepts (o : Oracle) (position : Position) : Bool :=
  match o.outcome position with
  | .ok key => o.wanted key
  | .error _ => false

theorem Oracle.isSome_hitAt (o : Oracle) (accountOnly : Bool) (index : Nat) :
    (o.hitAt accountOnly index).isSome = o.accepts (positionAt accountOnly (.ofNat index)) := by
  unfold hitAt accepts outcomeAt
  cases o.outcome (positionAt accountOnly (.ofNat index)) with
  | error cause => rfl
  | ok key => cases wanted : o.wanted key <;> simp [wanted]

namespace Job

variable {job : Job σ} {inv : σ → Prop} {o : Oracle} (behaves : job.Behaves inv o)

include behaves

theorem Behaves.judge_eq (position : Position) {world : σ} (h : inv world) :
    (job.judge position world).1 = o.accepts position ∧ inv (job.judge position world).2 := by
  have outcome := behaves.outcome position h
  have keeps := behaves.derive_keeps position h
  rcases call : job.deriver.derive job.seed position world with ⟨reply, after⟩
  rw [call] at outcome keeps
  rw [Oracle.accepts, ← outcome]
  cases answer : reply.outcome with
  | error cause =>
    rw [judge_of_error call answer]
    exact ⟨rfl, keeps⟩
  | ok key =>
    rw [judge_of_ok call answer]
    exact ⟨behaves.wanted key keeps, behaves.satisfies_keeps key keeps⟩

theorem Behaves.accepted_eq {calls : List (Nat × Position)} {world : σ} (h : inv world) :
    ∀ verdict ∈ job.verdicts calls world, verdict.accepted = o.accepts verdict.position := by
  induction calls generalizing world with
  | nil => exact fun _ mem => absurd mem List.not_mem_nil
  | cons call calls ih =>
    obtain ⟨same, keeps⟩ := behaves.judge_eq call.2 h
    intro verdict mem
    rcases List.mem_cons.1 mem with rfl | later
    · exact same
    · exact ih keeps verdict later

end Job

/-! ### Verdicts of an iteration -/

/-- A call has yielded a key. -/
def Action.yields : Action → Bool
  | .derived _ _ yields _ => yields
  | _ => false

/-- A worker makes a call and keeps a key if its candidate is accepted, or does neither. -/
theorem Worker.Stepped.exists_judged {job : Job σ} {w : Worker} {number : Nat} {site : Site σ}
    {after : Worker × Site σ} (h : Stepped job w number site after) :
    ∃ action, after.2.history = action :: site.history ∧
      (action.call? = none ∧ action.yields = false ∧ after.2.world = site.world ∧
          after.1.kept = w.kept ∨
        ∃ position, action.call? = some (number, position) ∧
          action.yields = (job.yield? position site.world).isSome ∧
          after.2.world = (job.judge position site.world).2 ∧
          after.1.kept = (job.keep? position site.world).toList ++ w.kept) := by
  cases h with
  | brokeOff | cleared | recorded => exact ⟨_, rfl, .inl ⟨rfl, rfl, rfl, rfl⟩⟩
  | refused _ call outcome =>
    refine ⟨_, rfl, .inr ⟨_, rfl, ?_⟩⟩
    rw [Job.keep?, Job.judge_of_error call outcome, Job.yield?_of_error call outcome]
    exact ⟨rfl, rfl, rfl⟩
  | @examined reply key accepted world world' _ call outcome judged =>
    refine ⟨_, rfl, .inr ⟨_, rfl, ?_⟩⟩
    rw [Job.keep?, Job.judge_of_ok call outcome, Job.yield?_of_ok call outcome, judged]
    refine ⟨rfl, rfl, ?_⟩
    cases accepted <;> rfl

namespace Iteration

/-- The calls since the batch was handed out account for the world, for how many keys each worker
has kept and for all keys at hand. -/
structure Judged (job : Job σ) (world : σ) (it : Iteration σ) (during : List Action) : Prop where
  behind : it.site.world = job.worldBehind (Action.calls during) world
  kept : ∀ number w, it.workers[number]? = some w →
    w.kept.length =
      ((job.verdicts (Action.calls during) world).filter (·.worker == number)).countP
        Verdict.accepted
  keys : (it.workers.flatMap Worker.keys).Perm (job.gather job.keep? (Action.calls during) world)

variable {job : Job σ} {world : σ} {it : Iteration σ} {during : List Action}

theorem judged_ofTasks (job : Job σ) (tasks : List Task) (site : Site σ) :
    (ofTasks tasks site).Judged job site.world [] where
  behind := rfl
  kept number w found := by
    obtain ⟨t, -, rfl⟩ := List.mem_map.1 (List.mem_of_getElem? found)
    rfl
  keys := by
    have none : (tasks.map Worker.ofTask).flatMap Worker.keys = [] := by
      simp [List.flatMap_eq_nil_iff, Worker.keys, Worker.ofTask]
    rw [ofTasks, none]
    exact .nil

/-- Somebody outside does something, perhaps. -/
theorem Judged.outside (h : it.Judged job world during) (move : Move) :
    (⟨it.workers, it.site.tick move⟩ : Iteration σ).Judged job world
      (during ++ if move.cancels then [.cancelled] else []) := by
  have calls : Action.calls (during ++ if move.cancels then [.cancelled] else []) =
      Action.calls during := by
    rw [Action.calls_append, List.append_right_eq_self]
    split <;> rfl
  refine ⟨?_, ?_, ?_⟩
  · rw [calls, ← h.behind]
    exact it.site.world_tick move
  · rw [calls]
    exact h.kept
  · rw [calls]
    exact h.keys

/-- A worker takes a step. -/
theorem Judged.step (h : it.Judged job world during) {number : Nat} {w : Worker}
    (found : it.workers[number]? = some w) (running : w.isRunning = true) :
    ∃ action, (w.step job number it.site).2.history = action :: it.site.history ∧
      (⟨it.workers.set number (w.step job number it.site).1, (w.step job number it.site).2⟩ :
        Iteration σ).Judged job world (during ++ [action]) := by
  obtain ⟨action, history, ⟨silent, -, same, kept⟩ | ⟨position, called, -, after, kept⟩⟩ :=
    (Worker.stepped_step job number it.site running).exists_judged
  · have calls : Action.calls (during ++ [action]) = Action.calls during := by
      simp [Action.calls, silent]
    refine ⟨action, history, ?_, fun place v there => ?_, ?_⟩
    · rw [calls, ← h.behind, ← same]
    · rw [calls]
      rcases getElem?_of_set there with ⟨rfl, rfl⟩ | ⟨-, there⟩
      · rw [kept]
        exact h.kept number w found
      · exact h.kept place v there
    · have keys : (w.step job number it.site).1.keys = w.keys ++ [] := by
        rw [Worker.keys, kept, List.append_nil, Worker.keys]
      rw [calls]
      exact (flatMap_set_perm found keys).trans (by rw [List.append_nil]; exact h.keys)
  · have calls : Action.calls (during ++ [action]) =
        Action.calls during ++ [(number, position)] := by
      simp [Action.calls, called]
    have verdicts : job.verdicts (Action.calls (during ++ [action])) world =
        job.verdicts (Action.calls during) world ++
          [⟨number, position, (job.judge position it.site.world).1⟩] := by
      rw [calls, job.verdicts_append, ← h.behind]
      rfl
    refine ⟨action, history, ?_, fun place v there => ?_, ?_⟩
    · rw [calls, job.worldBehind_append, ← h.behind]
      exact after
    · rw [verdicts, List.filter_append, List.countP_append]
      rcases getElem?_of_set there with ⟨rfl, rfl⟩ | ⟨apart, there⟩
      · rw [kept, List.length_append, job.length_keep?, ← h.kept number w found]
        cases accepted : (job.judge position it.site.world).1 <;> simp [Nat.add_comm]
      · rw [← h.kept place v there]
        simp [apart]
    · have keys : (w.step job number it.site).1.keys =
          w.keys ++ (job.keep? position it.site.world).toList := by
        rw [Worker.keys, kept, List.reverse_append, Worker.keys]
        cases job.keep? position it.site.world <;> rfl
      rw [calls, job.gather_append_singleton, ← h.behind]
      exact (flatMap_set_perm found keys).trans (h.keys.append_right _)

/-- The calls between the hand-out of a batch and the join account for all that has changed. -/
theorem exists_judged_run (job : Job σ) (schedule : Schedule) (tasks : List Task) (site : Site σ) :
    ∃ during, (run job schedule tasks site).site.history =
        during.reverse ++ .handedOut tasks :: site.history ∧
      (run job schedule tasks site).Judged job site.world during :=
  exists_during_run job schedule tasks site (judged_ofTasks job tasks site)
    (fun _ _ move judged => judged.outside move)
    (fun _ _ _ _ judged found running => judged.step found running)

end Iteration

end KeySearch.Search
