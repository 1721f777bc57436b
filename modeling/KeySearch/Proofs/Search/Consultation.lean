import KeySearch.Proofs.Search.Projection

/-! What a search asks of its assigner, and what comes of the answers. For each key that the key
service yields the assigner is asked once on every axis that the constraints bind, whatever it says
on the other one, and never on a free axis. This is seen in a world that also keeps a log of the
questions (`Assigner.logged`). It is a world behind the calls like any other, so the log follows
from the keys that these have yielded; and as it has no part in the search, the search is the one
without it. The numbers in a tally are the lengths of the log. Of the keys that are yielded the
workers keep those that are accepted, which for an assigner that answers by two functions are the
keys that lie in the wanted shards. -/

namespace KeySearch

variable {σ τ : Type}

/-! ### Questions about one key -/

namespace Shard

/-- On the axes that are bound the first assigner does, through the map, what the second one does.
-/
structure Assigner.LiesOver (a' : Assigner τ) (view : τ → σ) (a : Assigner σ) (c : Constraints) :
    Prop where
  actual (bound : c.actual.isSome) (key : Key) (world : τ) :
    a.actual key c.numShards (view world) = (a'.actual key c.numShards world).map id view
  projected (bound : c.projected.isSome) (key : Key) (world : τ) :
    a.projected key c.numShards (view world) = (a'.projected key c.numShards world).map id view

theorem axisHolds_map {view : τ → σ} {numShards : UInt32} (wanted : Option (ShardId numShards))
    {ask : σ → UInt32 × σ} {ask' : τ → UInt32 × τ}
    (same : wanted.isSome → ∀ world, ask (view world) = (ask' world).map id view) (world : τ) :
    axisHolds wanted ask (view world) = (axisHolds wanted ask' world).map id view := by
  cases wanted with
  | none => rfl
  | some shard => simp only [axisHolds, same rfl world, Prod.map, id_eq]

theorem Assigner.LiesOver.satisfies_map {a' : Assigner τ} {view : τ → σ} {a : Assigner σ}
    {c : Constraints} (lies : a'.LiesOver view a c) (key : Key) (world : τ) :
    satisfies c a key (view world) = (satisfies c a' key world).map id view := by
  simp only [satisfies, axisHolds_map c.actual (fun bound => lies.actual bound key),
    axisHolds_map c.projected (fun bound => lies.projected bound key), Prod.map, id_eq]

/-- The keys that an assigner was asked about on either axis, the latest first. -/
structure Asked where
  (actual projected : List Key)

def Asked.tally (asked : Asked) : Tally := ⟨asked.actual.length, asked.projected.length⟩

/-- The same assigner in a world that also keeps what it is asked. -/
def Assigner.logged (a : Assigner σ) : Assigner (σ × Asked) where
  actual key numShards world :=
    let (shard, inner) := a.actual key numShards world.1
    (shard, (inner, { world.2 with actual := key :: world.2.actual }))
  projected key numShards world :=
    let (shard, inner) := a.projected key numShards world.1
    (shard, (inner, { world.2 with projected := key :: world.2.projected }))

/-- Every one of some keys once on every axis that is bound. -/
def Constraints.queries (c : Constraints) (keys : List Key) : Asked :=
  ⟨if c.actual.isSome then keys else [], if c.projected.isSome then keys else []⟩

theorem Constraints.reverse_queries (c : Constraints) (keys : List Key) :
    (c.queries keys.reverse).actual.reverse = (if c.actual.isSome then keys else []) ∧
      (c.queries keys.reverse).projected.reverse =
        (if c.projected.isSome then keys else []) := by
  simp only [queries, apply_ite List.reverse, List.reverse_reverse, List.reverse_nil, and_self]

theorem Constraints.tally_queries (c : Constraints) (keys : List Key) :
    (c.queries keys).tally =
      ⟨if c.actual.isSome then keys.length else 0,
        if c.projected.isSome then keys.length else 0⟩ := by
  simp only [Asked.tally, queries, apply_ite List.length, List.length_nil]

theorem satisfies_logged (c : Constraints) (a : Assigner σ) (key : Key) (world : σ)
    (keys : List Key) :
    satisfies c a.logged key (world, c.queries keys) =
      ((satisfies c a key world).1, (satisfies c a key world).2, c.queries (key :: keys)) := by
  obtain ⟨numShards, pos, actual, projected⟩ := c
  cases actual <;> cases projected <;> rfl

theorem Assigner.logged_liesOver (a : Assigner σ) (c : Constraints) :
    a.logged.LiesOver Prod.fst a c := ⟨fun _ _ _ => rfl, fun _ _ _ => rfl⟩

/-- To count the questions is to forget all of the log but its length. -/
theorem Assigner.logged_liesOver_counted (a : Assigner σ) (c : Constraints) :
    a.logged.LiesOver (Prod.map id Asked.tally) a.counted c :=
  ⟨fun _ _ _ => rfl, fun _ _ _ => rfl⟩

end Shard

namespace Search

open KeySearch.Shard (Asked Assigner Tally)

/-! ### Keys yielded and kept -/

namespace Job

variable (job : Job σ)

/-- An assigner that answers by two functions has the keys in the wanted shards kept. -/
theorem gather_keep?_eq_filter {actual projected : Key → UInt32 → UInt32}
    (pure : job.evaluator.assigner.Behaves (fun _ => True) actual projected)
    (calls : List (Nat × Position)) (world : σ) :
    job.gather job.keep? calls world =
      (job.gather job.yield? calls world).filter
        (job.evaluator.constraints.admits actual projected) := by
  induction calls generalizing world with
  | nil => rfl
  | cons call calls ih =>
    have one : (job.keep? call.2 world).toList = (job.yield? call.2 world).toList.filter
        (job.evaluator.constraints.admits actual projected) := by
      rcases derived : job.deriver.derive job.seed call.2 world with ⟨reply, after⟩
      cases outcome : reply.outcome with
      | error cause =>
        rw [keep?, judge_of_error derived outcome, yield?_of_error derived outcome]
        rfl
      | ok key =>
        rw [keep?, judge_of_ok derived outcome, yield?_of_ok derived outcome,
          (Shard.Evaluator.satisfies_eq_admits pure key trivial).1]
        cases admitted : job.evaluator.constraints.admits actual projected key <;> simp [admitted]
    rw [gather, gather, List.filter_append, one, ih]

end Job

theorem Action.calls_reverse_iterated (during history : List Action) (tasks : List Task) :
    calls (during.reverse ++ .handedOut tasks :: history).reverse =
      calls history.reverse ++ calls during := by
  rw [List.reverse_append, List.reverse_reverse, List.reverse_cons, List.append_assoc, calls_append]
  rfl

/-! ### Calls of a whole search -/

/-- The calls so far account for the world and for how many keys were yielded. -/
structure Site.Accounted (s : Site σ) (job : Job σ) (start : σ) : Prop where
  behind : s.Behind job start
  yielded : s.history.countP Action.yields =
    (job.gather job.yield? (Action.calls s.history.reverse) start).length

namespace Site.Accounted

variable {job : Job σ} {start : σ} {s : Site σ}

/-- An action that is no call. -/
theorem of_silent (h : s.Accounted job start) {s' : Site σ} (silent : List Action)
    (history : s'.history = silent ++ s.history)
    (quiet : ∀ action ∈ silent, action.call? = none ∧ action.yields = false)
    (world : s'.world = s.world) : s'.Accounted job start := by
  have calls : Action.calls s'.history.reverse = Action.calls s.history.reverse := by
    rw [history, List.reverse_append, Action.calls_append, Action.calls_reverse silent,
      Action.calls_eq_nil fun action mem => (quiet action mem).1, List.reverse_nil,
      List.append_nil]
  have yields : silent.countP Action.yields = 0 := by
    rw [List.countP_eq_zero]
    exact fun action mem => Bool.eq_false_iff.1 (quiet action mem).2
  refine ⟨?_, ?_⟩
  · rw [Behind, calls, world]
    exact h.behind
  · rw [calls, history, List.countP_append, yields, Nat.zero_add]
    exact h.yielded

theorem tick (h : s.Accounted job start) (move : Move) : (s.tick move).Accounted job start := by
  refine h.of_silent _ (s.since_tick move).history (fun action mem => ?_) (s.world_tick move)
  split at mem
  · rw [List.mem_singleton.1 mem]
    exact ⟨rfl, rfl⟩
  · cases mem

theorem note (h : s.Accounted job start) {action : Action} (silent : action.call? = none)
    (dry : action.yields = false) : (s.note action).Accounted job start := by
  refine h.of_silent [action] rfl (fun other mem => ?_) rfl
  rw [List.mem_singleton.1 mem]
  exact ⟨silent, dry⟩

theorem step (h : s.Accounted job start) {w : Worker} (number : Nat)
    (running : w.isRunning = true) : (w.step job number s).2.Accounted job start := by
  obtain ⟨action, history, ⟨silent, dry, same, -⟩ | ⟨position, called, yields, after, -⟩⟩ :=
    (Worker.stepped_step job number s running).exists_judged
  · refine h.of_silent [action] history (fun other mem => ?_) same
    rw [List.mem_singleton.1 mem]
    exact ⟨silent, dry⟩
  · have calls : Action.calls (w.step job number s).2.history.reverse =
        Action.calls s.history.reverse ++ [(number, position)] := by
      rw [history, List.reverse_cons, Action.calls_append_singleton, called, Option.toList_some]
    refine ⟨?_, ?_⟩
    · rw [Behind, calls, job.worldBehind_append, ← h.behind]
      exact after
    · rw [calls, job.gather_append_singleton, ← h.behind, List.length_append, ← h.yielded, history,
        List.countP_cons, yields]
      cases job.yield? position s.world <;> rfl

end Site.Accounted

/-- The world is the one behind the calls so far, and the keys at hand are those that were accepted
in them. -/
structure Progress.Gathered (p : Progress σ) (job : Job σ) (start : σ) : Prop where
  behind : p.site.Behind job start
  found : p.found.toList.Perm
    (job.gather job.keep? (Action.calls p.site.history.reverse) start)

namespace Coordinator

/-- The world that a search leaves is the one behind its calls, and as many of these have yielded a
key as its history says. -/
theorem accounted_run (c : Coordinator σ) (schedule : Schedule) (seed : Seed) (target : UInt64)
    (world : σ) (cancelled : Bool) {run : Run σ}
    (ran : run = c.run schedule seed target world cancelled) :
    run.world = (c.job seed).worldBehind (Action.calls run.history) world ∧
      ((c.job seed).gather (c.job seed).yield? (Action.calls run.history) world).length =
        run.history.countP Action.yields := by
  obtain ⟨site, accounted, history, left⟩ := c.exists_site_run schedule seed target world cancelled
    (motive := fun s => s.Accounted (c.job seed) world) ⟨rfl, rfl⟩ (fun _ move h => h.tick move)
    (fun _ h => h.note rfl rfl) (fun _ _ h => h.note rfl rfl)
    (fun _ _ number h running => h.step number running)
  rw [ran, history, left, List.countP_reverse]
  exact ⟨accounted.behind, accounted.yielded.symm⟩

variable {c : Coordinator σ} {schedule : Schedule} {seed : Seed} {target : UInt64} {world : σ}
  {cancelled : Bool}

theorem gathered_advance {p : Progress σ} (h : p.Gathered (c.job seed) world) {batch : Batch}
    {keys : List Key} (outcome : (c.iterate schedule seed p batch).outcome = .ok keys) :
    (c.advance p batch.next keys (c.iterate schedule seed p batch).reports
      (c.iterate schedule seed p batch).site).Gathered (c.job seed) world := by
  obtain ⟨during, history, judged⟩ :=
    Iteration.exists_judged_run (c.job seed) schedule batch.tasks (admitted schedule p).site
  have admits : (admitted schedule p).site.Behind (c.job seed) world := behind_admitted h.behind _
  have calls : Action.calls (c.iterate schedule seed p batch).site.history.reverse =
      Action.calls p.site.history.reverse ++ Action.calls during := by
    rw [iterate, history, Action.calls_reverse_iterated, calls_history_admitted]
  have before : (admitted schedule p).site.world =
      (c.job seed).worldBehind (Action.calls p.site.history.reverse) world := by
    rw [admits, calls_history_admitted]
  refine ⟨Iteration.behind_run admits schedule batch.tasks, ?_⟩
  obtain ⟨-, rfl⟩ := Iteration.outcome_eq_ok_iff.1 outcome
  simp only [advance, Array.toList_appendList]
  rw [calls, Job.gather_append, ← before]
  exact h.found.append judged.keys

theorem Reached.gathered {p q : Progress σ} {k : Nat}
    (reached : Reached c schedule seed target p k q) (start : p.Gathered (c.job seed) world) :
    q.Gathered (c.job seed) world :=
  reached.of_advance (motive := fun _ q => q.Gathered (c.job seed) world) start
    fun _ _ _ _ gathered _ _ outcome => gathered_advance gathered outcome

/-- The keys that a search returns are the best of those that were accepted in its calls, and of
these there are enough. -/
theorem exists_kept_of_ok {run : Run σ} (ran : run = c.run schedule seed target world cancelled)
    {report : Report} (found : run.result = .ok report) :
    ∃ kept : List Key, kept.Perm
        ((c.job seed).gather (c.job seed).keep? (Action.calls run.history) world) ∧
      target.toNat ≤ kept.length ∧ report.keys = rank kept target.toNat := by
  by_cases asked : target = 0
  · rw [Coordinator.run, if_pos asked] at ran
    subst ran
    cases found
    exact ⟨[], .nil, by rw [asked]; rfl, by simp [rank]⟩
  · obtain ⟨k, p, reached, last⟩ := c.exists_reached_rounded schedule seed asked world cancelled
    rw [← ran] at last
    cases last with
    | enough enough =>
      cases found
      have gathered : p.Gathered (c.job seed) world := reached.gathered ⟨rfl, .nil⟩
      exact ⟨p.found.toList, gathered.found, by simpa using enough, rfl⟩
    | cancelled | limited | exhausted | failed | interrupted => cases found

/-! ### Logs -/

/-- The same settings and constraints with other services. -/
def withServices (c : Coordinator σ) (deriver : Derivation.Deriver τ) (assigner : Assigner τ) :
    Coordinator τ where
  deriver := deriver
  evaluator := ⟨c.evaluator.constraints, assigner⟩
  config := c.config
  allocator := c.allocator
  allocator_eq := c.allocator_eq

/-- The coordinator in a world that keeps what its assigner is asked. -/
def logged (c : Coordinator σ) : Coordinator (σ × Asked) :=
  c.withServices c.deriver.onFst c.evaluator.assigner.logged

/-- The coordinator in a world that counts how often its assigner is asked. -/
def counted (c : Coordinator σ) : Coordinator (σ × Tally) :=
  c.withServices c.deriver.onFst c.evaluator.assigner.counted

theorem logged_liesOver (c : Coordinator σ) : c.logged.LiesOver Prod.fst c where
  config := rfl
  constraints := rfl
  job _ := ⟨fun _ _ => rfl, (c.evaluator.assigner.logged_liesOver _).satisfies_map⟩

theorem logged_liesOver_counted (c : Coordinator σ) :
    c.logged.LiesOver (Prod.map id Asked.tally) c.counted where
  config := rfl
  constraints := rfl
  job _ := ⟨fun _ _ => rfl, (c.evaluator.assigner.logged_liesOver_counted _).satisfies_map⟩

/-- An assigner that says the same on the axes that are bound leads the same search. -/
theorem run_withServices (c : Coordinator σ) {a : Assigner σ}
    (lies : a.LiesOver id c.evaluator.assigner c.evaluator.constraints) (schedule : Schedule)
    (seed : Seed) (target : UInt64) (world : σ) (cancelled : Bool) :
    (c.withServices c.deriver a).run schedule seed target world cancelled =
      c.run schedule seed target world cancelled :=
  have same : (c.withServices c.deriver a).LiesOver id c :=
    ⟨rfl, rfl, fun _ => ⟨fun _ _ => rfl, fun key world => lies.satisfies_map key world⟩⟩
  (run_map same schedule seed target world cancelled).symm

/-- The log behind some calls has grown by the keys that they yield. -/
theorem worldBehind_logged (c : Coordinator σ) (seed : Seed) (calls : List (Nat × Position))
    (world : σ) (keys : List Key) :
    (c.logged.job seed).worldBehind calls (world, c.evaluator.constraints.queries keys) =
      ((c.job seed).worldBehind calls world, c.evaluator.constraints.queries
        (((c.job seed).gather (c.job seed).yield? calls world).reverse ++ keys)) := by
  induction calls generalizing world keys with
  | nil => rfl
  | cons call calls ih =>
    have one : ((c.logged.job seed).judge call.2 (world, c.evaluator.constraints.queries keys)).2 =
        (((c.job seed).judge call.2 world).2, c.evaluator.constraints.queries
          (((c.job seed).yield? call.2 world).toList ++ keys)) := by
      rcases derived : (c.job seed).deriver.derive (c.job seed).seed call.2 world with
        ⟨reply, after⟩
      have derived' : (c.logged.job seed).deriver.derive (c.logged.job seed).seed call.2
          (world, c.evaluator.constraints.queries keys) =
          (reply, after, c.evaluator.constraints.queries keys) :=
        congrArg (fun derived : Derivation.Reply × σ =>
          (derived.1, derived.2, c.evaluator.constraints.queries keys)) derived
      cases outcome : reply.outcome with
      | error cause =>
        rw [Job.judge_of_error derived outcome, Job.judge_of_error derived' outcome,
          Job.yield?_of_error derived outcome]
        rfl
      | ok key =>
        rw [Job.judge_of_ok derived outcome, Job.judge_of_ok derived' outcome,
          Job.yield?_of_ok derived outcome]
        exact congrArg Prod.snd (Shard.satisfies_logged _ _ key after keys)
    have keys' : ((c.job seed).gather (c.job seed).yield? (call :: calls) world).reverse ++ keys =
        ((c.job seed).gather (c.job seed).yield? calls
            ((c.job seed).judge call.2 world).2).reverse ++
          (((c.job seed).yield? call.2 world).toList ++ keys) := by
      rw [Job.gather, List.reverse_append, List.append_assoc]
      cases (c.job seed).yield? call.2 world <;> rfl
    have next : (c.logged.job seed).worldBehind (call :: calls)
          (world, c.evaluator.constraints.queries keys) =
        (c.logged.job seed).worldBehind calls
          ((c.logged.job seed).judge call.2 (world, c.evaluator.constraints.queries keys)).2 := rfl
    rw [next, one, ih, keys']
    rfl

/-- The log of a search holds the keys that its calls have yielded. -/
theorem asked_run_logged (c : Coordinator σ) (schedule : Schedule) (seed : Seed) (target : UInt64)
    (world : σ) (cancelled : Bool) {run : Run (σ × Asked)}
    (ran : run = c.logged.run schedule seed target (world, ⟨[], []⟩) cancelled) :
    run.world.2 = c.evaluator.constraints.queries
      ((c.job seed).gather (c.job seed).yield? (Action.calls run.history) world).reverse := by
  have empty : c.evaluator.constraints.queries [] = ⟨[], []⟩ := by
    simp [Shard.Constraints.queries]
  rw [(c.logged.accounted_run schedule seed target (world, ⟨[], []⟩) cancelled ran).1, ← empty,
    worldBehind_logged, List.append_nil]

end Coordinator

/-! ### Searches -/

/-- In every search, however it ends, the assigner is asked about each key that the key service
yields, in the order of the calls, once on an axis that is bound and never on a free one, and to log
or to count this changes nothing. Where the assigner answers by two functions, the workers of any
iteration keep just the keys that lie in the wanted shards, and the keys returned are the best of
these. What it would say on a free axis has no part in the run. -/
theorem assigner_is_asked_once_per_key_and_axis (c : Coordinator σ) (schedule : Schedule)
    (seed : Seed) (target : UInt64) (world : σ) (cancelled : Bool) {run : Run σ} {keys : List Key}
    (ran : run = c.run schedule seed target world cancelled)
    (yielded : keys = (c.job seed).gather (c.job seed).yield? (Action.calls run.history) world) :
    keys.length = run.history.countP Action.yields ∧
      (∀ logged, logged = c.logged.run schedule seed target (world, ⟨[], []⟩) cancelled →
        logged.map Prod.fst = run ∧
        logged.world.2.actual.reverse =
          (if c.evaluator.constraints.actual.isSome then keys else []) ∧
        logged.world.2.projected.reverse =
          (if c.evaluator.constraints.projected.isSome then keys else [])) ∧
      (∀ counted, counted = c.counted.run schedule seed target (world, ⟨0, 0⟩) cancelled →
        counted.map Prod.fst = run ∧
        counted.world.2.actual = (if c.evaluator.constraints.actual.isSome then
          run.history.countP Action.yields else 0) ∧
        counted.world.2.projected = (if c.evaluator.constraints.projected.isSome then
          run.history.countP Action.yields else 0)) ∧
      (∀ actual projected, c.evaluator.assigner.Behaves (fun _ => True) actual projected →
        (∀ (tasks : List Task) (site : Site σ) (it : Iteration σ),
          it = Iteration.run (c.job seed) schedule tasks site →
          ∃ during, it.site.history = during.reverse ++ .handedOut tasks :: site.history ∧
            (it.workers.flatMap Worker.keys).Perm
              (((c.job seed).gather (c.job seed).yield? (Action.calls during) site.world).filter
                (c.evaluator.constraints.admits actual projected))) ∧
        ∀ report, run.result = .ok report → ∃ kept : List Key,
          kept.Perm (keys.filter (c.evaluator.constraints.admits actual projected)) ∧
            target.toNat ≤ kept.length ∧ report.keys = rank kept target.toNat) ∧
      ∀ a : Assigner σ,
        (c.evaluator.constraints.actual.isSome → a.actual = c.evaluator.assigner.actual) →
        (c.evaluator.constraints.projected.isSome → a.projected = c.evaluator.assigner.projected) →
        (c.withServices c.deriver a).run schedule seed target world cancelled = run := by
  have length := yielded ▸ (c.accounted_run schedule seed target world cancelled ran).2
  have plain : run =
      (c.logged.run schedule seed target (world, ⟨[], []⟩) cancelled).map Prod.fst :=
    ran.trans
      (Coordinator.run_map c.logged_liesOver schedule seed target (world, ⟨[], []⟩) cancelled)
  have tallied : c.counted.run schedule seed target (world, ⟨0, 0⟩) cancelled =
      (c.logged.run schedule seed target (world, ⟨[], []⟩) cancelled).map
        (Prod.map id Asked.tally) :=
    Coordinator.run_map c.logged_liesOver_counted schedule seed target (world, ⟨[], []⟩) cancelled
  have log : (c.logged.run schedule seed target (world, ⟨[], []⟩) cancelled).world.2 =
      c.evaluator.constraints.queries keys.reverse := by
    rw [c.asked_run_logged schedule seed target world cancelled rfl, yielded, plain, Run.map]
  refine ⟨length, ?_, ?_, fun actual projected pure => ⟨?_, fun report found => ?_⟩,
    fun a actual projected => ?_⟩
  · rintro logged rfl
    rw [log]
    exact ⟨plain.symm, c.evaluator.constraints.reverse_queries keys⟩
  · rintro counted rfl
    have tally : (c.counted.run schedule seed target (world, ⟨0, 0⟩) cancelled).world.2 =
        (c.evaluator.constraints.queries keys.reverse).tally := by
      rw [tallied, Run.map, Prod.map, log]
    rw [tally, Shard.Constraints.tally_queries, List.length_reverse, length, tallied, plain]
    exact ⟨rfl, rfl, rfl⟩
  · rintro tasks site it rfl
    obtain ⟨during, history, judged⟩ :=
      Iteration.exists_judged_run (c.job seed) schedule tasks site
    exact ⟨during, history, (c.job seed).gather_keep?_eq_filter pure _ _ ▸ judged.keys⟩
  · obtain ⟨kept, perm, enough, best⟩ := Coordinator.exists_kept_of_ok ran found
    rw [(c.job seed).gather_keep?_eq_filter pure, ← yielded] at perm
    exact ⟨kept, perm, enough, best⟩
  · rw [ran]
    refine c.run_withServices ⟨fun bound key world => ?_, fun bound key world => ?_⟩ schedule seed
      target world cancelled
    · rw [actual bound]
      rfl
    · rw [projected bound]
      rfl

/-- The search of `evenSearch` binds the actual axis only and asks about eight keys on it; another
assigner for the projected axis leads the same search. -/
theorem assigner_is_asked_once_per_key_and_axis_evenSearch :
    ∃ (run : Run Unit) (counted : Run (Unit × Tally)),
      run = (evenSearch none).run (.roundRobin 2) ⟨[]⟩ 3 () false ∧
      counted = (evenSearch none).counted.run (.roundRobin 2) ⟨[]⟩ 3 ((), ⟨0, 0⟩) false ∧
      run.history.countP Action.yields = 8 ∧ counted.map Prod.fst = run ∧
      counted.world.2.actual = 8 ∧ counted.world.2.projected = 0 ∧
      ((evenSearch none).withServices (evenSearch none).deriver Rehearsal.byHalves).run
        (.roundRobin 2) ⟨[]⟩ 3 () false = run := by
  have asked : (3 : UInt64) ≠ 0 := by decide
  have yields : ((evenSearch none).run (.roundRobin 2) ⟨[]⟩ 3 () false).history.countP
      Action.yields = 8 :=
    Coordinator.run_of_within? asked (fun run => run.history.countP Action.yields) 3 (by cbv)
  obtain ⟨-, -, counts, -, free⟩ := assigner_is_asked_once_per_key_and_axis (evenSearch none)
    (.roundRobin 2) ⟨[]⟩ 3 () false rfl rfl
  obtain ⟨same, actual, projected⟩ := counts _ rfl
  refine ⟨_, _, rfl, rfl, yields, same, actual.trans yields, projected, ?_⟩
  exact free Rehearsal.byHalves (fun _ => rfl) fun bound => absurd bound Bool.false_ne_true

end Search

end KeySearch
