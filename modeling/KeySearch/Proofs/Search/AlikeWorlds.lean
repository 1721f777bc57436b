import KeySearch.Proofs.Search.Oracle
import KeySearch.Proofs.Search.Rounds

/-! One search in two worlds. The world has no part in a search but through what the services answer
in it. So where these give the same answers in two worlds and leave alike what was alike
(`Job.Overlooks`), the search goes the same way in both: each step, each iteration and each round in
the one world is that in the other, put into another world. With a key service that keeps nothing in
mind the worlds may differ in all that this service sees. -/

namespace KeySearch

open KeySearch.Derivation (Deriver Outcome)

variable {σ τ : Type}

/-! ### Services in alike worlds -/

/-- The service keeps nothing in mind, and nothing decides whether a call cancels the search but
what it is asked for. -/
structure Derivation.Deriver.Steady (d : Deriver σ) (inv : σ → Prop)
    (derive : Seed → Position → Outcome) (cancels : Seed → Position → Bool) : Prop
    extends d.Behaves inv derive where
  cancels (seed : Seed) (position : Position) {world : σ} (h : inv world) :
    (d.derive seed position world).1.cancels = cancels seed position

theorem Derivation.Deriver.Steady.reply_eq {d : Deriver σ} {inv : σ → Prop}
    {derive : Seed → Position → Outcome} {cancels : Seed → Position → Bool}
    (h : d.Steady inv derive cancels) (seed : Seed) (position : Position) {world : σ}
    (holds : inv world) :
    (d.derive seed position world).1 = ⟨derive seed position, cancels seed position⟩ := by
  rw [← h.outcome seed position holds, ← h.cancels seed position holds]

/-- In alike worlds the assigner gives the same shards and leaves alike worlds behind. -/
structure Shard.Assigner.Overlooks (a : Assigner σ) (alike : σ → σ → Prop) : Prop where
  actual (key : Key) (numShards : UInt32) {world world' : σ} (h : alike world world') :
    (a.actual key numShards world').1 = (a.actual key numShards world).1 ∧
      alike (a.actual key numShards world).2 (a.actual key numShards world').2
  projected (key : Key) (numShards : UInt32) {world world' : σ} (h : alike world world') :
    (a.projected key numShards world').1 = (a.projected key numShards world).1 ∧
      alike (a.projected key numShards world).2 (a.projected key numShards world').2

namespace Shard

theorem Assigner.overlooks_eq (a : Assigner σ) : a.Overlooks Eq :=
  ⟨fun _ _ _ _ h => h ▸ ⟨rfl, rfl⟩, fun _ _ _ _ h => h ▸ ⟨rfl, rfl⟩⟩

/-- An assigner that keeps nothing in mind answers the same in all worlds of its class. -/
theorem Assigner.Behaves.overlooks {a : Assigner σ} {inv : σ → Prop}
    {actual projected : Key → UInt32 → UInt32} (h : a.Behaves inv actual projected) :
    a.Overlooks fun world world' => inv world ∧ inv world' where
  actual key numShards _ _ worlds :=
    ⟨(h.actual key numShards worlds.2).trans (h.actual key numShards worlds.1).symm,
      h.keeps_actual key numShards worlds.1, h.keeps_actual key numShards worlds.2⟩
  projected key numShards _ _ worlds :=
    ⟨(h.projected key numShards worlds.2).trans (h.projected key numShards worlds.1).symm,
      h.keeps_projected key numShards worlds.1, h.keeps_projected key numShards worlds.2⟩

theorem axisHolds_alike {numShards : UInt32} (wanted : Option (ShardId numShards))
    {ask : σ → UInt32 × σ} {alike : σ → σ → Prop} {world world' : σ} (h : alike world world')
    (same : (ask world').1 = (ask world).1 ∧ alike (ask world).2 (ask world').2) :
    (axisHolds wanted ask world').1 = (axisHolds wanted ask world).1 ∧
      alike (axisHolds wanted ask world).2 (axisHolds wanted ask world').2 := by
  cases wanted with
  | none => exact ⟨rfl, h⟩
  | some shard => exact ⟨congrArg (· == shard.val) same.1, same.2⟩

theorem Evaluator.satisfies_alike {e : Evaluator σ} {alike : σ → σ → Prop}
    (a : e.assigner.Overlooks alike) (key : Key) {world world' : σ} (h : alike world world') :
    (e.satisfies key world').1 = (e.satisfies key world).1 ∧
      alike (e.satisfies key world).2 (e.satisfies key world').2 := by
  obtain ⟨first, alike'⟩ := axisHolds_alike e.constraints.actual h
    (a.actual key e.constraints.numShards h)
  obtain ⟨second, alike''⟩ := axisHolds_alike e.constraints.projected alike'
    (a.projected key e.constraints.numShards alike')
  exact ⟨congrArg₂ and first second, alike''⟩

end Shard

namespace Search

/-- In alike worlds the services of a job give the same answers, and leave alike worlds behind. -/
structure Job.Overlooks (job : Job σ) (alike : σ → σ → Prop) : Prop where
  reply (position : Position) {world world' : σ} (h : alike world world') :
    (job.deriver.derive job.seed position world').1 =
        (job.deriver.derive job.seed position world).1 ∧
      alike (job.deriver.derive job.seed position world).2
        (job.deriver.derive job.seed position world').2
  judged (key : Key) {world world' : σ} (h : alike world world') :
    (job.evaluator.satisfies key world').1 = (job.evaluator.satisfies key world).1 ∧
      alike (job.evaluator.satisfies key world).2 (job.evaluator.satisfies key world').2

/-- Two worlds of a key service and an assigner are alike whatever the key service sees of them. -/
def Beside (inv : σ → Prop) (alike : τ → τ → Prop) (world world' : σ × τ) : Prop :=
  inv world.1 ∧ inv world'.1 ∧ alike world.2 world'.2

theorem Job.overlooks {d : Deriver σ} {a : Shard.Assigner τ} {inv : σ → Prop}
    {derive : Seed → Position → Outcome} {cancels : Seed → Position → Bool}
    {alike : τ → τ → Prop} (steady : d.Steady inv derive cancels) (overlooks : a.Overlooks alike)
    (seed : Seed) (constraints : Shard.Constraints) :
    (Job.mk seed d.onFst ⟨constraints, a.onSnd⟩).Overlooks (Beside inv alike) where
  reply position world world' h :=
    ⟨(steady.reply_eq seed position h.2.1).trans (steady.reply_eq seed position h.1).symm,
      steady.keeps seed position h.1, steady.keeps seed position h.2.1, h.2.2⟩
  judged key world world' h := by
    refine Shard.Evaluator.satisfies_alike ⟨?_, ?_⟩ key h
    · intro key numShards world world' h
      obtain ⟨same, alike⟩ := overlooks.actual key numShards h.2.2
      exact ⟨same, h.1, h.2.1, alike⟩
    · intro key numShards world world' h
      obtain ⟨same, alike⟩ := overlooks.projected key numShards h.2.2
      exact ⟨same, h.1, h.2.1, alike⟩

/-! ### From step to step -/

/-- The site in another world. -/
def Site.inWorld (s : Site σ) (world : σ) : Site σ := { s with world }

theorem Site.tick_inWorld (s : Site σ) (world : σ) (move : Move) :
    (s.inWorld world).tick move = (s.tick move).inWorld world := by
  unfold tick
  split <;> rfl

/-- The second step is the first one in a world that is alike. -/
theorem Worker.step_inWorld {job : Job σ} {alike : σ → σ → Prop} (o : job.Overlooks alike)
    (w : Worker) (number : Nat) (site : Site σ) {world : σ} (h : alike site.world world) :
    ∃ later, alike (w.step job number site).2.world later ∧
      w.step job number (site.inWorld world) =
        ((w.step job number site).1, (w.step job number site).2.inWorld later) := by
  unfold step
  split
  · exact ⟨world, h, rfl⟩
  · obtain ⟨same, alike'⟩ := o.reply (w.task.position w.next) h
    rcases call : job.deriver.derive job.seed (w.task.position w.next) site.world with
      ⟨reply, later⟩
    rcases call' : job.deriver.derive job.seed (w.task.position w.next) world with
      ⟨reply', later'⟩
    rw [call, call'] at same alike'
    cases same
    cases outcome : reply.outcome with
    | error cause =>
      refine ⟨later', ?_, ?_⟩
      · simp only [examine, call, outcome]
        exact alike'
      · simp only [examine, Site.inWorld, call, call', outcome]
    | ok key =>
      obtain ⟨accepted, alike''⟩ := o.judged key alike'
      refine ⟨(job.evaluator.satisfies key later').2, ?_, ?_⟩
      · simp only [examine, call, outcome]
        exact alike''
      · simp only [examine, Site.inWorld, call, call', outcome, accepted]
  · exact ⟨world, h, rfl⟩
  · exact ⟨world, h, rfl⟩

namespace Iteration

variable {job : Job σ} {alike : σ → σ → Prop}

/-- The iteration in another world. -/
def inWorld (it : Iteration σ) (world : σ) : Iteration σ := ⟨it.workers, it.site.inWorld world⟩

theorem act_inWorld (o : job.Overlooks alike) (it : Iteration σ) (move : Move) (number : Nat)
    {world : σ} (h : alike it.site.world world) :
    ∃ later, alike (it.act job move number).site.world later ∧
      (it.inWorld world).act job move number = (it.act job move number).inWorld later := by
  have ticked : alike (it.site.tick move).world world := by rwa [Site.world_tick]
  cases found : it.workers[number]? with
  | none =>
    refine ⟨world, ?_, ?_⟩
    · simpa only [act, found] using ticked
    · simp only [act, inWorld, found, Site.tick_inWorld]
  | some w =>
    obtain ⟨later, alike', same⟩ := w.step_inWorld o number (it.site.tick move) ticked
    have found' : (it.inWorld world).workers[number]? = some w := found
    refine ⟨later, ?_, ?_⟩
    · rw [act_of_getElem? job move found]
      exact alike'
    · rw [act_of_getElem? job move found', act_of_getElem? job move found]
      simp only [inWorld, Site.tick_inWorld, same]

theorem settle_inWorld (o : job.Overlooks alike) (it : Iteration σ) (schedule : Schedule)
    {world : σ} (h : alike it.site.world world) :
    ∃ later, alike (it.settle job schedule).site.world later ∧
      (it.inWorld world).settle job schedule = (it.settle job schedule).inWorld later := by
  fun_induction it.settle job schedule generalizing world with
  | case1 it move =>
    rename_i none
    exact ⟨world, h, settle_of_turn_eq_none none⟩
  | case2 it move number next =>
    rename_i ih
    obtain ⟨later, h', same⟩ := it.act_inWorld o move number h
    obtain ⟨last, h'', settled⟩ := ih h'
    have next' : turn (it.inWorld world).workers
      (schedule (it.inWorld world).site.clock).worker = some number := next
    refine ⟨last, h'', ?_⟩
    rw [settle_of_turn_eq_some next', ← settled, ← same]
    rfl

theorem run_inWorld (o : job.Overlooks alike) (schedule : Schedule) (tasks : List Task)
    (site : Site σ) {world : σ} (h : alike site.world world) :
    ∃ later, alike (run job schedule tasks site).site.world later ∧
      run job schedule tasks (site.inWorld world) =
        (run job schedule tasks site).inWorld later := by
  obtain ⟨later, alike', same⟩ := (ofTasks tasks site).settle_inWorld o schedule h
  have same' : (ofTasks tasks (site.inWorld world)).settle job schedule =
    ((ofTasks tasks site).settle job schedule).inWorld later := same
  refine ⟨later, ?_, ?_⟩
  · rw [run, join, Site.world_tick]
    exact alike'
  · rw [run, same', join, run, join]
    simp only [inWorld, ← Site.tick_inWorld]
    rfl

end Iteration

/-! ### From round to round -/

/-- The progress in another world. -/
def Progress.inWorld (p : Progress σ) (world : σ) : Progress σ :=
  { p with site := p.site.inWorld world }

/-- The run in another world. -/
def Run.inWorld (run : Run σ) (world : σ) : Run σ := { run with world }

/-- The second round is the first one in a world that is alike. -/
inductive Round.Alike (alike : σ → σ → Prop) : Round σ → Round σ → Prop
  | ended {run : Run σ} {world : σ} (h : alike run.world world) :
    Alike alike (.ended run) (.ended (run.inWorld world))
  | next {p : Progress σ} {world : σ} (h : alike p.site.world world) :
    Alike alike (.next p) (.next (p.inWorld world))

theorem Round.Alike.finish {alike : σ → σ → Prop} {p : Progress σ} {world : σ}
    (h : alike p.site.world world) (result : Except Error Report) (last : List Event) :
    Alike alike (.ended (p.finish result last)) (.ended ((p.inWorld world).finish result last)) :=
  .ended h

namespace Coordinator

variable {c : Coordinator σ} {seed : Seed} {alike : σ → σ → Prop}

theorem round_eq (c : Coordinator σ) (schedule : Schedule) (seed : Seed) (target : UInt64)
    (p : Progress σ) :
    c.round schedule seed target p =
      if target.toNat ≤ p.found.size then .ended (p.complete target)
      else if (looked schedule p).site.cancelled then
        .ended ((looked schedule p).finish (.error .cancelled)
          [.cancelledBefore p.stats.iterations])
      else c.proceed schedule seed (admitted schedule p) := rfl

theorem tick_inWorld (schedule : Schedule) (p : Progress σ) (world : σ) :
    (p.inWorld world).tick schedule = (p.tick schedule).inWorld world := by
  simp only [Progress.tick, Progress.inWorld, ← Site.tick_inWorld]
  rfl

theorem looked_inWorld (schedule : Schedule) (p : Progress σ) (world : σ) :
    looked schedule (p.inWorld world) = (looked schedule p).inWorld world := by
  rw [looked, tick_inWorld]
  rfl

theorem admitted_inWorld (schedule : Schedule) (p : Progress σ) (world : σ) :
    admitted schedule (p.inWorld world) = (admitted schedule p).inWorld world := by
  rw [admitted, looked_inWorld, tick_inWorld]
  rfl

theorem runBatch_inWorld (o : (c.job seed).Overlooks alike) (schedule : Schedule) (p : Progress σ)
    (batch : Batch) {world : σ} (h : alike p.site.world world) :
    Round.Alike alike (c.runBatch schedule seed p batch)
      (c.runBatch schedule seed (p.inWorld world) batch) := by
  obtain ⟨later, alike', same⟩ := Iteration.run_inWorld o schedule batch.tasks p.site h
  have same' : Iteration.run (c.job seed) schedule batch.tasks (p.inWorld world).site =
    (Iteration.run (c.job seed) schedule batch.tasks p.site).inWorld later := same
  have outcome : ((Iteration.run (c.job seed) schedule batch.tasks p.site).inWorld later).outcome =
    (Iteration.run (c.job seed) schedule batch.tasks p.site).outcome := rfl
  simp only [runBatch, same', outcome]
  split
  · exact .next alike'
  · exact .ended alike'
  · exact .ended alike'

theorem proceed_inWorld (o : (c.job seed).Overlooks alike) (schedule : Schedule) (p : Progress σ)
    {world : σ} (h : alike p.site.world world) :
    Round.Alike alike (c.proceed schedule seed p)
      (c.proceed schedule seed (p.inWorld world)) := by
  have stats : (p.inWorld world).stats = p.stats := rfl
  have sliding : (p.inWorld world).sliding = p.sliding := rfl
  simp only [proceed, stats, sliding]
  split
  · exact .finish h _ _
  · split
    · exact runBatch_inWorld o schedule p _ h
    · exact .finish h _ _

/-- In a world that is alike a round leads to what is alike. -/
theorem round_inWorld (o : (c.job seed).Overlooks alike) (schedule : Schedule) (target : UInt64)
    (p : Progress σ) {world : σ} (h : alike p.site.world world) :
    Round.Alike alike (c.round schedule seed target p)
      (c.round schedule seed target (p.inWorld world)) := by
  have found : (p.inWorld world).found = p.found := rfl
  have flag : ((looked schedule p).inWorld world).site.cancelled =
    (looked schedule p).site.cancelled := rfl
  rw [round_eq, round_eq, found, looked_inWorld, admitted_inWorld, flag]
  split
  · exact .finish h _ _
  · split
    · exact .finish ((world_looked schedule p).symm ▸ h) _ _
    · exact proceed_inWorld o schedule _ ((world_admitted schedule p).symm ▸ h)

theorem rounds_inWorld (o : (c.job seed).Overlooks alike) (schedule : Schedule) (target : UInt64)
    (p : Progress σ) {world : σ} (h : alike p.site.world world) :
    ∃ later, alike (c.rounds schedule seed target p).world later ∧
      c.rounds schedule seed target (p.inWorld world) =
        (c.rounds schedule seed target p).inWorld later := by
  fun_induction c.rounds schedule seed target p generalizing world with
  | case1 p run ended =>
    have alike' := round_inWorld o schedule target p h
    rw [ended] at alike'
    generalize other : c.round schedule seed target (p.inWorld world) = round at alike'
    cases alike' with
    | @ended _ later h => exact ⟨later, h, rounds_of_ended other⟩
  | case2 p q next _ ih =>
    have alike' := round_inWorld o schedule target p h
    rw [next] at alike'
    generalize other : c.round schedule seed target (p.inWorld world) = round at alike'
    cases alike' with
    | next h =>
      rw [rounds_of_next other]
      exact ih h

/-- A search in a world that is alike is the same search, and leaves an alike world behind. -/
theorem run_inWorld (o : (c.job seed).Overlooks alike) (schedule : Schedule) (target : UInt64)
    {world world' : σ} (h : alike world world') (cancelled : Bool) :
    ∃ later, alike (c.run schedule seed target world cancelled).world later ∧
      c.run schedule seed target world' cancelled =
        (c.run schedule seed target world cancelled).inWorld later := by
  by_cases asked : target = 0
  · rw [run, if_pos asked, run, if_pos asked]
    exact ⟨world', h, rfl⟩
  · rw [run, if_neg asked, run, if_neg asked]
    exact rounds_inWorld o schedule target (c.setOut target world cancelled) h

end Coordinator

end Search

end KeySearch
