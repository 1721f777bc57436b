import KeySearch.Proofs.Search.Counters
import KeySearch.Proofs.Search.Exits

/-! One search cut into batches in two ways. Two configurations with the same start and kind of
index go through the same candidates and differ only in where they stop to count their keys. If the
batches of one divide those of the other, then wherever the coarse search stops the fine one has
stopped too or stands at a loop head of its own, and has met neither a failure nor the end of the
indices before (`exit?_of_finer`). So the fine search finds the same keys, and no later. -/

namespace KeySearch.Search

variable {σ : Type}

/-! ### Successful searches -/

/-- The report of a search for `target` keys that succeeds behind `k` iterations. -/
structure Report.Succeeds (r : Report) (o : Oracle) (c : Config) (target k : Nat) : Prop where
  refines : Refines o c target r.keys k
  enough : target ≤ (o.hits c.accountOnly c.startIndex.toNat (k * c.batchSize)).length
  room : c.indexBehind k < UInt64.size
  iterations : r.stats.iterations.toNat = k
  candidates : r.stats.candidates.toNat = k * c.batchSize
  matched : r.stats.matched.toNat =
    (o.hits c.accountOnly c.startIndex.toNat (k * c.batchSize)).length

/-- A search that succeeds does so behind the first loop head with an open exit. -/
theorem Coordinator.exists_succeeds {c : Coordinator σ} {schedule : Schedule} {seed : Seed}
    {target : UInt64} {inv : σ → Prop} {o : Oracle} (behaves : (c.job seed).Behaves inv o)
    (asked : target ≠ 0) {world : σ} (h : inv world) {cancelled : Bool} {report : Report}
    (returned : (c.run schedule seed target world cancelled).result = .ok report) :
    ∃ k, (∀ j < k, o.exit? c.config target.toNat j = none) ∧
      report.Succeeds o c.config target.toNat k := by
  obtain ⟨k, p, reached, collected, last⟩ :=
    exists_last_round behaves schedule asked h cancelled
  have tallies := reached.tallies (c.visited_setOut target world cancelled)
    (c.tallies_setOut target world cancelled)
  refine ⟨k, reached.exit?_eq_none behaves (c.collected_setOut _ target h cancelled), ?_⟩
  generalize c.run schedule seed target world cancelled = run at returned last
  cases last with
  | enough reached =>
    cases returned
    exact ⟨collected.refines reached, collected.size_found ▸ reached, tallies.bound,
      tallies.iterations, tallies.candidates, tallies.matched.trans collected.size_found⟩
  | cancelled | limited | exhausted | failed | interrupted => cases returned

/-! ### Finer batches -/

/-- Two configurations for the same candidates, without a limit; the batches of the first divide
those of the second. -/
structure Config.Finer (fine coarse : Config) : Prop where
  start : fine.startIndex = coarse.startIndex
  kind : fine.accountOnly = coarse.accountOnly
  unlimited : fine.maxIterations = none
  unlimited' : coarse.maxIterations = none
  divides : fine.batchSize ∣ coarse.batchSize

section

variable {fine coarse : Config} {o : Oracle} {target k : Nat}

/-- Up to where the coarse search succeeds, the fine one has no exit but that for enough keys. -/
theorem exit?_of_finer (finer : fine.Finer coarse) {report : Report}
    (success : report.Succeeds o coarse target k) {j : Nat}
    (behind : (j + 1) * fine.batchSize ≤ k * coarse.batchSize) :
    o.exit? fine target j = none ∨ o.exit? fine target j = some .enough := by
  by_cases enough : target ≤
      (o.hits fine.accountOnly fine.startIndex.toNat (j * fine.batchSize)).length
  · exact .inr (exit?_of_enough enough)
  · have within : fine.indexBehind (j + 1) ≤ coarse.indexBehind k := by
      rw [Config.indexBehind, Config.indexBehind, finer.start]
      exact Nat.add_le_add_left behind _
    have from' : coarse.startIndex.toNat ≤ fine.indexBehind j := by
      rw [← finer.start]
      exact Nat.le_add_right _ _
    refine .inl (exit?_eq_none_iff.2 ⟨Nat.lt_of_not_le enough, ?_, ?_, ?_⟩)
    · rw [finer.unlimited, Option.filter_none]
    · exact Nat.lt_of_le_of_lt within success.room
    · intro index low high
      rw [finer.kind]
      exact success.refines.clean index (from'.trans low) (Nat.lt_of_lt_of_le high within)

/-- The first exit of the fine search is that for enough keys, and comes no later. -/
theorem first_exit_of_finer (finer : fine.Finer coarse) {report : Report}
    (success : report.Succeeds o coarse target k) {j : Nat} {exit : Exit}
    (found : o.exit? fine target j = some exit)
    (before : ∀ i < j, o.exit? fine target i = none) :
    exit = .enough ∧ j * fine.batchSize ≤ k * coarse.batchSize := by
  obtain ⟨parts, size⟩ := finer.divides
  -- the coarse search stops at the loop head behind `k * parts` fine batches
  have last : k * parts * fine.batchSize = k * coarse.batchSize := by
    rw [size, Nat.mul_assoc, Nat.mul_comm parts]
  have enough : o.exit? fine target (k * parts) = some .enough := by
    apply exit?_of_enough
    rw [finer.kind, finer.start, last]
    exact success.enough
  have earlier : j ≤ k * parts := by
    by_contra later
    rw [before _ (Nat.lt_of_not_le later)] at enough
    cases enough
  refine ⟨?_, last ▸ Nat.mul_le_mul_right _ earlier⟩
  rcases Nat.eq_or_lt_of_le earlier with rfl | lt
  · exact Option.some.inj (found.symm.trans enough)
  · rcases exit?_of_finer finer success (last ▸ Nat.mul_le_mul_right _ lt) with none | same
    · rw [none] at found
      cases found
    · exact Option.some.inj (found.symm.trans same)

/-- The exits depend on the size of the batches only, not on how these are divided. -/
theorem exit?_eq_of_batchSize (finer : fine.Finer coarse)
    (size : fine.batchSize = coarse.batchSize) :
    o.exit? fine target k = o.exit? coarse target k := by
  rw [Oracle.exit?, Oracle.exit?, Config.indexBehind, Config.indexBehind, Config.indexBehind,
    Config.indexBehind, finer.kind, finer.start, finer.unlimited, finer.unlimited', size]

end

/-! ### Reports -/

/-- The same keys, found with no more candidates. -/
structure Report.Anticipates (r s : Report) : Prop where
  keys : r.keys = s.keys
  candidates : r.stats.candidates ≤ s.stats.candidates
  matched : r.stats.matched ≤ s.stats.matched

namespace Report.Succeeds

variable {fine coarse : Config} {o : Oracle} {target j k : Nat} {r s : Report}

theorem anticipates (finer : fine.Finer coarse) (stamps : o.Stamps)
    (first : r.Succeeds o fine target j) (second : s.Succeeds o coarse target k)
    (le : j * fine.batchSize ≤ k * coarse.batchSize) : r.Anticipates s where
  keys := by
    have found := first.refines.bruteForce stamps
    rw [finer.kind, finer.start, second.refines.bruteForce stamps] at found
    exact (Option.some.inj found).symm
  candidates := by
    rw [UInt64.le_iff_toNat_le, first.candidates, second.candidates]
    exact le
  matched := by
    rw [UInt64.le_iff_toNat_le, first.matched, second.matched, finer.kind, finer.start]
    exact Oracle.length_hits_mono _ le

/-- With batches of one size, the reports behind one number of iterations differ in no number. -/
theorem eq_of_keys (finer : fine.Finer coarse) (size : fine.batchSize = coarse.batchSize)
    (first : r.Succeeds o fine target k) (second : s.Succeeds o coarse target k)
    (keys : r.keys = s.keys) : r = s := by
  have iterations : r.stats.iterations = s.stats.iterations :=
    UInt64.toNat_inj.1 (first.iterations.trans second.iterations.symm)
  have candidates : r.stats.candidates = s.stats.candidates :=
    UInt64.toNat_inj.1 (by rw [first.candidates, second.candidates, size])
  have matched : r.stats.matched = s.stats.matched :=
    UInt64.toNat_inj.1
      (by rw [first.matched, second.matched, finer.kind, finer.start, size])
  obtain ⟨_, _, _, _⟩ := r
  obtain ⟨_, _, _, _⟩ := s
  cases keys
  cases iterations
  cases candidates
  cases matched
  rfl

end Report.Succeeds

/-- Two searches for the same candidates with services that answer alike, the finer of which nobody
cancels: where the coarse one succeeds, so does the fine one. -/
theorem Coordinator.exists_anticipates {c c' : Coordinator σ} {seed : Seed} {target : UInt64}
    {inv : σ → Prop} {o : Oracle} (behaves : (c.job seed).Behaves inv o)
    (behaves' : (c'.job seed).Behaves inv o) (stamps : o.Stamps)
    (finer : c.config.Finer c'.config) (asked : target ≠ 0) {schedule schedule' : Schedule}
    {world world' : σ} (h : inv world) (h' : inv world')
    (quiet : ∀ action ∈ (c.run schedule seed target world false).history, action.raises = false)
    {report : Report} (returned : (c'.run schedule' seed target world' false).result = .ok report) :
    ∃ report', (c.run schedule seed target world false).result = .ok report' ∧
      report'.Anticipates report ∧
      (c.config.batchSize = c'.config.batchSize → report' = report) := by
  obtain ⟨k, before', success⟩ := exists_succeeds behaves' asked h' returned
  obtain ⟨j, exit, found, before, -, explained, -⟩ := exists_first_exit behaves asked h quiet
  obtain ⟨rfl, le⟩ := first_exit_of_finer finer success found before
  obtain ⟨report', returned', -, -⟩ := explained
  obtain ⟨i, before'', success'⟩ := exists_succeeds behaves asked h returned'
  obtain ⟨rfl, -⟩ := first_exit_unique found before (exit?_of_enough success'.enough) before''
  have keys := success'.anticipates finer stamps success le
  refine ⟨report', returned', keys, fun size => ?_⟩
  -- the exits agree, so the first one comes behind the same number of iterations
  have same (i : Nat) : o.exit? c.config target.toNat i = o.exit? c'.config target.toNat i :=
    exit?_eq_of_batchSize finer size
  rw [same] at found
  obtain ⟨rfl, -⟩ := first_exit_unique found (fun i lt => same i ▸ before i lt)
    (exit?_of_enough success.enough) before'
  exact success'.eq_of_keys finer size success keys.keys

/-- Where a search succeeds, so does every search for the same candidates whose batches divide those
of the first and that nobody cancels, with the same keys and no more candidates; batches of the same
size give the same report. Neither the schedules nor the worlds of the two need be the same. -/
theorem finer_search_succeeds {deriver : Derivation.Deriver σ} {evaluator : Shard.Evaluator σ}
    {inv : σ → Prop} {derive : Seed → Position → Derivation.Outcome}
    {actual projected : Key → UInt32 → UInt32} (d : deriver.Behaves inv derive)
    (e : evaluator.assigner.Behaves inv actual projected) {fine coarse : Config}
    (valid : fine.validate = .ok ()) (valid' : coarse.validate = .ok ())
    (finer : fine.Finer coarse) (seed : Seed) (target : UInt64)
    (stamps : ∀ position key, derive seed position = .ok key → key.position = position) :
    ∃ c c', Coordinator.make deriver evaluator fine = .ok c ∧
      Coordinator.make deriver evaluator coarse = .ok c' ∧
      ∀ (schedule schedule' : Schedule) (world world' : σ) (run run' : Run σ) (report : Report),
        inv world → inv world' → run = c.run schedule seed target world false →
        run' = c'.run schedule' seed target world' false →
        (∀ action ∈ run.history, action.raises = false) → run'.result = .ok report →
        ∃ report', run.result = .ok report' ∧ report'.Anticipates report ∧
          (fine.batchSize = coarse.batchSize → report' = report) := by
  obtain ⟨c, made, rfl, rfl, rfl⟩ := Coordinator.exists_make_eq_ok deriver evaluator valid
  obtain ⟨c', made', sameDeriver, sameEvaluator, rfl⟩ :=
    Coordinator.exists_make_eq_ok c.deriver c.evaluator valid'
  refine ⟨c, c', made, made', ?_⟩
  rintro schedule schedule' world world' _ _ report h h' rfl rfl quiet returned
  by_cases asked : target = 0
  · rw [Coordinator.run, if_pos asked] at returned ⊢
    cases returned
    exact ⟨_, rfl, ⟨rfl, Nat.le_refl _, Nat.le_refl _⟩, fun _ => rfl⟩
  · have same : c'.job seed = c.job seed := by
      rw [Coordinator.job, sameDeriver, sameEvaluator, Coordinator.job]
    have behaves : (c.job seed).Behaves inv _ := Job.behaves d e
    exact Coordinator.exists_anticipates behaves (same ▸ behaves) stamps finer asked h h' quiet
      returned

/-- The search of `evenSearch` scans eight candidates for three keys. In batches of one task with
two candidates it needs no more of them. -/
theorem finer_search_succeeds_evenSearch :
    ∃ (c : Coordinator Unit) (report : Report),
      Coordinator.make (evenSearch none).deriver (evenSearch none).evaluator
        ⟨5, 1, 2, false, none⟩ = .ok c ∧
      (c.run (.roundRobin 1) ⟨[]⟩ 3 () false).result = .ok report ∧
      ((evenSearch none).run (.roundRobin 2) ⟨[]⟩ 3 () false).result =
        .ok ⟨[Rehearsal.stubKey ⟨0, 6⟩, Rehearsal.stubKey ⟨0, 8⟩, Rehearsal.stubKey ⟨0, 10⟩],
          ⟨2, 8, 4⟩⟩ ∧
      report.keys =
        [Rehearsal.stubKey ⟨0, 6⟩, Rehearsal.stubKey ⟨0, 8⟩, Rehearsal.stubKey ⟨0, 10⟩] ∧
      report.stats.candidates ≤ 8 ∧ report.stats.matched ≤ 4 := by
  have d : (evenSearch none).deriver.Behaves (fun _ => True) _ := Derivation.Deriver.behaves_ofFn _
  have e : (evenSearch none).evaluator.assigner.Behaves (fun _ => True) _ _ :=
    Shard.Assigner.behaves_ofFn _ _
  have valid : (Config.mk 5 1 2 false none).validate = .ok () := rfl
  have valid' : (evenSearch none).config.validate = .ok () := rfl
  have finer : (Config.mk 5 1 2 false none).Finer (evenSearch none).config :=
    ⟨rfl, rfl, rfl, rfl, ⟨2, rfl⟩⟩
  obtain ⟨c, c', made, made', finds⟩ :=
    finer_search_succeeds d e valid valid' finer ⟨[]⟩ 3 (by
      rintro position key outcome
      cases outcome
      simp [Rehearsal.stubKey, Rehearsal.moved])
  have quiet : ∀ action ∈ (c.run (.roundRobin 1) ⟨[]⟩ 3 () false).history,
      action.raises = false := by
    obtain ⟨_, same, deriver, -⟩ := Coordinator.exists_make_eq_ok (evenSearch none).deriver
      (evenSearch none).evaluator valid
    cases made.symm.trans same
    refine Coordinator.quiet_run (fun _ _ => ?_) (Schedule.isQuiet_roundRobin 1) 3 ()
    rw [Coordinator.job, deriver]
    rfl
  have result : ((evenSearch none).run (.roundRobin 2) ⟨[]⟩ 3 () false).result =
      .ok ⟨[Rehearsal.stubKey ⟨0, 6⟩, Rehearsal.stubKey ⟨0, 8⟩, Rehearsal.stubKey ⟨0, 10⟩],
        ⟨2, 8, 4⟩⟩ :=
    Coordinator.run_of_within? (by decide) Run.result 3 (by cbv)
  have coarse : Coordinator.make (evenSearch none).deriver (evenSearch none).evaluator
    (evenSearch none).config = .ok (evenSearch none) := rfl
  cases made'.symm.trans coarse
  obtain ⟨report, returned, anticipates, -⟩ :=
    finds (.roundRobin 1) (.roundRobin 2) () () _ _ _ trivial trivial rfl rfl quiet result
  exact ⟨c, report, made, returned, result, anticipates.keys, anticipates.candidates,
    anticipates.matched⟩

end KeySearch.Search
