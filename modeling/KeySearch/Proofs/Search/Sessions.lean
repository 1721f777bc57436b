import KeySearch.Proofs.Search.AlikeWorlds
import KeySearch.Proofs.Search.TokenFamilies
import KeySearch.Proofs.Search.Visits
import KeySearch.Proofs.Search.WalletSearch
import KeySearch.Search.Session

/-! Sessions. A coordinator has no part that a step changes, so what its runs leave behind is the
world of the services and the flags of the tokens. With a key service that keeps nothing in mind the
next run is therefore that of a session just begun whose token is in the same state
(`Session.RunsAsIn`). A flag is up exactly if some step has raised it (`Session.Raises`), and of all
flags only the one of the token installed last has a part in a run (`Session.ObeysLatest`). -/

namespace KeySearch.Search

variable {σ τ : Type}

namespace Session

/-! ### Sequences of steps -/

theorem steps_append (s : Session σ) (before after : List Step) :
    (s.steps (before ++ after)).1 = ((s.steps before).1.steps after).1 := by
  induction before generalizing s with
  | nil => rfl
  | cons step before ih => exact ih (s.step step).1

/-- What holds at first and survives each of the steps holds behind all of them. -/
theorem steps_induction {motive : Session σ → Prop} {steps : List Step}
    (step : ∀ s, ∀ step ∈ steps, motive s → motive (s.step step).1) {s : Session σ}
    (start : motive s) : motive (s.steps steps).1 := by
  induction steps generalizing s with
  | nil => exact start
  | cons first rest ih =>
    exact ih (fun s next mem => step s next (List.mem_cons_of_mem _ mem))
      (step s first List.mem_cons_self start)

theorem coordinator_step (s : Session σ) (step : Step) :
    (s.step step).1.coordinator = s.coordinator := by
  cases step with
  | run schedule seed target =>
    rw [Session.step, settle]
    split <;> rfl
  | cancel | takeToken | newToken | cancelToken | useToken => rfl

theorem coordinator_steps (s : Session σ) (steps : List Step) :
    (s.steps steps).1.coordinator = s.coordinator :=
  steps_induction (motive := fun later => later.coordinator = s.coordinator)
    (fun later step _ same => (later.coordinator_step step).trans same) rfl

/-! ### Flags -/

/-- Every token in use has a flag. -/
structure Sound (s : Session σ) : Prop where
  observed : s.shelf.registry.Knows s.observed
  tokens : ∀ token ∈ s.shelf.tokens, s.shelf.registry.Knows token

/-- A step of the session as it stands raises the flag of the token. -/
def Raises (s : Session σ) (token : Token) : Step → Prop
  | .run schedule seed target =>
    s.observed = token ∧ ∃ action ∈ (s.runNow schedule seed target).history, action.raises = true
  | .cancel => s.observed = token
  | .cancelToken place => s.shelf.tokens[place]? = some token
  | .takeToken | .newToken | .useToken _ => False

theorem sound_start (c : Coordinator σ) (world : σ) : (start c world).Sound :=
  ⟨Nat.zero_lt_one, fun _ mem => absurd mem List.not_mem_nil⟩

theorem Sound.cancelObserved {s : Session σ} (h : s.Sound) : s.cancelObserved.Sound :=
  ⟨Registry.knows_cancel.2 h.observed, fun token mem =>
    Registry.knows_cancel.2 (h.tokens token mem)⟩

theorem Sound.step {s : Session σ} (h : s.Sound) (step : Step) : (s.step step).1.Sound := by
  cases step with
  | run schedule seed target =>
    have settled : ({ s with world := (s.runNow schedule seed target).world } : Session σ).Sound :=
      ⟨h.observed, h.tokens⟩
    rw [Session.step, settle]
    split
    · exact settled.cancelObserved
    · exact settled
  | cancel => exact h.cancelObserved
  | takeToken =>
    refine ⟨h.observed, fun token mem => ?_⟩
    rcases List.mem_append.1 mem with old | new
    · exact h.tokens token old
    · exact List.mem_singleton.1 new ▸ h.observed
  | newToken =>
    refine ⟨h.observed.fresh, fun token mem => ?_⟩
    rcases List.mem_append.1 mem with old | new
    · exact (h.tokens token old).fresh
    · exact List.mem_singleton.1 new ▸ s.shelf.registry.knows_fresh
  | cancelToken place =>
    rw [Session.step]
    cases found : s.shelf.tokens[place]? with
    | none =>
      rw [Shelf.apply_cancel_of_none found]
      exact h
    | some other =>
      rw [Shelf.apply_cancel_of_some found]
      exact ⟨Registry.knows_cancel.2 h.observed,
        fun token mem => Registry.knows_cancel.2 (h.tokens token mem)⟩
  | useToken place =>
    refine ⟨?_, h.tokens⟩
    rw [Session.step]
    cases found : s.shelf.tokens[place]? with
    | none => exact h.observed
    | some token => exact h.tokens token (List.mem_of_getElem? found)

theorem Sound.steps {s : Session σ} (h : s.Sound) (steps : List Step) : (s.steps steps).1.Sound :=
  steps_induction (fun _ step _ sound => sound.step step) h

/-- A flag is up behind a step exactly if it was up before or the step raises it. -/
theorem isCancelled_step {s : Session σ} (h : s.Sound) (step : Step) (token : Token) :
    (s.step step).1.shelf.registry.isCancelled token = true ↔
      s.shelf.registry.isCancelled token = true ∨ s.Raises token step := by
  cases step with
  | run schedule seed target =>
    have flag := s.coordinator.cancelled_run schedule seed target s.world s.isCancelled
    change (s.runNow schedule seed target).cancelled =
      (s.isCancelled || (s.runNow schedule seed target).history.any Action.raises) at flag
    rw [Session.step, settle]
    split
    · rename_i up
      rw [flag, Bool.or_eq_true, List.any_eq_true] at up
      refine (Registry.isCancelled_cancel_iff h.observed).trans ?_
      constructor
      · rintro (before | rfl)
        · exact .inl before
        · exact up.imp id fun raised => ⟨rfl, raised⟩
      · exact Or.imp_right And.left
    · rename_i down
      rw [flag, Bool.or_eq_true, List.any_eq_true, not_or] at down
      exact (or_iff_left fun raised => down.2 raised.2).symm
  | cancel => exact Registry.isCancelled_cancel_iff h.observed
  | takeToken | useToken => exact (or_iff_left id).symm
  | newToken =>
    rw [Raises, or_false]
    exact Bool.eq_iff_iff.1 (Registry.isCancelled_fresh_snd _ _)
  | cancelToken place =>
    rw [Raises, Session.step]
    cases found : s.shelf.tokens[place]? with
    | none =>
      rw [Shelf.apply_cancel_of_none found]
      simp
    | some other =>
      rw [Shelf.apply_cancel_of_some found, Option.some.injEq]
      exact Registry.isCancelled_cancel_iff (h.tokens other (List.mem_of_getElem? found))

/-- A flag is up behind some steps exactly if it was up before or one of them has raised it. -/
theorem isCancelled_steps {s : Session σ} (h : s.Sound) (steps : List Step) (token : Token) :
    (s.steps steps).1.shelf.registry.isCancelled token = true ↔
      s.shelf.registry.isCancelled token = true ∨
        ∃ before step after, steps = before ++ step :: after ∧
          (s.steps before).1.Raises token step := by
  induction steps generalizing s with
  | nil => simp [steps]
  | cons first rest ih =>
    refine (ih (h.step first)).trans ?_
    rw [isCancelled_step h, or_assoc]
    refine or_congr_right ⟨?_, ?_⟩
    · rintro (raised | ⟨before, step, after, rfl, raised⟩)
      · exact ⟨[], first, rest, rfl, raised⟩
      · exact ⟨first :: before, step, after, rfl, raised⟩
    · rintro ⟨before, step, after, same, raised⟩
      cases before with
      | nil =>
        cases same
        exact .inl raised
      | cons other before =>
        cases same
        exact .inr ⟨before, step, after, rfl, raised⟩

/-! ### The observed token -/

/-- The step has the coordinator observe another token. -/
def Step.installs : Step → Bool
  | .useToken _ => true
  | _ => false

theorem observed_step (s : Session σ) {step : Step} (keeps : step.installs = false) :
    (s.step step).1.observed = s.observed := by
  cases step with
  | run schedule seed target =>
    rw [Session.step, settle]
    split <;> rfl
  | cancel | takeToken | newToken | cancelToken => rfl
  | useToken => cases keeps

theorem observed_steps (s : Session σ) {steps : List Step}
    (keep : ∀ step ∈ steps, step.installs = false) :
    (s.steps steps).1.observed = s.observed :=
  steps_induction (motive := fun later => later.observed = s.observed)
    (fun later step mem same => (later.observed_step (keep step mem)).trans same) rfl

theorem observed_useToken {s : Session σ} {place : Nat} {token : Token}
    (found : s.shelf.tokens[place]? = some token) :
    (s.step (.useToken place)).1.observed = token := by
  rw [Session.step, found, Option.getD_some]

end Session

/-! ### Runs under a raised flag -/

/-- A flag that is up stays up. -/
theorem Coordinator.cancelled_looked_of (schedule : Schedule) {p : Progress σ}
    (up : p.site.cancelled = true) : (looked schedule p).site.cancelled = true :=
  (p.site.since_tick _).cancelled_of up

/-- The look of a search that has done nothing so far finds the flag up. -/
theorem Coordinator.mem_history_looked (schedule : Schedule) {p : Progress σ}
    (up : p.site.cancelled = true) (new : p.site.history = []) {action : Action}
    (mem : action ∈ (looked schedule p).site.history) :
    action = .cancelled ∨ action = .looked true := by
  have stays : (p.tick schedule).site.cancelled = true := cancelled_looked_of schedule up
  have history := (p.site.since_tick (schedule p.site.clock)).history
  rw [new, List.append_nil] at history
  rcases List.mem_cons.1 mem with rfl | old
  · exact .inr (congrArg Action.looked stays)
  · change action ∈ (p.site.tick (schedule p.site.clock)).history at old
    rw [history] at old
    split at old
    · exact .inl (List.mem_singleton.1 old)
    · cases old

/-- A search that is cancelled before it begins ends at its first look at the flag. -/
theorem Coordinator.run_of_cancelled (c : Coordinator σ) (schedule : Schedule) (seed : Seed)
    {target : UInt64} (asked : target ≠ 0) (world : σ) :
    c.run schedule seed target world true =
      (looked schedule (c.setOut target world true)).finish (.error .cancelled)
        [.cancelledBefore 0] := by
  have few : ¬ target.toNat ≤ (c.setOut target world true).found.size :=
    fun enough => asked (UInt64.toNat_inj.1 (Nat.le_zero.1 enough))
  have up : (looked schedule (c.setOut target world true)).site.cancelled = true :=
    cancelled_looked_of schedule rfl
  rw [run, if_neg asked]
  apply rounds_of_ended
  rw [round_eq, if_neg few, if_pos up]
  rfl

namespace Session

/-- Every run is refused before its first batch, except those for no keys. -/
def Refuses (s : Session σ) : Prop :=
  ∀ schedule seed target, ∃ run, (s.step (.run schedule seed target)).2 = some run ∧
    run.result = (if target = 0 then .ok ⟨[], .zero⟩ else .error .cancelled) ∧
    (∀ action ∈ run.history, action = .cancelled ∨ action = .looked true) ∧ run.world = s.world

theorem refuses_of_isCancelled {s : Session σ} (up : s.isCancelled = true) : s.Refuses := by
  intro schedule seed target
  refine ⟨_, rfl, ?_⟩
  rw [runNow, up]
  by_cases asked : target = 0
  · rw [Coordinator.run, if_pos asked, if_pos asked]
    exact ⟨rfl, fun _ mem => absurd mem List.not_mem_nil, rfl⟩
  · rw [s.coordinator.run_of_cancelled schedule seed asked, if_neg asked]
    refine ⟨rfl, fun action mem => ?_, Coordinator.world_looked schedule _⟩
    exact Coordinator.mem_history_looked schedule rfl rfl (List.mem_reverse.1 mem)

/-- Nobody lowers the flag of the observed token. -/
theorem isCancelled_of_step {s : Session σ} (h : s.Sound) (up : s.isCancelled = true) {step : Step}
    (keeps : step.installs = false) : (s.step step).1.isCancelled = true := by
  rw [isCancelled, observed_step s keeps]
  exact (isCancelled_step h step _).2 (.inl up)

theorem refuses_steps {s : Session σ} (h : s.Sound) (up : s.isCancelled = true)
    {steps : List Step} (keep : ∀ step ∈ steps, step.installs = false) :
    (s.steps steps).1.isCancelled = true ∧ (s.steps steps).1.Refuses := by
  have still := steps_induction
    (motive := fun later : Session σ => later.Sound ∧ later.isCancelled = true)
    (fun later step mem ⟨sound, up⟩ =>
      ⟨sound.step step, isCancelled_of_step sound up (keep step mem)⟩)
    (s := s) ⟨h, up⟩
  exact ⟨still.2, refuses_of_isCancelled still.2⟩

/-! ### Flags of other tokens -/

/-- Two sessions that differ in no flag but those of tokens that are not observed. -/
structure Twins (s t : Session σ) : Prop where
  coordinator : t.coordinator = s.coordinator
  observed : t.observed = s.observed
  tokens : t.shelf.tokens = s.shelf.tokens
  world : t.world = s.world
  families : t.shelf.registry.flags.length = s.shelf.registry.flags.length
  flag : t.isCancelled = s.isCancelled

namespace Twins

variable {s t : Session σ}

theorem runNow_eq (h : Twins s t) (schedule : Schedule) (seed : Seed) (target : UInt64) :
    t.runNow schedule seed target = s.runNow schedule seed target := by
  rw [runNow, runNow, h.coordinator, h.world, h.flag]

theorem step_snd (h : Twins s t) (step : Step) : (t.step step).2 = (s.step step).2 := by
  cases step with
  | run schedule seed target => exact congrArg some (h.runNow_eq schedule seed target)
  | cancel | takeToken | newToken | cancelToken | useToken => rfl

theorem raises_iff (h : Twins s t) (token : Token) (step : Step) :
    t.Raises token step ↔ s.Raises token step := by
  cases step with
  | run schedule seed target => rw [Raises, Raises, h.observed, h.runNow_eq]
  | cancel => rw [Raises, Raises, h.observed]
  | cancelToken place => rw [Raises, Raises, h.tokens]
  | takeToken | newToken | useToken => exact Iff.rfl

theorem sound (h : Twins s t) (sound : s.Sound) : t.Sound := by
  refine ⟨?_, fun token mem => ?_⟩
  · rw [Registry.Knows, h.observed, h.families]
    exact sound.observed
  · rw [Registry.Knows, h.families]
    exact sound.tokens token (h.tokens ▸ mem)

/-- Apart from the flags, a step that installs no token makes the same of both. -/
theorem step_shelf (h : Twins s t) (step : Step) :
    (t.step step).1.shelf.tokens = (s.step step).1.shelf.tokens ∧
      (t.step step).1.world = (s.step step).1.world ∧
      (t.step step).1.shelf.registry.flags.length =
        (s.step step).1.shelf.registry.flags.length := by
  cases step with
  | run schedule seed target =>
    rw [Session.step, Session.step, h.runNow_eq, settle, settle]
    split
    · exact ⟨h.tokens, rfl, Registry.length_cancel_congr h.families _ _⟩
    · exact ⟨h.tokens, rfl, h.families⟩
  | cancel => exact ⟨h.tokens, h.world, Registry.length_cancel_congr h.families _ _⟩
  | takeToken =>
    refine ⟨?_, h.world, h.families⟩
    rw [Session.step, Session.step, h.tokens, h.observed]
  | newToken =>
    rw [Session.step, Session.step]
    simp only [Shelf.apply, Registry.fresh, h.tokens, h.families, h.world, List.length_append,
      and_self]
  | cancelToken place =>
    rw [Session.step, Session.step]
    cases found : s.shelf.tokens[place]? with
    | none =>
      rw [Shelf.apply_cancel_of_none found, Shelf.apply_cancel_of_none (h.tokens ▸ found)]
      exact ⟨h.tokens, h.world, h.families⟩
    | some token =>
      rw [Shelf.apply_cancel_of_some found, Shelf.apply_cancel_of_some (h.tokens ▸ found)]
      exact ⟨h.tokens, h.world, Registry.length_cancel_congr h.families _ _⟩
  | useToken => exact ⟨h.tokens, h.world, h.families⟩

theorem step (h : Twins s t) (sound : s.Sound) {step : Step} (keeps : step.installs = false) :
    Twins (s.step step).1 (t.step step).1 := by
  obtain ⟨tokens, world, families⟩ := h.step_shelf step
  have before := h.flag
  rw [isCancelled, isCancelled, h.observed] at before
  refine ⟨?_, ?_, tokens, world, families, ?_⟩
  · rw [coordinator_step, coordinator_step, h.coordinator]
  · rw [observed_step t keeps, observed_step s keeps, h.observed]
  · rw [Bool.eq_iff_iff, isCancelled, isCancelled, observed_step t keeps, observed_step s keeps,
      h.observed, isCancelled_step (h.sound sound), isCancelled_step sound, h.raises_iff, before]

theorem steps_snd (h : Twins s t) (sound : s.Sound) {steps : List Step}
    (keep : ∀ step ∈ steps, step.installs = false) : (t.steps steps).2 = (s.steps steps).2 := by
  induction steps generalizing s t with
  | nil => rfl
  | cons first rest ih =>
    obtain ⟨keeps, keep⟩ := List.forall_mem_cons.1 keep
    rw [Session.steps, Session.steps]
    exact congrArg₂ (·.toList ++ ·) (h.step_snd first)
      (ih (h.step sound keeps) (sound.step first) keep)

end Twins

/-- Cancelling a token that is not observed makes a twin. -/
theorem twins_cancelToken {s : Session σ} (h : s.Sound) {place : Nat} {token : Token}
    (found : s.shelf.tokens[place]? = some token) (other : token ≠ s.observed) :
    Twins s (s.step (.cancelToken place)).1 := by
  have flag : (s.step (.cancelToken place)).1.isCancelled = s.isCancelled := by
    rw [Bool.eq_iff_iff, isCancelled, observed_step s rfl, isCancelled_step h]
    refine or_iff_left fun raised => other (Option.some.inj (found.symm.trans raised))
  refine ⟨rfl, rfl, ?_, rfl, ?_, flag⟩
  · rw [Session.step, Shelf.apply_cancel_of_some found]
  · rw [Session.step, Shelf.apply_cancel_of_some found]
    exact Registry.length_cancel _ _

/-- The coordinator obeys the token installed last, from its own one on, and no other. -/
structure ObeysLatest (first : Session σ) (steps : List Step) (s : Session σ) : Prop where
  own : (∀ step ∈ steps, step.installs = false) → s.observed = first.observed
  installed : ∀ before place after token, steps = before ++ .useToken place :: after →
    (∀ step ∈ after, step.installs = false) →
    (first.steps before).1.shelf.tokens[place]? = some token → s.observed = token
  cancelled : s.isCancelled = true ↔
    ∃ before step after, steps = before ++ step :: after ∧
      (first.steps before).1.Raises s.observed step
  refuses : s.isCancelled = true → ∀ later, (∀ step ∈ later, step.installs = false) →
    (s.steps later).1.isCancelled = true ∧ (s.steps later).1.Refuses
  others : ∀ place token, s.shelf.tokens[place]? = some token → token ≠ s.observed →
    ∀ later, (∀ step ∈ later, step.installs = false) →
      ((s.step (.cancelToken place)).1.steps later).2 = (s.steps later).2

theorem isCancelled_start (c : Coordinator σ) (world : σ) (token : Token) :
    (start c world).shelf.registry.isCancelled token = false :=
  Registry.isCancelled_fresh_snd .empty token

theorem obeysLatest_start (c : Coordinator σ) (world : σ) (steps : List Step) :
    ObeysLatest (start c world) steps ((start c world).steps steps).1 where
  own := observed_steps (start c world)
  installed before place after token split keep found := by
    subst split
    rw [steps_append]
    exact (observed_steps _ keep).trans (observed_useToken found)
  cancelled := by
    rw [isCancelled, isCancelled_steps (sound_start c world), isCancelled_start]
    simp only [Bool.false_eq_true, false_or]
  refuses up later keep := refuses_steps ((sound_start c world).steps steps) up keep
  others place token found other later keep :=
    have sound := (sound_start c world).steps steps
    (twins_cancelToken sound found other).steps_snd sound keep

/-! ### Runs afresh -/

/-- A session just begun, with a token that is cancelled already or not. -/
def begun (c : Coordinator σ) (world : σ) (cancelled : Bool) : Session σ :=
  if cancelled then (start c world).cancelObserved else start c world

theorem step_begun (c : Coordinator σ) (world : σ) (cancelled : Bool) (schedule : Schedule)
    (seed : Seed) (target : UInt64) :
    ((begun c world cancelled).step (.run schedule seed target)).2 =
      some (c.run schedule seed target world cancelled) := by
  cases cancelled <;> rfl

/-- The next run is that of a session just begun in the given world, with a token that is cancelled
if the observed one is; only the world behind it may be another. -/
def RunsAsIn (s : Session σ) (world : σ) : Prop :=
  ∀ schedule seed target, ∃ run left, (s.step (.run schedule seed target)).2 = some run ∧
    ((begun s.coordinator world s.isCancelled).step (.run schedule seed target)).2 =
      some (run.inWorld left)

theorem world_settle (s : Session σ) (run : Run σ) : (s.settle run).world = run.world := by
  rw [settle]
  split <;> rfl

section

variable {s : Session σ} {alike : σ → σ → Prop}
  (overlooks : ∀ seed, (s.coordinator.job seed).Overlooks alike)

include overlooks

theorem runsAsIn {world : σ} (h : alike s.world world) : s.RunsAsIn world := by
  intro schedule seed target
  obtain ⟨left, -, same⟩ :=
    Coordinator.run_inWorld (overlooks seed) schedule target h s.isCancelled
  exact ⟨_, left, rfl, (step_begun _ _ _ _ _ _).trans (congrArg some same)⟩

/-- A world that is alike to itself, which may say something of it, stays so. -/
theorem alike_steps (h : alike s.world s.world) (steps : List Step) :
    alike (s.steps steps).1.world (s.steps steps).1.world := by
  have kept : (s.steps steps).1.coordinator = s.coordinator ∧
      alike (s.steps steps).1.world (s.steps steps).1.world := by
    refine steps_induction
      (motive := fun later => later.coordinator = s.coordinator ∧ alike later.world later.world)
      ?_ ⟨rfl, h⟩
    rintro later step - ⟨same, h⟩
    refine ⟨(later.coordinator_step step).trans same, ?_⟩
    cases step with
    | run schedule seed target =>
      rw [Session.step, world_settle]
      obtain ⟨left, after, again⟩ :=
        Coordinator.run_inWorld (same ▸ overlooks seed) schedule target h later.isCancelled
      have world : (later.runNow schedule seed target).world = left := congrArg Run.world again
      rw [← world] at after
      exact after
    | cancel | takeToken | newToken | cancelToken | useToken => exact h
  exact kept.2

end

end Session

/-- A wallet is steady, whatever it remembers. -/
theorem steady_wallet (w : Derivation.Wallet) :
    w.deriver.Steady (Derivation.Memory.BelongsTo w) w.deriveAfresh fun _ _ => false :=
  ⟨w.behaves_deriver, fun _ _ _ _ => rfl⟩

/-- With a steady key service such as a wallet, which may start from an empty memory, no run of a
session carries anything over to the next one. Behind all steps the coordinator is what it was; its
next run is that of a session just begun, whatever the key service remembers there, with the
assigner as it stands or, if that keeps nothing in mind either, as it may be; and it obeys the token
installed last. -/
theorem sessions_carry_nothing_over {deriver : Derivation.Deriver σ} {inv : σ → Prop}
    {derive : Seed → Position → Derivation.Outcome} {cancels : Seed → Position → Bool}
    (d : deriver.Steady inv derive cancels) (assigner : Shard.Assigner τ)
    (constraints : Shard.Constraints) {config : Config} (valid : config.validate = .ok ())
    {world : σ} (h : inv world) (rest : τ) :
    (∀ w : Derivation.Wallet, Derivation.Memory.BelongsTo w none ∧
      w.deriver.Steady (Derivation.Memory.BelongsTo w) w.deriveAfresh fun _ _ => false) ∧
    ∃ c, Coordinator.make deriver.onFst ⟨constraints, assigner.onSnd⟩ config = .ok c ∧
      ∀ steps s, s = ((Session.start c (world, rest)).steps steps).1 →
        (s.coordinator = c ∧ c.config = config ∧ c.evaluator.constraints = constraints) ∧
        (∀ world', inv world' → s.RunsAsIn (world', s.world.2)) ∧
        (∀ inv' actual projected, assigner.Behaves inv' actual projected → inv' rest →
          ∀ world' rest', inv world' → inv' rest' → s.RunsAsIn (world', rest')) ∧
        Session.ObeysLatest (Session.start c (world, rest)) steps s := by
  refine ⟨fun w => ⟨Derivation.Memory.belongsTo_none w, steady_wallet w⟩, ?_⟩
  obtain ⟨c, made, sameDeriver, sameEvaluator, rfl⟩ :=
    Coordinator.exists_make_eq_ok (deriver.onFst : Derivation.Deriver (σ × τ))
      ⟨constraints, assigner.onSnd⟩ valid
  refine ⟨c, made, ?_⟩
  rintro steps s rfl
  have same : ((Session.start c (world, rest)).steps steps).1.coordinator = c :=
    (Session.start c (world, rest)).coordinator_steps steps
  have overlooks {alike : τ → τ → Prop} (a : assigner.Overlooks alike) (seed : Seed) :
      (c.job seed).Overlooks (Beside inv alike) := by
    rw [Coordinator.job, sameDeriver, sameEvaluator]
    exact Job.overlooks d a seed constraints
  refine ⟨⟨same, rfl, by rw [sameEvaluator]⟩, fun world' h' => ?_, ?_, ?_⟩
  · have eq := overlooks assigner.overlooks_eq
    obtain ⟨inside, -, -⟩ := Session.alike_steps (s := Session.start c (world, rest)) eq
      ⟨h, h, rfl⟩ steps
    exact Session.runsAsIn (same ▸ eq) ⟨inside, h', rfl⟩
  · intro inv' actual projected behaves holds world' rest' h' holds'
    have any := overlooks behaves.overlooks
    obtain ⟨inside, -, inside', -⟩ := Session.alike_steps (s := Session.start c (world, rest)) any
      ⟨h, h, holds, holds⟩ steps
    exact Session.runsAsIn (same ▸ any) ⟨inside, h', inside', holds'⟩
  · exact Session.obeysLatest_start c (world, rest) steps

/-- Behind a run that has failed and a cancellation, the session of `boundSearch` refuses further
runs like one just begun that is cancelled. -/
theorem sessions_carry_nothing_over_boundSearch :
    ∃ s, s = ((Session.start boundSearch (none, ())).steps
        [.run (.roundRobin 2) ⟨[]⟩ 1, .cancel]).1 ∧
      s.isCancelled = true ∧ s.Refuses ∧ s.RunsAsIn (none, ()) := by
  have valid : boundSearch.config.validate = .ok () := rfl
  have made : Coordinator.make boundSearch.deriver boundSearch.evaluator boundSearch.config =
    .ok boundSearch := rfl
  obtain ⟨c, made', carries⟩ := (sessions_carry_nothing_over (steady_wallet .main)
    Iteration.evenStubs.evaluator.assigner boundSearch.evaluator.constraints valid
    (Derivation.Memory.belongsTo_none .main) ()).2
  cases made.symm.trans made'
  obtain ⟨-, runs, -, obeys⟩ := carries [.run (.roundRobin 2) ⟨[]⟩ 1, .cancel] _ rfl
  have keep : ∀ step ∈ [Session.Step.run (.roundRobin 2) ⟨[]⟩ 1], step.installs = false := by
    simp [Session.Step.installs]
  have observed := (Session.start boundSearch (none, ())).observed_steps keep
  have up := obeys.cancelled.2 ⟨[.run (.roundRobin 2) ⟨[]⟩ 1], .cancel, [], rfl,
    observed.trans (obeys.own (by simp [Session.Step.installs])).symm⟩
  exact ⟨_, rfl, up, (obeys.refuses up [] (by simp)).2,
    runs none (Derivation.Memory.belongsTo_none .main)⟩

end KeySearch.Search
