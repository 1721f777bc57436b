import KeySearch.Proofs.Search.Consultation
import KeySearch.Proofs.Shard.Placement

/-! Which constraints the usual assigner can fulfil. A projected shard that exists is the actual
shard as well, so a key that lies in the wanted shards of both axes has them equal: constraints that
name two different shards are accepted when they are made and by no key, and a search under them
returns nothing, however many candidates it goes through. In all other cases the last four bytes of
a key can be chosen so that it is accepted, whatever stands before them. -/

namespace KeySearch

variable {σ : Type}

namespace Shard

/-! ### Constraints as they are made -/

namespace Constraints

theorem map_val_of_checkAxis {numShards : UInt32} {fault : UInt32 → UInt32 → ConfigError}
    {wanted : Option UInt32} {axis : Option (ShardId numShards)}
    (checked : checkAxis numShards fault wanted = .ok axis) : axis.map (·.val) = wanted := by
  cases wanted with
  | none =>
    cases checked
    rfl
  | some shard =>
    simp only [checkAxis] at checked
    split at checked
    · cases checked
      rfl
    · cases checked

/-- Constraints hold what they are made of. -/
theorem eq_of_make {numShards : UInt32} {actual projected : Option UInt32} {c : Constraints}
    (made : make numShards actual projected = .ok c) :
    c.numShards = numShards ∧ c.actualShard = actual ∧ c.projectedShard = projected := by
  unfold make at made
  split at made
  · cases first : checkAxis numShards .actualShardOutOfRange actual with
    | error fault =>
      rw [first] at made
      cases made
    | ok axis =>
      cases second : checkAxis numShards .projectedShardOutOfRange projected with
      | error fault =>
        rw [first, second] at made
        cases made
      | ok axis' =>
        rw [first, second] at made
        cases made
        exact ⟨rfl, map_val_of_checkAxis first, map_val_of_checkAxis second⟩
  · cases made

/-- Only shards that exist are asked for. -/
theorem lt_of_map_val_eq_some {numShards shard : UInt32} {axis : Option (ShardId numShards)}
    (wanted : axis.map (·.val) = some shard) : shard < numShards := by
  obtain ⟨found, -, rfl⟩ := Option.map_eq_some_iff.1 wanted
  exact found.property

/-- Axes that do not disagree are bound to one shard at most. -/
theorem exists_common_shard (c : Constraints)
    (agree : ∀ a p, c.actualShard = some a → c.projectedShard = some p → a = p) :
    ∃ shard < c.numShards, (∀ a, c.actualShard = some a → shard = a) ∧
      ∀ p, c.projectedShard = some p → shard = p := by
  cases actual : c.actualShard with
  | none =>
    cases projected : c.projectedShard with
    | none => exact ⟨0, c.numShards_pos, nofun, nofun⟩
    | some p =>
      exact ⟨p, lt_of_map_val_eq_some projected, nofun, fun _ same => Option.some.inj same⟩
  | some a =>
    exact ⟨a, lt_of_map_val_eq_some actual, fun _ same => Option.some.inj same,
      fun p projected => agree a p actual projected⟩

end Constraints

namespace Mask

/-! ### Keys that are accepted -/

theorem satisfies_eq_true_iff (c : Constraints) (key : Key) (world : σ) :
    (satisfies c assigner key world).1 = true ↔
      (∀ a, c.actualShard = some a → shardOf key.publicKey c.numShards = a) ∧
        ∀ p, c.projectedShard = some p → projectedOf key.publicKey c.numShards = p := by
  obtain ⟨numShards, pos, actual, projected⟩ := c
  cases actual <;> cases projected <;>
    simp [satisfies, axisHolds, assigner, Assigner.ofFn, Constraints.actualShard,
      Constraints.projectedShard]

/-- Whatever the bytes before them, four bytes put a key into a given shard. -/
theorem projectedOf_append {shard numShards : UInt32} (lt : shard < numShards) (front : Bytes) :
    projectedOf (front ++ Bytes.ofNat 4 shard.toNat) numShards = shard := by
  have small : shard.toNat < 2 ^ Nat.clog 2 numShards.toNat :=
    (UInt32.lt_iff_toNat_lt.1 lt).trans_le (Nat.le_pow_clog Nat.one_lt_two _)
  have whole : 2 ^ Nat.clog 2 numShards.toNat ∣ 256 ^ 4 :=
    Nat.pow_dvd_pow 2 (clog_le numShards)
  rw [← UInt32.toNat_inj, toNat_projectedOf, Bytes.toNat_append, Bytes.length_ofNat,
    Bytes.toNat_ofNat_of_lt shard.toNat_lt, Nat.add_mod, Nat.mod_eq_zero_of_dvd (whole.mul_right _),
    Nat.zero_add, Nat.mod_mod, Nat.mod_eq_of_lt small]

/-- A projected shard that exists is the actual shard as well. -/
theorem shardOf_of_projectedOf {publicKey : Bytes} {shard numShards : UInt32}
    (lt : shard < numShards) (projected : projectedOf publicKey numShards = shard) :
    shardOf publicKey numShards = shard := by
  have pos : 0 < numShards := UInt32.lt_of_le_of_lt UInt32.zero_le lt
  rw [(shardOf_eq_projectedOf_iff _ pos).2 (projected.symm ▸ lt), projected]

variable {c : Constraints}

/-- With two different shards asked for, no key is accepted. -/
theorem satisfies_eq_false {a p : UInt32} (actual : c.actualShard = some a)
    (projected : c.projectedShard = some p) (differ : a ≠ p) (key : Key) (world : σ) :
    (satisfies c assigner key world).1 = false := by
  rw [Bool.eq_false_iff, Ne, satisfies_eq_true_iff]
  intro ⟨lies, lies'⟩
  apply differ
  calc a = shardOf key.publicKey c.numShards := (lies a actual).symm
    _ = p := shardOf_of_projectedOf (Constraints.lt_of_map_val_eq_some projected)
      (lies' p projected)

/-- With at most one shard asked for, four bytes at the end can have a key accepted. -/
theorem exists_rest_satisfies
    (agree : ∀ a p, c.actualShard = some a → c.projectedShard = some p → a = p) (front : Bytes)
    (world : σ) : ∃ rest : Bytes, rest.length = 4 ∧
      ∀ key, key.publicKey = front ++ rest → (satisfies c assigner key world).1 = true := by
  obtain ⟨shard, lt, actual, projected⟩ := c.exists_common_shard agree
  refine ⟨Bytes.ofNat 4 shard.toNat, Bytes.length_ofNat _ _, ?_⟩
  intro key ends
  have last := projectedOf_append lt front
  rw [satisfies_eq_true_iff, ends, last, shardOf_of_projectedOf lt last]
  exact ⟨actual, projected⟩

/-- With one shard asked for on both axes, the projected shard decides. -/
theorem satisfies_iff_projectedOf {p : UInt32} (actual : c.actualShard = some p)
    (projected : c.projectedShard = some p) (key : Key) (world : σ) :
    (satisfies c assigner key world).1 = true ↔ projectedOf key.publicKey c.numShards = p := by
  rw [satisfies_eq_true_iff]
  constructor
  · intro lies
    exact lies.2 p projected
  · intro lies
    have lies' := shardOf_of_projectedOf (Constraints.lt_of_map_val_eq_some projected) lies
    rw [actual, projected, lies, lies']
    exact ⟨fun _ same => Option.some.inj same, fun _ same => Option.some.inj same⟩

end Mask

end Shard

/-! ### Searches that nothing is accepted in -/

namespace Search

variable {job : Job σ}

theorem Job.keep?_eq_none (rejects : ∀ key world, (job.evaluator.satisfies key world).1 = false)
    (position : Position) (world : σ) : job.keep? position world = none := by
  rcases derived : job.deriver.derive job.seed position world with ⟨reply, after⟩
  cases outcome : reply.outcome with
  | error cause => rw [keep?, judge_of_error derived outcome, if_neg Bool.false_ne_true]
  | ok key => rw [keep?, judge_of_ok derived outcome, rejects, if_neg Bool.false_ne_true]

theorem Job.gather_keep?_eq_nil
    (rejects : ∀ key world, (job.evaluator.satisfies key world).1 = false)
    (calls : List (Nat × Position)) (world : σ) : job.gather job.keep? calls world = [] := by
  induction calls generalizing world with
  | nil => rfl
  | cons call calls ih =>
    rw [gather, keep?_eq_none rejects, ih, Option.toList_none, List.nil_append]

/-- An evaluator that accepts no key lets no search for keys come to a good end. -/
theorem Coordinator.result_ne_ok {c : Coordinator σ}
    (rejects : ∀ key world, (c.evaluator.satisfies key world).1 = false) (schedule : Schedule)
    (seed : Seed) {target : UInt64} (asked : target ≠ 0) (world : σ) (cancelled : Bool)
    (report : Report) : (c.run schedule seed target world cancelled).result ≠ .ok report := by
  intro found
  obtain ⟨kept, perm, enough, -⟩ := exists_kept_of_ok rfl found
  rw [Job.gather_keep?_eq_nil rejects] at perm
  rw [perm.eq_nil, List.length_nil, Nat.le_zero] at enough
  exact asked (UInt64.toNat_inj.1 enough)

theorem Coordinator.evaluator_of_make {deriver : Derivation.Deriver σ}
    {evaluator : Shard.Evaluator σ} {config : Config} {c : Coordinator σ}
    (made : make deriver evaluator config = .ok c) : c.evaluator = evaluator := by
  unfold make at made
  split at made
  · cases made
    rfl
  · cases made

theorem search_ne_ok {evaluator : Shard.Evaluator σ}
    (rejects : ∀ key world, (evaluator.satisfies key world).1 = false) (schedule : Schedule)
    (seed : Seed) (deriver : Derivation.Deriver σ) (config : Config) {target : UInt64}
    (asked : target ≠ 0) (world : σ) (keys : List Key) :
    search schedule seed deriver evaluator.assigner evaluator.constraints config target world ≠
      .ok keys := by
  intro found
  cases made : Coordinator.make deriver evaluator config with
  | error fault =>
    change Coordinator.make deriver ⟨evaluator.constraints, evaluator.assigner⟩ config = _ at made
    rw [search, made] at found
    cases found
  | ok c =>
    rw [Coordinator.search_eq made] at found
    rw [← Coordinator.evaluator_of_make made] at rejects
    have unfound := Coordinator.result_ne_ok rejects schedule seed asked world false
    cases result : (c.run schedule seed target world false).result with
    | error error =>
      rw [result] at found
      cases found
    | ok report => exact unfound report result

end Search

namespace Shard.Mask

open KeySearch.Search (Config Coordinator Report Schedule search)

/-- With the usual assigner, constraints that can be made are fulfilled by some key, and by keys with
any bytes in front, unless they bind the axes to different shards. If both axes are bound to one
shard, it is enough that the projected shard is this one. If they are bound to different shards, no
key is accepted, and no search for keys under these constraints comes to a good end. A key whose
projected shard does not exist yet is accepted only where the projected axis is free. -/
theorem accepts_unless_axes_disagree (world : σ) {numShards : UInt32}
    {actual projected : Option UInt32} {c : Constraints}
    (made : Constraints.make numShards actual projected = .ok c) :
    ((∃ key, (satisfies c assigner key world).1 = true) ↔
        ¬ ∃ a p, actual = some a ∧ projected = some p ∧ a ≠ p) ∧
      ((¬ ∃ a p, actual = some a ∧ projected = some p ∧ a ≠ p) →
        ∀ front : Bytes, ∃ rest : Bytes, rest.length = 4 ∧
          ∀ key, key.publicKey = front ++ rest → (satisfies c assigner key world).1 = true) ∧
      (∀ p, actual = some p → projected = some p → ∀ key,
        (satisfies c assigner key world).1 = true ↔ projectedOf key.publicKey numShards = p) ∧
      (∀ a p, actual = some a → projected = some p → a ≠ p →
        (∀ key, (satisfies c assigner key world).1 = false) ∧
        ∀ (deriver : Derivation.Deriver σ) (config : Config) (schedule : Schedule) (seed : Seed)
          (target : UInt64), target ≠ 0 →
          (∀ coordinator, Coordinator.make deriver ⟨c, assigner⟩ config = .ok coordinator →
            ∀ cancelled report,
              (coordinator.run schedule seed target world cancelled).result ≠ .ok report) ∧
          ∀ keys, search schedule seed deriver assigner c config target world ≠ .ok keys) ∧
      ∀ p, projected = some p → ∀ key, numShards ≤ projectedOf key.publicKey numShards →
        (satisfies c assigner key world).1 = false := by
  obtain ⟨rfl, rfl, rfl⟩ := Constraints.eq_of_make made
  have agreed (agree : ¬ ∃ a p, c.actualShard = some a ∧ c.projectedShard = some p ∧ a ≠ p) :
      ∀ a p, c.actualShard = some a → c.projectedShard = some p → a = p := by
    intro a p bound bound'
    by_contra differ
    exact agree ⟨a, p, bound, bound', differ⟩
  refine ⟨⟨?_, ?_⟩, ?_, ?_, ?_, ?_⟩
  · rintro ⟨key, accepted⟩ ⟨a, p, bound, bound', differ⟩
    rw [satisfies_eq_false bound bound' differ] at accepted
    cases accepted
  · intro agree
    obtain ⟨rest, -, accepted⟩ := exists_rest_satisfies (agreed agree) [] world
    exact ⟨⟨⟨0, 0⟩, [], rest, ""⟩, accepted _ rfl⟩
  · intro agree front
    exact exists_rest_satisfies (agreed agree) front world
  · intro p bound bound' key
    exact satisfies_iff_projectedOf bound bound' key world
  · intro a p bound bound' differ
    refine ⟨fun key => satisfies_eq_false bound bound' differ key world, ?_⟩
    intro deriver config schedule seed target asked
    have rejects (key : Key) (world : σ) :
        ((⟨c, assigner⟩ : Evaluator σ).satisfies key world).1 = false :=
      satisfies_eq_false bound bound' differ key world
    constructor
    · intro coordinator made cancelled
      rw [← Coordinator.evaluator_of_make made] at rejects
      exact Coordinator.result_ne_ok rejects schedule seed asked world cancelled
    · exact Search.search_ne_ok rejects schedule seed deriver config asked world
  · intro p bound key beyond
    rw [Bool.eq_false_iff, Ne, satisfies_eq_true_iff]
    rintro ⟨-, lies⟩
    have lt := Constraints.lt_of_map_val_eq_some bound
    rw [← lies p bound] at lt
    exact absurd (UInt32.lt_of_lt_of_le lt beyond) (UInt32.lt_irrefl _)

/-- Among three shards a key cannot lie in shard 1 and be projected to shard 2. -/
theorem accepts_unless_axes_disagree_three :
    ∃ c, Constraints.make 3 (some 1) (some 2) = .ok c ∧
      (∀ key, (satisfies c assigner key ()).1 = false) ∧
      ∀ keys, search (.roundRobin 2) ⟨[]⟩ (Rehearsal.stub 0 false) assigner c
        ⟨5, 2, 2, false, none⟩ 1 () ≠ .ok keys := by
  have made : Constraints.make 3 (some 1) (some 2) =
      .ok ⟨3, by decide, some ⟨1, by decide⟩, some ⟨2, by decide⟩⟩ := rfl
  obtain ⟨-, -, -, disagree, -⟩ := accepts_unless_axes_disagree () made
  obtain ⟨rejects, unfound⟩ := disagree 1 2 rfl rfl (by decide)
  exact ⟨_, made, rejects, (unfound _ _ _ _ 1 (by decide)).2⟩

end Shard.Mask

end KeySearch
