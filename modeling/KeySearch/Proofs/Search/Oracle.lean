import KeySearch.Search.Worker

/-! Services that keep nothing in mind. A key service or an assigner may work on a world of its own
as long as its answers are those of a function in every world of some class that no call leaves; a
call may all the same cancel the search. An `Oracle` is what remains of such services for one seed:
the outcome at each position and the keys that are wanted. With it the candidates of a range of
indices have a fixed list of hits, which says nothing of tasks, workers or schedules. -/

namespace KeySearch

open KeySearch.Derivation (Deriver Outcome)

variable {σ : Type}

/-! ### Services -/

/-- The outcomes are those of a function in all worlds of `inv`, and calls keep to such worlds. -/
structure Derivation.Deriver.Behaves (d : Deriver σ) (inv : σ → Prop)
    (derive : Seed → Position → Outcome) : Prop where
  outcome (seed : Seed) (position : Position) {world : σ} (h : inv world) :
    (d.derive seed position world).1.outcome = derive seed position
  keeps (seed : Seed) (position : Position) {world : σ} (h : inv world) :
    inv (d.derive seed position world).2

theorem Derivation.Deriver.behaves_ofFn (f : Seed → Position → Outcome) :
    (Deriver.ofFn f : Deriver σ).Behaves (fun _ => True) f :=
  ⟨fun _ _ _ _ => rfl, fun _ _ _ _ => trivial⟩

/-- A service goes on answering as it does when it shares a larger world. -/
theorem Derivation.Deriver.Behaves.onFst {τ : Type} {d : Deriver σ} {inv : σ → Prop}
    {derive : Seed → Position → Outcome} (h : d.Behaves inv derive) (rest : τ → Prop) :
    (d.onFst : Deriver (σ × τ)).Behaves (fun world => inv world.1 ∧ rest world.2) derive where
  outcome seed position _ world := h.outcome seed position world.1
  keeps seed position _ world := ⟨h.keeps seed position world.1, world.2⟩

namespace Shard

/-- The shards are those of two functions in all worlds of `inv`, and calls keep to such worlds. -/
structure Assigner.Behaves (a : Assigner σ) (inv : σ → Prop)
    (actual projected : Key → UInt32 → UInt32) : Prop where
  actual (key : Key) (numShards : UInt32) {world : σ} (h : inv world) :
    (a.actual key numShards world).1 = actual key numShards
  projected (key : Key) (numShards : UInt32) {world : σ} (h : inv world) :
    (a.projected key numShards world).1 = projected key numShards
  keeps_actual (key : Key) (numShards : UInt32) {world : σ} (h : inv world) :
    inv (a.actual key numShards world).2
  keeps_projected (key : Key) (numShards : UInt32) {world : σ} (h : inv world) :
    inv (a.projected key numShards world).2

theorem Assigner.behaves_ofFn (actual projected : Key → UInt32 → UInt32) :
    (Assigner.ofFn actual projected : Assigner σ).Behaves (fun _ => True) actual projected :=
  ⟨fun _ _ _ _ => rfl, fun _ _ _ _ => rfl, fun _ _ _ _ => trivial, fun _ _ _ _ => trivial⟩

theorem Assigner.Behaves.onSnd {τ : Type} {a : Assigner σ} {inv : σ → Prop}
    {actual projected : Key → UInt32 → UInt32} (h : a.Behaves inv actual projected)
    (rest : τ → Prop) :
    (a.onSnd : Assigner (τ × σ)).Behaves (fun world => rest world.1 ∧ inv world.2) actual
      projected where
  actual key numShards _ world := h.actual key numShards world.2
  projected key numShards _ world := h.projected key numShards world.2
  keeps_actual key numShards _ world := ⟨world.1, h.keeps_actual key numShards world.2⟩
  keeps_projected key numShards _ world := ⟨world.1, h.keeps_projected key numShards world.2⟩

/-- Whether a key lies in the wanted shard on every axis that the constraints bind. -/
def Constraints.admits (c : Constraints) (actual projected : Key → UInt32 → UInt32) (key : Key) :
    Bool :=
  c.actual.all (fun shard => actual key c.numShards == shard.val) &&
    c.projected.all (fun shard => projected key c.numShards == shard.val)

theorem axisHolds_eq {numShards : UInt32} (wanted : Option (ShardId numShards))
    {ask : σ → UInt32 × σ} {inv : σ → Prop} {shard : UInt32} {world : σ} (h : inv world)
    (answer : (ask world).1 = shard) (keeps : inv (ask world).2) :
    (axisHolds wanted ask world).1 = wanted.all (fun s => shard == s.val) ∧
      inv (axisHolds wanted ask world).2 := by
  cases wanted with
  | none => exact ⟨rfl, h⟩
  | some s => exact ⟨by simp [axisHolds, answer], keeps⟩

theorem Evaluator.satisfies_eq_admits {e : Evaluator σ} {inv : σ → Prop}
    {actual projected : Key → UInt32 → UInt32} (a : e.assigner.Behaves inv actual projected)
    (key : Key) {world : σ} (h : inv world) :
    (e.satisfies key world).1 = e.constraints.admits actual projected key ∧
      inv (e.satisfies key world).2 := by
  obtain ⟨first, kept⟩ := axisHolds_eq e.constraints.actual h
    (a.actual key e.constraints.numShards h) (a.keeps_actual key e.constraints.numShards h)
  obtain ⟨second, kept'⟩ := axisHolds_eq e.constraints.projected kept
    (a.projected key e.constraints.numShards kept)
    (a.keeps_projected key e.constraints.numShards kept)
  refine ⟨?_, kept'⟩
  rw [Constraints.admits, ← first, ← second]
  rfl

end Shard

namespace Search

/-! ### Oracles -/

/-- What a search for one seed can learn from services that keep nothing in mind. -/
structure Oracle where
  outcome : Position → Outcome
  wanted : Key → Bool

/-- The oracle of a key service and an assigner that answer by functions. -/
def Oracle.ofFunctions (derive : Seed → Position → Outcome)
    (actual projected : Key → UInt32 → UInt32) (constraints : Shard.Constraints) (seed : Seed) :
    Oracle :=
  ⟨derive seed, constraints.admits actual projected⟩

/-- The services of a job answer as the oracle does in all worlds of `inv`, and keep to those. -/
structure Job.Behaves (job : Job σ) (inv : σ → Prop) (o : Oracle) : Prop where
  outcome (position : Position) {world : σ} (h : inv world) :
    (job.deriver.derive job.seed position world).1.outcome = o.outcome position
  derive_keeps (position : Position) {world : σ} (h : inv world) :
    inv (job.deriver.derive job.seed position world).2
  wanted (key : Key) {world : σ} (h : inv world) :
    (job.evaluator.satisfies key world).1 = o.wanted key
  satisfies_keeps (key : Key) {world : σ} (h : inv world) :
    inv (job.evaluator.satisfies key world).2

theorem Job.behaves {job : Job σ} {inv : σ → Prop} {derive : Seed → Position → Outcome}
    {actual projected : Key → UInt32 → UInt32} (d : job.deriver.Behaves inv derive)
    (a : job.evaluator.assigner.Behaves inv actual projected) :
    job.Behaves inv
      (.ofFunctions derive actual projected job.evaluator.constraints job.seed) where
  outcome position _ h := d.outcome job.seed position h
  derive_keeps position _ h := d.keeps job.seed position h
  wanted key _ h := (Shard.Evaluator.satisfies_eq_admits a key h).1
  satisfies_keeps key _ h := (Shard.Evaluator.satisfies_eq_admits a key h).2

namespace Oracle

variable (o : Oracle) (accountOnly : Bool)

/-- The outcome for the candidate with a given index. -/
def outcomeAt (index : Nat) : Outcome := o.outcome (positionAt accountOnly (UInt64.ofNat index))

/-- Whether there is no key for the candidate. -/
def failsAt (index : Nat) : Bool :=
  match o.outcomeAt accountOnly index with
  | .ok _ => false
  | .error _ => true

/-- The key of a candidate, if there is one and it is wanted. -/
def hitAt (index : Nat) : Option Key :=
  match o.outcomeAt accountOnly index with
  | .ok key => if o.wanted key then some key else none
  | .error _ => none

/-- The wanted keys of `count` candidates from an index on, in the order of their indices. -/
def hits (start count : Nat) : List Key :=
  (List.range' start count).filterMap (o.hitAt accountOnly)

/-- Every key carries the position that was asked for. -/
def Stamps : Prop := ∀ position key, o.outcome position = .ok key → key.position = position

variable {o accountOnly}

theorem hits_zero (start : Nat) : o.hits accountOnly start 0 = [] := rfl

theorem hits_add (start count more : Nat) :
    o.hits accountOnly start (count + more) =
      o.hits accountOnly start count ++ o.hits accountOnly (start + count) more := by
  rw [hits, ← List.range'_append_1, List.filterMap_append]
  rfl

theorem length_hits_mono (start : Nat) {count more : Nat} (le : count ≤ more) :
    (o.hits accountOnly start count).length ≤ (o.hits accountOnly start more).length := by
  obtain ⟨rest, rfl⟩ := Nat.exists_eq_add_of_le le
  rw [hits_add, List.length_append]
  exact Nat.le_add_right _ _

theorem hits_succ (start count : Nat) :
    o.hits accountOnly start (count + 1) =
      o.hits accountOnly start count ++ (o.hitAt accountOnly (start + count)).toList := by
  rw [hits_add]
  cases h : o.hitAt accountOnly (start + count) <;> simp [hits, h]

theorem hitAt_eq_some_iff {index : Nat} {key : Key} :
    o.hitAt accountOnly index = some key ↔
      o.outcomeAt accountOnly index = .ok key ∧ o.wanted key = true := by
  unfold hitAt
  cases o.outcomeAt accountOnly index with
  | error e => simp
  | ok found =>
    by_cases wanted : o.wanted found
    · simp only [wanted, if_true, Option.some.injEq, Except.ok.injEq]
      exact ⟨fun h => ⟨h, h ▸ wanted⟩, And.left⟩
    · simp only [wanted, Except.ok.injEq]
      exact ⟨fun h => (by cases h), fun h => absurd (h.1 ▸ h.2) wanted⟩

theorem mem_hits {start count : Nat} {key : Key} :
    key ∈ o.hits accountOnly start count ↔
      ∃ index, start ≤ index ∧ index < start + count ∧
        o.outcomeAt accountOnly index = .ok key ∧ o.wanted key = true := by
  simp only [hits, List.mem_filterMap, List.mem_range'_1, hitAt_eq_some_iff, and_assoc]

theorem failsAt_eq_true_iff {index : Nat} :
    o.failsAt accountOnly index = true ↔ ∃ cause, o.outcomeAt accountOnly index = .error cause := by
  unfold failsAt
  cases o.outcomeAt accountOnly index <;> simp

theorem failsAt_eq_false_iff {index : Nat} :
    o.failsAt accountOnly index = false ↔ ∃ key, o.outcomeAt accountOnly index = .ok key := by
  unfold failsAt
  cases o.outcomeAt accountOnly index <;> simp

end Oracle

end Search

end KeySearch
