import KeySearch.Search.Token
import Mathlib.Data.List.Induction
import Mathlib.Data.List.Nodup
import Mathlib.Logic.Relation

/-! Cancellation tokens and their families. Which tokens belong together is read off the operations
alone: each token is named by the number of the operation that made it, and a family is what can be
reached by copying from one token that is no copy (`Shelf.Kin`). The registry keeps one flag for
each of these founders, in the order in which they came (`Shelf.Accounts`). So a token reads as
cancelled exactly if some token of its family has been cancelled, be that one still in hand or
not. -/

namespace KeySearch.Search

/-! ### Flags -/

namespace Registry

/-- The family of the token has a flag. -/
def Knows (r : Registry) (t : Token) : Prop := t.family < r.flags.length

variable {r : Registry} {t u : Token}

theorem length_cancel (r : Registry) (t : Token) : (r.cancel t).flags.length = r.flags.length :=
  List.length_set

theorem length_cancel_congr {r r' : Registry} (h : r'.flags.length = r.flags.length)
    (t t' : Token) : (r'.cancel t').flags.length = (r.cancel t).flags.length := by
  rw [length_cancel, length_cancel, h]

theorem knows_cancel : (r.cancel u).Knows t ↔ r.Knows t := by rw [Knows, Knows, length_cancel]

theorem Knows.fresh (h : r.Knows t) : r.fresh.2.Knows t := by
  rw [Knows, Registry.fresh, List.length_append]
  exact Nat.lt_add_right _ h

theorem knows_fresh (r : Registry) : r.fresh.2.Knows r.fresh.1 := by
  simp [Knows, fresh]

theorem isCancelled_cancel_iff (h : r.Knows u) :
    (r.cancel u).isCancelled t = true ↔ r.isCancelled t = true ∨ u = t := by
  rw [isCancelled_cancel r h, Bool.or_eq_true, beq_iff_eq, Token.mk.injEq]

/-- A new family changes no flag, nor does it raise one. -/
theorem isCancelled_fresh_snd (r : Registry) (t : Token) :
    r.fresh.2.isCancelled t = r.isCancelled t := by
  simp only [fresh, isCancelled, List.getD_eq_getElem?_getD]
  rcases Nat.lt_trichotomy t.family r.flags.length with lt | same | gt
  · rw [List.getElem?_append_left lt]
  · simp [same]
  · rw [List.getElem?_eq_none (by simp; omega), List.getElem?_eq_none (Nat.le_of_lt gt)]

end Registry

namespace Shelf

theorem apply_cancel_of_some {s : Shelf} {place : Nat} {token : Token}
    (found : s.tokens[place]? = some token) :
    s.apply (.cancel place) = ⟨s.registry.cancel token, s.tokens⟩ := by
  rw [apply, found]
  rfl

theorem apply_cancel_of_none {s : Shelf} {place : Nat} (found : s.tokens[place]? = none) :
    s.apply (.cancel place) = s := by
  rw [apply, found]
  rfl

/-! ### Names -/

/-- The names of the tokens in hand behind the operation with this number, which is the name of the
token that it makes. -/
def Op.renamed (number : Nat) (names : List Nat) : Op → List Nat
  | .fresh => names ++ [number]
  | .clone place => names ++ names[place]?.toList.map fun _ => number
  | .cancel _ => names
  | .drop place => names.eraseIdx place

/-- The tokens in hand behind some operations, by their names. -/
def held (ops : List Op) : List Nat :=
  ops.zipIdx.foldl (fun names (op, number) => op.renamed number names) []

/-- The second token was made as a copy of the first one. -/
def CopyOf (ops : List Op) (original copy : Nat) : Prop :=
  ∃ place, ops[copy]? = some (.clone place) ∧ (held (ops.take copy))[place]? = some original

/-- Copying leads from a token that is no copy to this one. -/
def Founds (ops : List Op) (founder name : Nat) : Prop :=
  ops[founder]? = some .fresh ∧ Relation.ReflTransGen (CopyOf ops) founder name

/-- The tokens go back to one founder. -/
def Kin (ops : List Op) (a b : Nat) : Prop := ∃ founder, Founds ops founder a ∧ Founds ops founder b

/-- One of the operations has cancelled the token. -/
def Cancelled (ops : List Op) (name : Nat) : Prop :=
  ∃ number place, ops[number]? = some (.cancel place) ∧
    (held (ops.take number))[place]? = some name

variable {ops : List Op} {op : Op} {name place : Nat}

theorem held_append_singleton (ops : List Op) (op : Op) :
    held (ops ++ [op]) = op.renamed ops.length (held ops) := by
  simp [held, List.zipIdx_append]

theorem mem_renamed {number : Nat} {names : List Nat} (mem : name ∈ op.renamed number names) :
    name ∈ names ∨ name = number := by
  cases op with
  | fresh => simpa [Op.renamed] using mem
  | clone place =>
    rcases List.mem_append.1 mem with old | new
    · exact .inl old
    · obtain ⟨_, -, rfl⟩ := List.mem_map.1 new
      exact .inr rfl
  | cancel => exact .inl mem
  | drop => exact .inl (List.mem_of_mem_eraseIdx mem)

theorem lt_length_of_mem_held (mem : name ∈ held ops) : name < ops.length := by
  induction ops using List.reverseRecOn with
  | nil => cases mem
  | append_singleton ops op ih =>
    rw [held_append_singleton] at mem
    rw [List.length_append, List.length_singleton]
    rcases mem_renamed mem with old | rfl
    · exact Nat.lt_succ_of_lt (ih old)
    · exact Nat.lt_succ_self _

theorem nodup_renamed {number : Nat} {names : List Nat} (nodup : names.Nodup)
    (new : number ∉ names) : (op.renamed number names).Nodup := by
  have added : (names ++ [number]).Nodup := List.concat_eq_append ▸ nodup.concat new
  cases op with
  | fresh => exact added
  | clone place =>
    rw [Op.renamed]
    cases names[place]? with
    | none => simpa using nodup
    | some => exact added
  | cancel => exact nodup
  | drop => exact nodup.eraseIdx _

/-- No two tokens in hand have one name. -/
theorem nodup_held (ops : List Op) : (held ops).Nodup := by
  induction ops using List.reverseRecOn with
  | nil => exact List.nodup_nil
  | append_singleton ops op ih =>
    rw [held_append_singleton]
    exact nodup_renamed ih fun mem => Nat.lt_irrefl _ (lt_length_of_mem_held mem)

/-! ### Descent -/

theorem CopyOf.lt {a b : Nat} (h : CopyOf ops a b) : a < b ∧ b < ops.length := by
  obtain ⟨place, made, found⟩ := h
  have bound := (List.getElem?_eq_some_iff.1 made).1
  have older := lt_length_of_mem_held (List.mem_of_getElem? found)
  rw [List.length_take] at older
  exact ⟨by omega, bound⟩

/-- A token is a copy of one token at most. -/
theorem CopyOf.left_unique {a a' b : Nat} (h : CopyOf ops a b) (h' : CopyOf ops a' b) : a = a' := by
  obtain ⟨place, made, found⟩ := h
  obtain ⟨place', made', found'⟩ := h'
  cases made.symm.trans made'
  exact Option.some.inj (found.symm.trans found')

theorem not_copyOf_of_fresh {a b : Nat} (fresh : ops[b]? = some .fresh) : ¬ CopyOf ops a b := by
  rintro ⟨place, made, -⟩
  cases fresh.symm.trans made

/-- Later operations make no copies among earlier tokens. -/
theorem copyOf_append_iff {more : List Op} {a b : Nat} (lt : b < ops.length) :
    CopyOf (ops ++ more) a b ↔ CopyOf ops a b := by
  rw [CopyOf, CopyOf, List.getElem?_append_left lt, List.take_append_of_le_length (Nat.le_of_lt lt)]

theorem founds_append_iff {more : List Op} {founder : Nat} (lt : name < ops.length) :
    Founds (ops ++ more) founder name ↔ Founds ops founder name := by
  constructor
  · rintro ⟨fresh, descent⟩
    induction descent with
    | refl => exact ⟨List.getElem?_append_left lt ▸ fresh, .refl⟩
    | @tail middle copy _ step ih =>
      have step := (copyOf_append_iff lt).1 step
      obtain ⟨fresh, descent⟩ := ih (Nat.lt_trans step.lt.1 lt)
      exact ⟨fresh, descent.tail step⟩
  · rintro ⟨fresh, descent⟩
    have later : CopyOf ops ≤ CopyOf (ops ++ more) :=
      fun _ _ step => (copyOf_append_iff step.lt.2).2 step
    refine ⟨?_, Relation.ReflTransGen.mono later _ _ descent⟩
    rw [List.getElem?_append_left (List.getElem?_eq_some_iff.1 fresh).1]
    exact fresh

/-- A token goes back to one founder only. -/
theorem Founds.left_unique {founder founder' : Nat} (h : Founds ops founder name)
    (h' : Founds ops founder' name) : founder = founder' := by
  obtain ⟨fresh, descent⟩ := h
  obtain ⟨fresh', descent'⟩ := h'
  induction descent with
  | refl =>
    rcases descent'.cases_tail with same | ⟨_, -, step⟩
    · exact same
    · exact absurd step (not_copyOf_of_fresh fresh)
  | tail _ step ih =>
    rcases descent'.cases_tail with rfl | ⟨_, earlier, step'⟩
    · exact absurd step (not_copyOf_of_fresh fresh')
    · exact ih (step.left_unique step' ▸ earlier)

theorem Founds.lt {founder : Nat} (h : Founds ops founder name) : name < ops.length := by
  rcases h.2.cases_tail with rfl | ⟨_, -, step⟩
  · exact (List.getElem?_eq_some_iff.1 h.1).1
  · exact step.lt.2

theorem Founds.le {founder : Nat} (h : Founds ops founder name) : founder ≤ name := by
  obtain ⟨-, descent⟩ := h
  induction descent with
  | refl => exact Nat.le_refl _
  | tail _ step ih => exact Nat.le_trans ih (Nat.le_of_lt step.lt.1)

/-! ### Founders -/

/-- The tokens that are no copies, in the order in which they came. -/
def founders (ops : List Op) : List Nat :=
  (List.range ops.length).filter fun number => ops[number]? = some .fresh

/-- The family of the token has this number. -/
def Belongs (ops : List Op) (name family : Nat) : Prop :=
  ∃ founder, (founders ops)[family]? = some founder ∧ Founds ops founder name

theorem founders_append_singleton (ops : List Op) (op : Op) :
    founders (ops ++ [op]) = founders ops ++ if op = .fresh then [ops.length] else [] := by
  have old : (List.range ops.length).filter (fun number => (ops ++ [op])[number]? = some .fresh) =
      founders ops := by
    refine List.filter_congr fun number mem => ?_
    rw [List.getElem?_append_left (List.mem_range.1 mem)]
  rw [founders, List.length_append, List.length_singleton, List.range_succ, List.filter_append, old]
  congr 1
  simp [List.filter_singleton]

theorem belongs_append_iff {family : Nat} (lt : name < ops.length) :
    Belongs (ops ++ [op]) name family ↔ Belongs ops name family := by
  constructor
  · rintro ⟨founder, number, founds⟩
    have le := founds.le
    rw [founders_append_singleton] at number
    refine ⟨founder, ?_, (founds_append_iff lt).1 founds⟩
    rcases Nat.lt_or_ge family (founders ops).length with old | new
    · rwa [List.getElem?_append_left old] at number
    · rw [List.getElem?_append_right new] at number
      have mem := List.mem_of_getElem? number
      split at mem
      · have := List.mem_singleton.1 mem
        omega
      · cases mem
  · rintro ⟨founder, number, founds⟩
    refine ⟨founder, ?_, (founds_append_iff lt).2 founds⟩
    rw [founders_append_singleton]
    rw [List.getElem?_append_left (List.getElem?_eq_some_iff.1 number).1]
    exact number

theorem Belongs.right_unique {family family' : Nat} (h : Belongs ops name family)
    (h' : Belongs ops name family') : family = family' := by
  obtain ⟨founder, number, founds⟩ := h
  obtain ⟨founder', number', founds'⟩ := h'
  cases founds.left_unique founds'
  have nodup : (founders ops).Nodup := List.nodup_range.filter _
  have bound := (List.getElem?_eq_some_iff.1 number).1
  exact (List.getElem?_inj bound nodup).1 (number.trans number'.symm)

/-- Tokens are kin exactly if the number of their family is the same. -/
theorem Belongs.kin_iff {other family : Nat} (h : Belongs ops name family) :
    Kin ops other name ↔ Belongs ops other family := by
  obtain ⟨founder, number, founds⟩ := h
  constructor
  · rintro ⟨founder', founds', founds''⟩
    cases founds.left_unique founds''
    exact ⟨founder, number, founds'⟩
  · rintro ⟨founder', number', founds'⟩
    cases number.symm.trans number'
    exact ⟨founder, founds', founds⟩

/-! ### Accounts -/

/-- A token has been cancelled and its family has this number. -/
def Raised (ops : List Op) (family : Nat) : Prop :=
  ∃ name, Cancelled ops name ∧ Belongs ops name family

theorem Cancelled.lt (h : Cancelled ops name) : name < ops.length := by
  obtain ⟨number, place, -, found⟩ := h
  have older := lt_length_of_mem_held (List.mem_of_getElem? found)
  rw [List.length_take] at older
  omega

theorem cancelled_append_iff :
    Cancelled (ops ++ [op]) name ↔
      Cancelled ops name ∨ ∃ place, op = .cancel place ∧ (held ops)[place]? = some name := by
  constructor
  · rintro ⟨number, place, made, found⟩
    rcases Nat.lt_or_ge number ops.length with old | new
    · rw [List.getElem?_append_left old] at made
      rw [List.take_append_of_le_length (Nat.le_of_lt old)] at found
      exact .inl ⟨number, place, made, found⟩
    · have bound := (List.getElem?_eq_some_iff.1 made).1
      rw [List.length_append, List.length_singleton] at bound
      obtain rfl : number = ops.length := by omega
      rw [List.getElem?_concat_length] at made
      rw [List.take_left' rfl] at found
      exact .inr ⟨place, Option.some.inj made, found⟩
  · rintro (⟨number, place, made, found⟩ | ⟨place, rfl, found⟩)
    · have old := (List.getElem?_eq_some_iff.1 made).1
      refine ⟨number, place, ?_, ?_⟩
      · rwa [List.getElem?_append_left old]
      · rwa [List.take_append_of_le_length (Nat.le_of_lt old)]
    · refine ⟨ops.length, place, List.getElem?_concat_length, ?_⟩
      rwa [List.take_left' rfl]

theorem raised_append_iff {family : Nat} :
    Raised (ops ++ [op]) family ↔
      Raised ops family ∨ ∃ place name, op = .cancel place ∧ (held ops)[place]? = some name ∧
        Belongs ops name family := by
  constructor
  · rintro ⟨name, cancelled, belongs⟩
    rcases cancelled_append_iff.1 cancelled with old | ⟨place, same, found⟩
    · exact .inl ⟨name, old, (belongs_append_iff old.lt).1 belongs⟩
    · have lt := lt_length_of_mem_held (List.mem_of_getElem? found)
      exact .inr ⟨place, name, same, found, (belongs_append_iff lt).1 belongs⟩
  · rintro (⟨name, old, belongs⟩ | ⟨place, name, same, found, belongs⟩)
    · exact ⟨name, cancelled_append_iff.2 (.inl old), (belongs_append_iff old.lt).2 belongs⟩
    · have lt := lt_length_of_mem_held (List.mem_of_getElem? found)
      exact ⟨name, cancelled_append_iff.2 (.inr ⟨place, same, found⟩),
        (belongs_append_iff lt).2 belongs⟩

/-- The shelf behind some operations: one flag for each founder, one token for each name, of the
family of that name, and those flags are up whose family has had a token cancelled. -/
structure Accounts (ops : List Op) (s : Shelf) : Prop where
  families : s.registry.flags.length = (founders ops).length
  length : s.tokens.length = (held ops).length
  belongs : ∀ (place name : Nat) (token : Token), (held ops)[place]? = some name →
    s.tokens[place]? = some token → Belongs ops name token.family
  flags : ∀ token : Token, s.registry.isCancelled token = true ↔ Raised ops token.family

namespace Accounts

variable {s : Shelf} {place : Nat} {token : Token}

theorem exists_token (h : Accounts ops s) (found : (held ops)[place]? = some name) :
    ∃ token, s.tokens[place]? = some token ∧ Belongs ops name token.family := by
  have bound := (List.getElem?_eq_some_iff.1 found).1
  rw [← h.length] at bound
  have there := List.getElem?_eq_getElem bound
  exact ⟨_, there, h.belongs place name _ found there⟩

theorem tokens_eq_none (h : Accounts ops s) (gap : (held ops)[place]? = none) :
    s.tokens[place]? = none := by
  rw [List.getElem?_eq_none_iff, h.length]
  exact List.getElem?_eq_none_iff.1 gap

theorem knows (h : Accounts ops s) (belongs : Belongs ops name token.family) :
    s.registry.Knows token := by
  obtain ⟨founder, number, -⟩ := belongs
  rw [Registry.Knows, h.families]
  exact (List.getElem?_eq_some_iff.1 number).1

theorem belongs_append (h : Accounts ops s) (found : (held ops)[place]? = some name)
    (there : s.tokens[place]? = some token) : Belongs (ops ++ [op]) name token.family :=
  (belongs_append_iff (lt_length_of_mem_held (List.mem_of_getElem? found))).2
    (h.belongs place name token found there)

theorem length_renamed (h : Accounts ops s) :
    (s.apply op).tokens.length = (held (ops ++ [op])).length := by
  have length := h.length
  rw [held_append_singleton]
  cases op with
  | fresh => simp [apply, Op.renamed, length]
  | clone place =>
    rw [apply, Op.renamed, List.length_append, List.length_append, length]
    by_cases bound : place < (held ops).length
    · simp [bound, length]
    · simp [bound, length]
  | cancel => exact length
  | drop place => simp [apply, Op.renamed, List.length_eraseIdx, length]

/-- One more token on the row, which has the name of the operation. -/
theorem belongs_concat (h : Accounts ops s)
    (new : Belongs (ops ++ [op]) ops.length token.family) {place name : Nat} {other : Token}
    (found : (held ops ++ [ops.length])[place]? = some name)
    (there : (s.tokens ++ [token])[place]? = some other) :
    Belongs (ops ++ [op]) name other.family := by
  rcases Nat.lt_trichotomy place (held ops).length with old | rfl | beyond
  · rw [List.getElem?_append_left old] at found
    rw [List.getElem?_append_left (h.length ▸ old)] at there
    exact h.belongs_append found there
  · rw [List.getElem?_concat_length] at found
    rw [← h.length, List.getElem?_concat_length] at there
    cases found
    cases there
    exact new
  · rw [List.getElem?_eq_none (by simp; omega)] at found
    cases found

theorem fresh (h : Accounts ops s) : Accounts (ops ++ [.fresh]) (s.apply .fresh) where
  length := h.length_renamed
  families := by
    rw [founders_append_singleton, if_pos rfl, List.length_append, ← h.families]
    exact List.length_append
  belongs place name token found there := by
    rw [held_append_singleton] at found
    refine h.belongs_concat ⟨ops.length, ?_, List.getElem?_concat_length, .refl⟩ found there
    rw [founders_append_singleton, if_pos rfl]
    change (founders ops ++ [ops.length])[s.registry.flags.length]? = _
    rw [h.families, List.getElem?_concat_length]
  flags token := by
    rw [raised_append_iff, ← h.flags]
    simp [apply, Registry.isCancelled_fresh_snd]

theorem clone (h : Accounts ops s) (place : Nat) :
    Accounts (ops ++ [.clone place]) (s.apply (.clone place)) where
  length := h.length_renamed
  families := by
    rw [founders_append_singleton, if_neg (by simp), List.append_nil]
    exact h.families
  belongs place' name token found there := by
    rw [held_append_singleton, Op.renamed] at found
    rw [apply] at there
    cases original : (held ops)[place]? with
    | none =>
      simp only [original, Option.toList_none, List.map_nil, List.append_nil] at found
      simp only [h.tokens_eq_none original, Option.toList_none, List.append_nil] at there
      exact h.belongs_append found there
    | some parent =>
      obtain ⟨source, kept, -⟩ := h.exists_token original
      obtain ⟨founder, number, fresh, descent⟩ := h.belongs_append original kept
      have copied : CopyOf (ops ++ [.clone place]) parent ops.length :=
        ⟨place, List.getElem?_concat_length, by rwa [List.take_left' rfl]⟩
      simp only [original, Option.toList_some, List.map_cons, List.map_nil] at found
      simp only [kept, Option.toList_some] at there
      exact h.belongs_concat ⟨founder, number, fresh, descent.tail copied⟩ found there
  flags token := by
    rw [raised_append_iff, ← h.flags]
    simp [apply]

theorem cancel (h : Accounts ops s) (place : Nat) :
    Accounts (ops ++ [.cancel place]) (s.apply (.cancel place)) where
  length := h.length_renamed
  families := by
    rw [founders_append_singleton, if_neg (by simp), List.append_nil, ← h.families]
    cases found : s.tokens[place]? with
    | none => rw [apply_cancel_of_none found]
    | some token =>
      rw [apply_cancel_of_some found]
      exact Registry.length_cancel _ _
  belongs place' name token found there := by
    rw [held_append_singleton] at found
    exact h.belongs_append found there
  flags token := by
    rw [raised_append_iff, ← h.flags]
    cases original : (held ops)[place]? with
    | none =>
      rw [apply_cancel_of_none (h.tokens_eq_none original)]
      simp [original]
    | some name =>
      obtain ⟨target, there, belongs⟩ := h.exists_token original
      rw [apply_cancel_of_some there]
      refine (Registry.isCancelled_cancel_iff (h.knows belongs)).trans (or_congr_right ?_)
      constructor
      · rintro rfl
        exact ⟨place, name, rfl, original, belongs⟩
      · rintro ⟨_, name', same, original', belongs'⟩
        cases same
        cases original.symm.trans original'
        rw [Token.mk.injEq]
        exact belongs.right_unique belongs'

theorem drop (h : Accounts ops s) (place : Nat) :
    Accounts (ops ++ [.drop place]) (s.apply (.drop place)) where
  length := h.length_renamed
  families := by
    rw [founders_append_singleton, if_neg (by simp), List.append_nil]
    exact h.families
  belongs place' name token found there := by
    rw [held_append_singleton, Op.renamed, List.getElem?_eraseIdx] at found
    rw [apply, List.getElem?_eraseIdx] at there
    split at found
    · rename_i before
      rw [if_pos before] at there
      exact h.belongs_append found there
    · rename_i behind
      rw [if_neg behind] at there
      exact h.belongs_append found there
  flags token := by
    rw [raised_append_iff, ← h.flags]
    simp [apply]

end Accounts

theorem accounts_empty : Accounts [] empty where
  families := rfl
  length := rfl
  belongs _ _ _ found _ := by cases found
  flags token := by
    refine iff_of_false Bool.false_ne_true ?_
    rintro ⟨name, cancelled, -⟩
    exact absurd cancelled.lt (Nat.not_lt_zero name)

theorem accounts_run (ops : List Op) : Accounts ops (run ops empty) := by
  induction ops using List.reverseRecOn with
  | nil => exact accounts_empty
  | append_singleton ops op ih =>
    rw [run_append, run_cons, run_nil]
    cases op with
    | fresh => exact ih.fresh
    | clone place => exact ih.clone place
    | cancel place => exact ih.cancel place
    | drop place => exact ih.drop place

/-! ### States -/

/-- A token in hand is cancelled exactly if some token of its family has been cancelled. -/
theorem exists_state (found : (held ops)[place]? = some name) :
    ∃ up, (run ops empty).states[place]? = some up ∧
      (up = true ↔ ∃ other, Cancelled ops other ∧ Kin ops other name) := by
  obtain ⟨token, there, belongs⟩ := (accounts_run ops).exists_token found
  refine ⟨(run ops empty).registry.isCancelled token, ?_, ?_⟩
  · rw [states, List.getElem?_map, there, Option.map_some]
  · rw [(accounts_run ops).flags, Raised]
    simp only [belongs.kin_iff]

theorem states_eq_of_kin {place' name' : Nat} (found : (held ops)[place]? = some name)
    (found' : (held ops)[place']? = some name') (kin : Kin ops name name') :
    (run ops empty).states[place']? = (run ops empty).states[place]? := by
  obtain ⟨token, there, belongs⟩ := (accounts_run ops).exists_token found
  obtain ⟨token', there', belongs'⟩ := (accounts_run ops).exists_token found'
  have same : token' = token := by
    rw [Token.mk.injEq]
    exact (belongs'.kin_iff.1 kin).right_unique belongs
  rw [states, List.getElem?_map, List.getElem?_map, there, there', same]

theorem states_cancel_of_not_kin {place' name' : Nat} (found : (held ops)[place]? = some name)
    (found' : (held ops)[place']? = some name') (apart : ¬ Kin ops name' name) :
    (run (ops ++ [.cancel place']) empty).states[place]? = (run ops empty).states[place]? := by
  obtain ⟨token, there, belongs⟩ := (accounts_run ops).exists_token found
  obtain ⟨target, kept, -⟩ := (accounts_run ops).exists_token found'
  have flag : ((run ops empty).apply (.cancel place')).registry.isCancelled token =
      (run ops empty).registry.isCancelled token := by
    rw [Bool.eq_iff_iff, ((accounts_run ops).cancel place').flags, raised_append_iff,
      (accounts_run ops).flags]
    refine or_iff_left ?_
    rintro ⟨_, other, same, found'', belongs'⟩
    cases same
    cases found'.symm.trans found''
    exact apart (belongs.kin_iff.2 belongs')
  have tokens : ((run ops empty).apply (.cancel place')).tokens = (run ops empty).tokens := rfl
  rw [run_append, run_cons, run_nil, states, states, List.getElem?_map, List.getElem?_map, tokens,
    there, Option.map_some, Option.map_some, flag]

theorem states_clone {up : Bool} (state : (run ops empty).states[place]? = some up) :
    (run (ops ++ [.clone place]) empty).states = (run ops empty).states ++ [up] := by
  rw [states, List.getElem?_map] at state
  obtain ⟨token, there, rfl⟩ := Option.map_eq_some_iff.1 state
  rw [run_append, run_cons, run_nil, states, apply, there, Option.toList_some, List.map_append]
  rfl

theorem Kin.append {a b : Nat} (h : Kin ops a b) (more : List Op) : Kin (ops ++ more) a b := by
  obtain ⟨founder, founds, founds'⟩ := h
  exact ⟨founder, (founds_append_iff founds.lt).2 founds, (founds_append_iff founds'.lt).2 founds'⟩

theorem Cancelled.append (h : Cancelled ops name) (more : List Op) :
    Cancelled (ops ++ more) name := by
  induction more using List.reverseRecOn with
  | nil => rwa [List.append_nil]
  | append_singleton more op ih =>
    rw [← List.append_assoc]
    exact cancelled_append_iff.2 (.inl ih)

/-- Of the tokens in hand, each has a name of its own, and it is cancelled exactly if some token of
its family has been cancelled before, be that one still in hand or not. So all tokens of a family
agree, no cancellation reaches another family, a copy reads like its original, and no token that is
cancelled is ever anything else. -/
theorem tokens_of_a_family_share_one_flag {ops : List Op} {place name : Nat}
    (found : (held ops)[place]? = some name) :
    (held ops).Nodup ∧ (run ops empty).states.length = (held ops).length ∧
    ∃ up, (run ops empty).states[place]? = some up ∧
      (up = true ↔ ∃ other, Cancelled ops other ∧ Kin ops other name) ∧
      (∀ place' name' : Nat, (held ops)[place']? = some name' → Kin ops name name' →
        (run ops empty).states[place']? = some up) ∧
      (∀ place' name' : Nat, (held ops)[place']? = some name' → ¬ Kin ops name' name →
        (run (ops ++ [.cancel place']) empty).states[place]? = some up) ∧
      (run (ops ++ [.clone place]) empty).states = (run ops empty).states ++ [up] ∧
      (up = true → ∀ (more : List Op) (place' : Nat), (held (ops ++ more))[place']? = some name →
        (run (ops ++ more) empty).states[place']? = some true) := by
  obtain ⟨up, state, iff⟩ := exists_state found
  refine ⟨nodup_held ops, ?_, up, state, iff, fun place' name' found' kin => ?_,
    fun place' name' found' apart => ?_, states_clone state, fun raised more place' later => ?_⟩
  · rw [states, List.length_map, (accounts_run ops).length]
  · rw [states_eq_of_kin found found' kin, state]
  · rw [states_cancel_of_not_kin found found' apart, state]
  · obtain ⟨other, cancelled, kin⟩ := iff.1 raised
    obtain ⟨up', state', iff'⟩ := exists_state later
    rw [state', iff'.2 ⟨other, cancelled.append more, kin.append more⟩]

/-- The second of two tokens in hand is a copy of a copy. The token first made and the copy between
them are gone, and it was the latter that was cancelled. -/
theorem tokens_of_a_family_share_one_flag_secondCopy :
    ∃ ops : List Op,
      ops = [.fresh, .clone 0, .fresh, .drop 0, .clone 0, .cancel 0, .drop 0] ∧
      (held ops)[1]? = some 4 ∧ (run ops empty).states = [false, true] ∧
      (∃ other, Cancelled ops other ∧ Kin ops other 4) ∧
      (run (ops ++ [.clone 1]) empty).states = [false, true, true] := by
  have found : (held [.fresh, .clone 0, .fresh, .drop 0, .clone 0, .cancel 0, .drop 0])[1]? =
    some 4 := by decide
  obtain ⟨-, -, up, state, iff, -, -, copied, -⟩ := tokens_of_a_family_share_one_flag found
  have states : (run [.fresh, .clone 0, .fresh, .drop 0, .clone 0, .cancel 0, .drop 0]
    empty).states = [false, true] := by decide
  rw [states] at state copied
  cases state
  exact ⟨_, rfl, found, states, iff.1 rfl, copied⟩

end Shelf

end KeySearch.Search
