import KeySearch.Derivation.Wallet

/-! The memory of a wallet cannot be noticed. It is empty or holds the node of some account in the
tree of some seed, reached by this wallet's own numbers (`Memory.BelongsTo`), and every touch keeps
it so. Whatever the calls that share the memory, and however their touches follow one another, each
is answered as if the whole way from the root had been taken for it alone. -/

namespace KeySearch.Derivation

/-! ### Paths -/

theorem pathNumber_eq_ok_iff {level : Level} {index : UInt64} {number : UInt32} :
    pathNumber level index = .ok number ↔
      index.toNat < indexBound ∧ index.toUInt32 = number := by
  unfold pathNumber
  by_cases h : index.toNat < indexBound
  · rw [if_pos h, Except.ok.injEq, and_iff_right h]
  · rw [if_neg h]
    exact ⟨nofun, fun found => absurd found.1 h⟩

theorem exists_of_bind_eq_ok {α β : Type} {x : Except Error α} {f : α → Except Error β} {b : β}
    (h : (x >>= f) = .ok b) : ∃ a, x = .ok a ∧ f a = .ok b := by
  cases x with
  | error e => cases h
  | ok a => exact ⟨a, rfl, h⟩

/-- Used in place of `rfl`, by which the kernel would run the digests. -/
theorem ok_bind {α β : Type} (a : α) (f : α → Except Error β) : (Except.ok a >>= f) = f a :=
  pure_bind a f

theorem Node.ofSeed_append (seed : Seed) (p q : List UInt32) :
    Node.ofSeed seed (p ++ q) = Node.ofSeed seed p >>= fun middle => middle.descend q := by
  unfold Node.ofSeed
  cases Node.root seed.bytes with
  | error e => rfl
  | ok root => exact root.descend_append p q

namespace Wallet

/-- The numbers from the root to an account of the wallet. -/
def accountPath (w : Wallet) (account : UInt64) : List UInt32 :=
  [w.purpose ||| hardened, w.coinType ||| hardened, account.toUInt32 ||| hardened]

variable {w : Wallet} {memory : Memory} {seed : Seed} {position : Position} {path : Path}

theorem toAccount_of_path (h : w.path position = .ok path) :
    position.account.toNat < indexBound ∧ path.toAccount = w.accountPath position.account := by
  unfold Wallet.path Path.ofPosition at h
  obtain ⟨purpose, first, h⟩ := exists_of_bind_eq_ok h
  obtain ⟨coinType, second, h⟩ := exists_of_bind_eq_ok h
  obtain ⟨account, third, h⟩ := exists_of_bind_eq_ok h
  obtain ⟨address, -, h⟩ := exists_of_bind_eq_ok h
  cases h
  obtain ⟨-, rfl⟩ := pathNumber_eq_ok_iff.1 first
  obtain ⟨-, rfl⟩ := pathNumber_eq_ok_iff.1 second
  obtain ⟨inRange, rfl⟩ := pathNumber_eq_ok_iff.1 third
  refine ⟨inRange, ?_⟩
  simp [Path.toAccount, accountPath]

/-- The way from the root goes through the account. -/
theorem deriveAfresh_of_path (h : w.path position = .ok path) (seed : Seed) :
    w.deriveAfresh seed position =
      Node.ofSeed seed path.toAccount >>= fun node => w.keyBelow node path position := by
  simp only [deriveAfresh, keyBelow, h, ok_bind, Path.toList, Node.ofSeed_append, bind_assoc]

theorem deriveAfresh_of_path_error {e : Error} (h : w.path position = .error e) (seed : Seed) :
    w.deriveAfresh seed position = .error e := by
  rw [deriveAfresh, h]
  rfl

end Wallet

/-! ### Memories -/

/-- The node is that of the account in the tree of the seed, as this wallet reaches it. -/
structure AccountNode.BelongsTo (w : Wallet) (entry : AccountNode) : Prop where
  account : entry.account.toNat < indexBound
  node : Node.ofSeed entry.seed (w.accountPath entry.account) = .ok entry.node

/-- Nothing is remembered but a node that belongs to the wallet. -/
def Memory.BelongsTo (w : Wallet) (memory : Memory) : Prop :=
  ∀ entry, memory = some entry → entry.BelongsTo w

theorem Memory.belongsTo_none (w : Wallet) : BelongsTo w none := nofun

/-- What is found is the node for the seed and the account that were looked for. -/
theorem Memory.BelongsTo.ofSeed_of_find? {w : Wallet} {memory : Memory} (h : memory.BelongsTo w)
    {seed : Seed} {account : UInt64} {node : Node} (found : memory.find? seed account = some node) :
    Node.ofSeed seed (w.accountPath account) = .ok node := by
  cases memory with
  | none => cases found
  | some entry =>
    rw [Memory.find?, Option.ite_none_right_eq_some] at found
    obtain ⟨⟨rfl, rfl⟩, same⟩ := found
    cases same
    exact (h entry rfl).node

namespace Wallet

variable {w : Wallet} {memory : Memory} {seed : Seed} {position : Position} {path : Path}

/-! ### The touches of one call -/

theorem path_of_look (h : w.look seed position memory = .missed path) :
    w.path position = .ok path := by
  unfold look at h
  split at h
  · cases h
  · rename_i way reached
    split at h
    · cases h
    · cases h
      exact reached

theorem outcome_of_look (belongs : memory.BelongsTo w) {outcome : Outcome}
    (h : w.look seed position memory = .answered outcome) :
    outcome = w.deriveAfresh seed position := by
  unfold look at h
  split at h
  · rename_i e refused
    cases h
    exact (deriveAfresh_of_path_error refused seed).symm
  · rename_i way reached
    split at h
    · rename_i node found
      cases h
      rw [deriveAfresh_of_path reached, (toAccount_of_path reached).2,
        belongs.ofSeed_of_find? found, ok_bind]
    · cases h

/-- What a call hands back: the answer from the root, and a memory that belongs to the wallet. -/
structure Answers (w : Wallet) (seed : Seed) (position : Position) (answer : Outcome × Memory) :
    Prop where
  outcome : answer.1 = w.deriveAfresh seed position
  memory : answer.2.BelongsTo w

/-- The function as a whole, because unfolding it at its arguments runs the digests. -/
theorem remember_eq : @remember = fun w seed position path memory =>
    match Node.ofSeed seed path.toAccount with
    | .error e => (.error e, memory)
    | .ok node => (w.keyBelow node path position, some ⟨seed, position.account, node⟩) := rfl

theorem remember_of_path (belongs : memory.BelongsTo w) (reached : w.path position = .ok path)
    (seed : Seed) : w.Answers seed position (w.remember seed position path memory) := by
  obtain ⟨inRange, toAccount⟩ := toAccount_of_path reached
  have afresh := deriveAfresh_of_path reached seed
  rw [remember_eq]
  cases account : Node.ofSeed seed path.toAccount with
  | error e =>
    rw [account] at afresh
    simp only [account]
    exact ⟨afresh.symm, belongs⟩
  | ok node =>
    rw [account, ok_bind] at afresh
    simp only [account]
    refine ⟨afresh.symm, ?_⟩
    rintro entry same
    cases same
    exact ⟨inRange, toAccount ▸ account⟩

/-- A call from start to end. -/
theorem derive_eq_deriveAfresh (belongs : memory.BelongsTo w) (seed : Seed)
    (position : Position) : w.Answers seed position (w.derive seed position memory) := by
  unfold derive
  cases looked : w.look seed position memory with
  | answered outcome => exact ⟨outcome_of_look belongs looked, belongs⟩
  | missed path => exact remember_of_path belongs (path_of_look looked) seed

/-! ### Calls on their way -/

namespace Call

/-- What the caller asked for. -/
def request : Call → Seed × Position
  | .started seed position | .missed seed position _ | .answered seed position _ =>
    (seed, position)

/-- The touches behind the call, where an answer counts as two. -/
def touched : Call → Nat
  | .started .. => 0
  | .missed .. => 1
  | .answered .. => 2

/-- The call holds the path it was cut short on, or the answer from the root. -/
def Fits (w : Wallet) : Call → Prop
  | .started _ _ => True
  | .missed _ position path => w.path position = .ok path
  | .answered seed position outcome => outcome = w.deriveAfresh seed position

theorem step_of_answered {outcome : Outcome}
    (looked : w.look seed position memory = .answered outcome) :
    (started seed position).step w memory = (.answered seed position outcome, memory) := by
  simp only [step, looked]

theorem step_of_missed (looked : w.look seed position memory = .missed path) :
    (started seed position).step w memory = (.missed seed position path, memory) := by
  simp only [step, looked]

theorem step_missed (memory : Memory) (seed : Seed) (position : Position) (path : Path) :
    (missed seed position path).step w memory =
      (.answered seed position (w.remember seed position path memory).1,
        (w.remember seed position path memory).2) := by
  rw [step]

theorem step_answered (memory : Memory) (seed : Seed) (position : Position) (outcome : Outcome) :
    (answered seed position outcome).step w memory =
      (.answered seed position outcome, memory) := by
  rw [step]

theorem fits_of_answers {answer : Outcome × Memory} (h : w.Answers seed position answer) :
    (answered seed position answer.1, answer.2).1.Fits w ∧
      (answered seed position answer.1, answer.2).2.BelongsTo w :=
  ⟨h.outcome, h.memory⟩

/-- One touch leaves a fitting call and a memory of the wallet. -/
theorem fits_step (belongs : memory.BelongsTo w) {call : Call} (fits : call.Fits w) :
    (call.step w memory).1.Fits w ∧ (call.step w memory).2.BelongsTo w := by
  cases call with
  | started seed position =>
    cases looked : w.look seed position memory with
    | answered outcome =>
      rw [step_of_answered looked]
      exact ⟨outcome_of_look belongs looked, belongs⟩
    | missed path =>
      rw [step_of_missed looked]
      exact ⟨path_of_look looked, belongs⟩
  | missed seed position path =>
    rw [step_missed]
    exact fits_of_answers (remember_of_path belongs fits seed)
  | answered seed position outcome =>
    rw [step_answered]
    exact ⟨fits, belongs⟩

/-- A touch changes nothing about the request, and brings the call on to its answer. -/
theorem request_touched_step (memory : Memory) (call : Call) :
    (call.step w memory).1.request = call.request ∧
      min 2 (call.touched + 1) ≤ (call.step w memory).1.touched := by
  cases call with
  | started seed position =>
    cases looked : w.look seed position memory with
    | answered outcome =>
      rw [step_of_answered looked]
      exact ⟨rfl, Nat.min_le_left 2 _⟩
    | missed path =>
      rw [step_of_missed looked]
      exact ⟨rfl, Nat.min_le_right 2 _⟩
  | missed seed position path =>
    rw [step_missed]
    exact ⟨rfl, Nat.min_le_left 2 _⟩
  | answered seed position outcome =>
    rw [step_answered]
    exact ⟨rfl, Nat.min_le_left 2 _⟩

/-- A fitting call with both touches behind it has the answer from the root. -/
theorem Fits.eq_answered {call : Call} (fits : call.Fits w) (through : 2 ≤ call.touched) :
    call = .answered call.request.1 call.request.2
      (w.deriveAfresh call.request.1 call.request.2) := by
  cases call with
  | started _ _ => exact absurd through (Nat.not_succ_le_zero 1)
  | missed _ _ _ => exact absurd through (Nat.lt_irrefl 1)
  | answered seed position outcome => exact congrArg (answered seed position) fits

/-- Both touches of a call in a row leave the memory of the whole call. -/
theorem memory_step_step (w : Wallet) (seed : Seed) (position : Position) (memory : Memory) :
    (((started seed position).step w memory).1.step w
        ((started seed position).step w memory).2).2 =
      (w.derive seed position memory).2 := by
  have snd_of_eq {touch : Call × Memory} {answer : Outcome × Memory}
      (h : touch = (.answered seed position answer.1, answer.2)) : touch.2 = answer.2 := by
    rw [h]
  cases looked : w.look seed position memory with
  | answered outcome =>
    rw [step_of_answered looked, derive, looked]
    exact snd_of_eq (step_answered memory seed position outcome)
  | missed path =>
    rw [step_of_missed looked, derive, looked]
    exact snd_of_eq (step_missed memory seed position path)

end Call

/-! ### Calls that take turns -/

/-- A memory, with all calls that were ever started on it. -/
structure Pool where
  memory : Memory
  calls : List Call

/-- Somebody starts a call, or a call touches the memory once. -/
inductive Turn where
  | start (seed : Seed) (position : Position)
  | touch (number : Nat)
  deriving DecidableEq

/-- A call that has been answered, or that does not exist, touches nothing. -/
def Turn.apply (w : Wallet) (pool : Pool) : Turn → Pool
  | .start seed position => { pool with calls := pool.calls ++ [.started seed position] }
  | .touch number =>
    match pool.calls[number]? with
    | none => pool
    | some call =>
      ⟨(call.step w pool.memory).2, pool.calls.set number (call.step w pool.memory).1⟩

theorem Turn.touch_of_none {pool : Pool} {number : Nat} (absent : pool.calls[number]? = none) :
    (touch number).apply w pool = pool := by
  simp only [Turn.apply, absent]

theorem Turn.touch_of_some {pool : Pool} {number : Nat} {call : Call}
    (found : pool.calls[number]? = some call) :
    (touch number).apply w pool =
      ⟨(call.step w pool.memory).2, pool.calls.set number (call.step w pool.memory).1⟩ := by
  simp only [Turn.apply, found]

namespace Pool

def empty : Pool := ⟨none, []⟩

def run (w : Wallet) (pool : Pool) (turns : List Turn) : Pool := turns.foldl (Turn.apply w) pool

@[simp] theorem run_nil (pool : Pool) : pool.run w [] = pool := rfl

@[simp] theorem run_cons (pool : Pool) (turn : Turn) (turns : List Turn) :
    pool.run w (turn :: turns) = (turn.apply w pool).run w turns := rfl

theorem run_append (pool : Pool) (turns turns' : List Turn) :
    pool.run w (turns ++ turns') = (pool.run w turns).run w turns' := List.foldl_append

/-- The memory belongs to the wallet, and every call fits it. -/
structure Fits (w : Wallet) (pool : Pool) : Prop where
  memory : pool.memory.BelongsTo w
  calls : ∀ call ∈ pool.calls, call.Fits w

theorem fits_empty (w : Wallet) : empty.Fits w := ⟨Memory.belongsTo_none w, nofun⟩

variable {pool : Pool}

theorem Fits.apply (h : pool.Fits w) (turn : Turn) : (turn.apply w pool).Fits w := by
  cases turn with
  | start seed position =>
    refine ⟨h.memory, fun call mem => ?_⟩
    rcases List.mem_append.1 mem with old | new
    · exact h.calls call old
    · rw [List.mem_singleton.1 new]
      trivial
  | touch number =>
    cases found : pool.calls[number]? with
    | none =>
      rw [Turn.touch_of_none found]
      exact h
    | some call =>
      rw [Turn.touch_of_some found]
      obtain ⟨fits, belongs⟩ := Call.fits_step h.memory (h.calls call (List.mem_of_getElem? found))
      refine ⟨belongs, fun other mem => ?_⟩
      rcases List.mem_or_eq_of_mem_set mem with old | rfl
      · exact h.calls other old
      · exact fits

theorem Fits.run (h : pool.Fits w) (turns : List Turn) : (pool.run w turns).Fits w := by
  induction turns generalizing pool with
  | nil => exact h
  | cons turn turns ih => exact ih (h.apply turn)

/-- A turn keeps every call in its place and its request, and a touch of its own brings it on. -/
theorem exists_call_apply {number : Nat} {call : Call} (found : pool.calls[number]? = some call)
    (turn : Turn) :
    ∃ call', (turn.apply w pool).calls[number]? = some call' ∧ call'.request = call.request ∧
      min 2 (call.touched + [turn].count (.touch number)) ≤ call'.touched := by
  obtain ⟨bound, -⟩ := List.getElem?_eq_some_iff.1 found
  cases turn with
  | start seed position =>
    refine ⟨call, ?_, rfl, Nat.min_le_right _ _⟩
    change (pool.calls ++ [.started seed position])[number]? = some call
    rw [List.getElem?_append_left bound, found]
  | touch other =>
    by_cases same : other = number
    · subst same
      obtain ⟨request, touched⟩ := call.request_touched_step (w := w) pool.memory
      rw [Turn.touch_of_some found]
      refine ⟨_, List.getElem?_set_self bound, request, ?_⟩
      rw [List.count_singleton_self]
      exact touched
    · refine ⟨call, ?_, rfl, ?_⟩
      · cases there : pool.calls[other]? with
        | none => rw [Turn.touch_of_none there, found]
        | some _ => rw [Turn.touch_of_some there, List.getElem?_set_ne same, found]
      · have apart : Turn.touch other ≠ Turn.touch number := fun h => same (Turn.touch.inj h)
        rw [List.count_singleton, if_neg (by simpa using apart)]
        exact Nat.min_le_right _ _

theorem exists_call_run {number : Nat} {call : Call} (found : pool.calls[number]? = some call)
    (turns : List Turn) :
    ∃ call', (pool.run w turns).calls[number]? = some call' ∧ call'.request = call.request ∧
      min 2 (call.touched + turns.count (.touch number)) ≤ call'.touched := by
  induction turns generalizing pool call with
  | nil => exact ⟨call, found, rfl, Nat.min_le_right _ _⟩
  | cons turn turns ih =>
    obtain ⟨next, there, request, touched⟩ := exists_call_apply (w := w) found turn
    obtain ⟨last, there', request', touched'⟩ := ih there
    refine ⟨last, there', request'.trans request, ?_⟩
    have split : ([turn] ++ turns).count (.touch number) =
        [turn].count (.touch number) + turns.count (.touch number) := List.count_append
    rw [List.singleton_append] at split
    omega

/-- A whole call is a call whose touches follow at once. -/
theorem memory_run_whole (w : Wallet) (pool : Pool) (seed : Seed) (position : Position) :
    (pool.run w [.start seed position, .touch pool.calls.length, .touch pool.calls.length]).memory =
      (w.derive seed position pool.memory).2 := by
  have started : ((Turn.start seed position).apply w pool).calls[pool.calls.length]? =
    some (.started seed position) := List.getElem?_concat_length
  obtain ⟨bound, -⟩ := List.getElem?_eq_some_iff.1 started
  rw [run_cons, run_cons, run_cons, run_nil, Turn.touch_of_some started,
    Turn.touch_of_some (List.getElem?_set_self bound)]
  exact Call.memory_step_step w seed position pool.memory

/-- A call that gets two turns is answered, whatever happens in between. -/
theorem Fits.getElem?_of_two_le (h : pool.Fits w) (seed : Seed) (position : Position)
    {turns : List Turn} (enough : 2 ≤ turns.count (.touch pool.calls.length)) :
    (pool.run w (.start seed position :: turns)).calls[pool.calls.length]? =
      some (.answered seed position (w.deriveAfresh seed position)) := by
  rw [run_cons]
  have started : ((Turn.start seed position).apply w pool).calls[pool.calls.length]? =
    some (.started seed position) := List.getElem?_concat_length
  obtain ⟨call, there, request, touched⟩ := exists_call_run (w := w) started turns
  have fits := ((h.apply (.start seed position)).run turns).calls call (List.mem_of_getElem? there)
  have answered := fits.eq_answered (by omega)
  rw [request] at answered
  rw [there, answered]
  rfl

end Pool

/-- Whatever calls share the memory of a wallet and however their touches follow one another: the
memory is empty or belongs to the wallet; every answer is the one from the root; a call that gets
two turns is answered; a whole call, which is one with its turns in a row, has the same answer; and
so has one of an equal wallet, whatever its own memory has been through. -/
theorem eq_deriveAfresh_of_every_interleaving (w : Wallet) (turns : List Turn) :
    (Pool.empty.run w turns).memory.BelongsTo w ∧
      (∀ seed position outcome,
        .answered seed position outcome ∈ (Pool.empty.run w turns).calls →
          outcome = w.deriveAfresh seed position) ∧
      (∀ seed position after number, number = (Pool.empty.run w turns).calls.length →
        2 ≤ after.count (.touch number) →
          (Pool.empty.run w (turns ++ .start seed position :: after)).calls[number]? =
            some (.answered seed position (w.deriveAfresh seed position))) ∧
      (∀ seed position number, number = (Pool.empty.run w turns).calls.length →
        w.derive seed position (Pool.empty.run w turns).memory =
          (w.deriveAfresh seed position, (Pool.empty.run w
            (turns ++ [.start seed position, .touch number, .touch number])).memory)) ∧
      ∀ (w' : Wallet) (turns' : List Turn), (w == w') = true → ∀ seed position,
        (w.derive seed position (Pool.empty.run w turns).memory).1 =
          (w'.derive seed position (Pool.empty.run w' turns').memory).1 := by
  have fits := (Pool.fits_empty w).run turns
  refine ⟨fits.memory, fun seed position outcome mem => fits.calls _ mem, ?_, ?_, ?_⟩
  · rintro seed position after number rfl enough
    rw [Pool.run_append]
    exact fits.getElem?_of_two_le seed position enough
  · rintro seed position number rfl
    rw [Pool.run_append, Pool.memory_run_whole]
    exact Prod.ext (derive_eq_deriveAfresh fits.memory seed position).outcome rfl
  · intro w' turns' same seed position
    cases eq_of_beq same
    have fits' := (Pool.fits_empty w).run turns'
    rw [(derive_eq_deriveAfresh fits.memory seed position).outcome,
      (derive_eq_deriveAfresh fits'.memory seed position).outcome]

end Wallet

end KeySearch.Derivation
