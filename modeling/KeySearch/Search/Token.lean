/-! Cancellation tokens. Copies of a token form a family with one flag, which any member raises for
all and nobody lowers. A registry holds the flags, a token names its family; letting go of a token
leaves the flag where it is. A `Shelf` is a row of tokens in somebody's hands, with the operations
on them by place. -/

namespace KeySearch.Search

structure Token where
  family : Nat
  deriving DecidableEq

/-- The flags of the families, in the order in which these came into being. -/
structure Registry where
  flags : List Bool
  deriving DecidableEq

namespace Registry

def empty : Registry := ⟨[]⟩

/-- A token of a new family, not cancelled. -/
def fresh (r : Registry) : Token × Registry := (⟨r.flags.length⟩, ⟨r.flags ++ [false]⟩)

def cancel (r : Registry) (t : Token) : Registry := ⟨r.flags.set t.family true⟩

def isCancelled (r : Registry) (t : Token) : Bool := r.flags.getD t.family false

theorem isCancelled_cancel (r : Registry) {t u : Token} (h : t.family < r.flags.length) :
    (r.cancel t).isCancelled u = (r.isCancelled u || t.family == u.family) := by
  by_cases same : t.family = u.family
  · simp [cancel, isCancelled, List.getD, ← same, h]
  · simp [cancel, isCancelled, List.getD, same]

end Registry

/-- Tokens in hand. -/
structure Shelf where
  registry : Registry
  tokens : List Token
  deriving DecidableEq

/-- What can be done with the tokens of a shelf, each named by its place. -/
inductive Shelf.Op where
  | fresh
  | clone (place : Nat)
  | cancel (place : Nat)
  | drop (place : Nat)
  deriving DecidableEq

namespace Shelf

def empty : Shelf := ⟨.empty, []⟩

/-- A new token or a copy goes to the end of the row; a place that holds no token is let be. -/
def apply (s : Shelf) : Op → Shelf
  | .fresh =>
    let (token, registry) := s.registry.fresh
    ⟨registry, s.tokens ++ [token]⟩
  | .clone place => ⟨s.registry, s.tokens ++ s.tokens[place]?.toList⟩
  | .cancel place => ⟨s.tokens[place]?.toList.foldl Registry.cancel s.registry, s.tokens⟩
  | .drop place => ⟨s.registry, s.tokens.eraseIdx place⟩

/-- One operation after the other. -/
def run (ops : List Op) (s : Shelf) : Shelf := ops.foldl apply s

@[simp] theorem run_nil (s : Shelf) : run [] s = s := rfl

@[simp] theorem run_cons (op : Op) (ops : List Op) (s : Shelf) :
    run (op :: ops) s = run ops (s.apply op) := rfl

theorem run_append (ops more : List Op) (s : Shelf) :
    run (ops ++ more) s = run more (run ops s) := List.foldl_append

/-- Which tokens of the row are cancelled. -/
def states (s : Shelf) : List Bool := s.tokens.map s.registry.isCancelled

end Shelf

end KeySearch.Search
