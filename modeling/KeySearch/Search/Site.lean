import KeySearch.Search.Error
import KeySearch.Search.Task

/-! The ground on which workers and their coordinator meet. A site holds what they share: the world
of the services, the flag that cancels the search, and the cell for the failure that ends it, which
keeps the first one recorded. Everything happens in atomic steps, one at a time. A schedule says
for each step whether somebody outside cancels right before it and which worker is preferred to
take it, so that the schedules together are all the ways in which the steps can follow one another.
The history holds every step that others may notice, the latest first. -/

namespace KeySearch.Search

/-- What a schedule decides about one step. -/
structure Move where
  cancels : Bool
  worker : Nat
  deriving DecidableEq

/-- The moves, by the number of the step. -/
abbrev Schedule := Nat → Move

/-- The workers take turns, and nobody outside cancels. No worker has to wait long for its next
step, so a worker that fails or cancels at once stops the others at once, however much they have
left to do. -/
def Schedule.roundRobin (workers : Nat) : Schedule := fun step => ⟨false, step % workers⟩

inductive Action where
  /-- Somebody outside cancels. -/
  | cancelled
  /-- The coordinator looks whether the search is cancelled. -/
  | looked (stops : Bool)
  /-- A batch goes to the workers. -/
  | handedOut (tasks : List Task)
  /-- A worker looks whether it should stop. -/
  | polled (worker : Nat) (stops : Bool)
  /-- A worker asks for the key of a position; the call yields one or not, and cancels or not. -/
  | derived (worker : Nat) (position : Position) (yields cancels : Bool)
  /-- A worker puts its failure into the cell, or finds the cell taken. -/
  | recorded (worker : Nat) (first : Bool)
  deriving DecidableEq

/-- The positions whose keys were asked for, call by call. -/
def Action.requested (history : List Action) : List Position :=
  history.filterMap fun
    | .derived _ position _ _ => some position
    | _ => none

structure Site (σ : Type) where
  world : σ
  cancelled : Bool
  failure : Option Failure
  /-- The steps taken so far. -/
  clock : Nat
  history : List Action

namespace Site

variable {σ : Type}

/-- The site before a search. -/
def start (world : σ) (cancelled : Bool) : Site σ := ⟨world, cancelled, none, 0, []⟩

def note (s : Site σ) (action : Action) : Site σ := { s with history := action :: s.history }

/-- The next step begins, behind what its move does from outside. -/
def tick (s : Site σ) (move : Move) : Site σ :=
  if move.cancels then
    { s with cancelled := true, clock := s.clock + 1, history := .cancelled :: s.history }
  else { s with clock := s.clock + 1 }

/-- Whether a worker that looks now has to stop. -/
def stops (s : Site σ) : Bool := s.failure.isSome || s.cancelled

/-- A worker puts a failure into the cell; a taken cell stays as it is. -/
def record (s : Site σ) (worker : Nat) (failure : Failure) : Site σ :=
  { s with
    failure := some (s.failure.getD failure)
    history := .recorded worker s.failure.isNone :: s.history }

end Site

end KeySearch.Search
