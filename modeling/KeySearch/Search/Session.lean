import KeySearch.Search.Coordinator
import KeySearch.Search.Token

/-! Sessions: one coordinator in use over several steps. Besides runs, a step can cancel the token
that the coordinator observes, hand out copies of it or new tokens, cancel a token handed out, or
make the coordinator observe one of those instead. A run takes its flag from the family of the
observed token and leaves it raised there if the run was cancelled on the way. Steps change neither
the settings nor the constraints. -/

namespace KeySearch.Search

structure Session (σ : Type) where
  coordinator : Coordinator σ
  /-- The token that the coordinator observes. -/
  observed : Token
  /-- The tokens handed out. -/
  shelf : Shelf
  world : σ

namespace Session

variable {σ : Type}

inductive Step where
  | run (schedule : Schedule) (seed : Seed) (target : UInt64)
  | cancel
  /-- A copy of the observed token is handed out. -/
  | takeToken
  /-- A new token is handed out. -/
  | newToken
  | cancelToken (place : Nat)
  /-- The coordinator observes the token at this place from now on. -/
  | useToken (place : Nat)

/-- The session of a coordinator with a token of its own. -/
def start (coordinator : Coordinator σ) (world : σ) : Session σ :=
  let (token, registry) := Registry.empty.fresh
  ⟨coordinator, token, ⟨registry, []⟩, world⟩

/-- Whether the observed token is cancelled. -/
def isCancelled (s : Session σ) : Bool := s.shelf.registry.isCancelled s.observed

def cancelObserved (s : Session σ) : Session σ :=
  { s with shelf := ⟨s.shelf.registry.cancel s.observed, s.shelf.tokens⟩ }

/-- A run of the coordinator as the session stands. -/
def runNow (s : Session σ) (schedule : Schedule) (seed : Seed) (target : UInt64) : Run σ :=
  s.coordinator.run schedule seed target s.world s.isCancelled

/-- The session behind a run. -/
def settle (s : Session σ) (run : Run σ) : Session σ :=
  let s := { s with world := run.world }
  if run.cancelled then s.cancelObserved else s

/-- One step, with the run if the step was one; a place that holds no token is let be. -/
def step (s : Session σ) : Step → Session σ × Option (Run σ)
  | .run schedule seed target =>
    let run := s.runNow schedule seed target
    (s.settle run, some run)
  | .cancel => (s.cancelObserved, none)
  | .takeToken => ({ s with shelf := ⟨s.shelf.registry, s.shelf.tokens ++ [s.observed]⟩ }, none)
  | .newToken => ({ s with shelf := s.shelf.apply .fresh }, none)
  | .cancelToken place => ({ s with shelf := s.shelf.apply (.cancel place) }, none)
  | .useToken place => ({ s with observed := s.shelf.tokens[place]?.getD s.observed }, none)

/-- All steps, with the runs among them. -/
def steps (s : Session σ) : List Step → Session σ × List (Run σ)
  | [] => (s, [])
  | step :: rest =>
    let (s, run) := s.step step
    let (s, runs) := s.steps rest
    (s, run.toList ++ runs)

end Session

end KeySearch.Search
