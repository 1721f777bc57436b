import KeySearch.Derivation.Deriver

/-! Cues for a rehearsed search: at a given position something is to happen, always or only so many
times. A scripted key service looks up its cues at every call, first those that cancel the search
and then those that make the call fail, and answers like the service underneath where no cue says
otherwise. The cues that are left are part of its world. -/

namespace KeySearch.Rehearsal

open KeySearch.Derivation (Deriver)

/-- Something that happens when the key of a position is asked for. -/
structure Cue (α : Type) where
  position : Position
  /-- How often it will still happen; without a number, every time. -/
  times : Option Nat
  effect : α
  deriving DecidableEq

namespace Cue

variable {α : Type}

def isDue (cue : Cue α) (position : Position) : Bool :=
  cue.position == position && cue.times != some 0

/-- The first cue that is due happens, and is left for one time fewer. -/
def fire (position : Position) : List (Cue α) → Option α × List (Cue α)
  | [] => (none, [])
  | cue :: cues =>
    if cue.isDue position then
      (some cue.effect, { cue with times := cue.times.map (· - 1) } :: cues)
    else
      let (effect, cues) := fire position cues
      (effect, cue :: cues)

end Cue

/-- The cues of a scripted service. -/
structure Script where
  cancellations : List (Cue Unit)
  failures : List (Cue Derivation.Error)
  deriving DecidableEq

/-- The service that follows a script and otherwise the given service. -/
def scripted {σ : Type} (d : Deriver σ) : Deriver (σ × Script) where
  derive seed position world :=
    let (cancel, cancellations) := Cue.fire position world.2.cancellations
    let (failure, failures) := Cue.fire position world.2.failures
    let script : Script := ⟨cancellations, failures⟩
    match failure with
    | some error => (⟨.error error, cancel.isSome⟩, (world.1, script))
    | none =>
      let (reply, inner) := d.derive seed position world.1
      (⟨reply.outcome, reply.cancels || cancel.isSome⟩, (inner, script))

end KeySearch.Rehearsal
