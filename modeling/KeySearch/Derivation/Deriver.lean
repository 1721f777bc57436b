import KeySearch.Derivation.Error
import KeySearch.Key
import KeySearch.Seed

/-! The key service that a search asks for keys. A service may keep state between calls, so a call
takes the state of the world and hands it back, and its answer may depend on every call before it.
While it works, a call may also ask for the search to be cancelled, which its reply tells. A service
that is a plain function of seed and position leaves the world alone. -/

namespace KeySearch.Derivation

/-- The answer for one position of one seed: its key, or why there is none. -/
abbrev Outcome := Except Error Key

/-- The answer to one call, and whether the call asked for the search to be cancelled. -/
structure Reply where
  outcome : Outcome
  cancels : Bool

/-- A key service over worlds of type `σ`. -/
structure Deriver (σ : Type) where
  derive : Seed → Position → σ → Reply × σ

namespace Deriver

variable {σ τ : Type}

/-- The service that answers by a function and never cancels. -/
def ofFn (f : Seed → Position → Outcome) : Deriver σ where
  derive seed position world := (⟨f seed position, false⟩, world)

/-- The service as part of a larger world, of which it sees the first half. -/
def onFst (d : Deriver σ) : Deriver (σ × τ) where
  derive seed position world :=
    let (reply, first) := d.derive seed position world.1
    (reply, (first, world.2))

end Deriver

end KeySearch.Derivation
