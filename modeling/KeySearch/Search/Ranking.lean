import KeySearch.Key

/-! The keys that a search returns: all that were found, in the order of their positions, cut after
the number asked for. -/

namespace KeySearch.Search

/-- Whether a key may stand before another. -/
def ranksBefore (a b : Key) : Bool := (a.position.order b.position).isLE

/-- The `target` keys with the smallest positions, in order. -/
def rank (keys : List Key) (target : Nat) : List Key := (keys.mergeSort ranksBefore).take target

end KeySearch.Search
