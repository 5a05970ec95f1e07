/-
# The history of calculations

The calculator remembers its last calculations, the most recent first. Pushing an entry drops the
oldest beyond the limit; a history that was read from elsewhere may be longer until it is bounded.
-/

import PocketCalculator.Text

namespace PocketCalculator

/-- A calculation: the expression that was evaluated, and its result as it was shown. -/
structure Entry where
  expression : Text
  result : Text
  deriving DecidableEq

/-- Calculations, the most recent first. -/
structure History where
  entries : List Entry
  deriving DecidableEq

namespace History

/-- The number of calculations that are kept. -/
def limit : Nat := 20

/-- The history of no calculation. -/
def empty : History := ⟨[]⟩

/-- The number of calculations. -/
def size (h : History) : Nat := h.entries.length

/-- A history of no calculation. -/
def isEmpty (h : History) : Bool := h.entries.isEmpty

/-- The most recent calculations up to the limit. -/
def bounded (h : History) : History := ⟨h.entries.take limit⟩

/-- The history after one more calculation. -/
def push (h : History) (e : Entry) : History := bounded ⟨e :: h.entries⟩

/-- A calculation by its age: `0` is the most recent. -/
def get? (h : History) (i : Nat) : Option Entry := h.entries[i]?

/-- **A push keeps the limit.** -/
theorem size_push_le (h : History) (e : Entry) : (h.push e).size ≤ limit :=
  List.length_take_le limit (e :: h.entries)

end History
end PocketCalculator
