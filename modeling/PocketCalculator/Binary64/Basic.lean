/-
# Binary64 values

A finite binary64 value is a whole number of units of `2⁻¹⁰⁷⁴`, the least positive value, with a
sign; the sign is kept for zero as well. Which magnitudes exist is one condition on the number of
units:

| condition | meaning |
| --- | --- |
| `n < 2 ^ 2098` | the value is below `2¹⁰²⁴` |
| `2 ^ (log₂ n - 52) ∣ n` | it has at most 53 significant binary digits |

The second condition is void below `2 ^ 53` units, which covers the subnormal values without a
case of their own. Beside the finite values there are two infinities and one `nan`.
-/

import PocketCalculator.Text

namespace PocketCalculator
namespace Binary64

/-- Binary places behind the point: a unit is `2` to the negative of this power. -/
def places : Nat := 1074

/-- The units that make up `1`. -/
def unitsOfOne : Nat := Nat.pow 2 places

/-- The units of `2¹⁰²⁴`, the first power of two beyond every finite value. -/
def unitsLimit : Nat := Nat.pow 2 (1024 + places)

/-- A number of units of `2⁻¹⁰⁷⁴` that a finite value can have. -/
def Representable (n : Nat) : Prop := n < unitsLimit ∧ Nat.pow 2 (n.log2 - 52) ∣ n

instance : DecidablePred Representable := fun n =>
  inferInstanceAs (Decidable (n < unitsLimit ∧ Nat.pow 2 (n.log2 - 52) ∣ n))

/-- The absolute value of a finite value, in units of `2⁻¹⁰⁷⁴`. -/
structure Magnitude where
  units : Nat
  representable : Representable units
  deriving DecidableEq

/-- The magnitude of no units. -/
def Magnitude.zero : Magnitude := ⟨0, by decide +kernel⟩

end Binary64

/-- A binary64 value. `negative` is the sign, also of a zero. -/
inductive Binary64 where
  | finite (negative : Bool) (magnitude : Binary64.Magnitude)
  | infinite (negative : Bool)
  | nan
  deriving DecidableEq

namespace Binary64

/-- The zero of the given sign. -/
def zero (negative : Bool) : Binary64 := .finite negative .zero

/-- Neither infinite nor `nan`. -/
def isFinite : Binary64 → Bool
  | .finite _ _ => true
  | _ => false

/-- A zero of either sign. -/
def isZero : Binary64 → Bool
  | .finite _ m => m.units == 0
  | _ => false

/-- The units of a finite value with its sign. Both zeros give `0`. -/
def signedUnits (negative : Bool) (m : Magnitude) : Int :=
  if negative then -(m.units : Int) else m.units

/-- The order of values. `nan` is not comparable, not even with itself. -/
def le : Binary64 → Binary64 → Bool
  | .nan, _ | _, .nan => false
  | .infinite a, y => a || y == .infinite false
  | _, .infinite b => !b
  | .finite a x, .finite b y => signedUnits a x ≤ signedUnits b y

instance : LE Binary64 := ⟨fun x y => le x y = true⟩

instance (x y : Binary64) : Decidable (x ≤ y) := inferInstanceAs (Decidable (le x y = true))

end Binary64
end PocketCalculator
