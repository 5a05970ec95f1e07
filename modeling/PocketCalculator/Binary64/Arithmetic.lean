/-
# Arithmetic on binary64 values

The four operations, negation, the square root and the floor. Each is the exact result rounded
once; the remaining cases are those of signed zeros, infinities and `nan`:

| operation | exceptional results |
| --- | --- |
| `x + y` | equal and opposite operands give `+0`; opposite infinities give `nan` |
| `x * y` | an infinity times a zero gives `nan` |
| `x / y` | a zero divisor gives an infinity, `0 / 0` and `∞ / ∞` give `nan` |
| `√x` | a negative operand gives `nan`, except that the root of `-0` is `-0` |
-/

import PocketCalculator.Binary64.Rounding

namespace PocketCalculator
namespace Binary64

/-- The sum of two values. An exact zero is negative only if both operands are. -/
def add : Binary64 → Binary64 → Binary64
  | .nan, _ | _, .nan => .nan
  | .infinite a, .infinite b => if a = b then .infinite a else .nan
  | .infinite a, _ => .infinite a
  | _, .infinite b => .infinite b
  | .finite a x, .finite b y =>
    let sum := signedUnits a x + signedUnits b y
    if sum = 0 then zero (a && b) else ofUnits (sum < 0) sum.natAbs 1

/-- The value with the other sign. -/
def neg : Binary64 → Binary64
  | .finite a x => .finite (!a) x
  | .infinite a => .infinite (!a)
  | .nan => .nan

/-- The product of two values. -/
def mul : Binary64 → Binary64 → Binary64
  | .nan, _ | _, .nan => .nan
  | .infinite a, .infinite b => .infinite (a != b)
  | .infinite a, .finite b y => if y.units = 0 then .nan else .infinite (a != b)
  | .finite a x, .infinite b => if x.units = 0 then .nan else .infinite (a != b)
  | .finite a x, .finite b y => ofUnits (a != b) (x.units * y.units) unitsOfOne

/-- The quotient of two values. -/
def div : Binary64 → Binary64 → Binary64
  | .nan, _ | _, .nan => .nan
  | .infinite _, .infinite _ => .nan
  | .infinite a, .finite b _ => .infinite (a != b)
  | .finite a _, .infinite b => zero (a != b)
  | .finite a x, .finite b y =>
    if y.units = 0 then
      if x.units = 0 then .nan else .infinite (a != b)
    else ofRatio (a != b) x.units y.units

instance : Add Binary64 := ⟨add⟩
instance : Neg Binary64 := ⟨neg⟩
instance : Sub Binary64 := ⟨fun x y => x + -y⟩
instance : Mul Binary64 := ⟨mul⟩
instance : Div Binary64 := ⟨div⟩

/-- The greatest natural number whose square is at most `n`, found by halving the interval
`[low, low + 2 ^ steps)`. -/
def rootWithin (n : Nat) : (steps low : Nat) → Nat
  | 0, low => low
  | steps + 1, low =>
    let middle := low + Nat.pow 2 steps
    if middle * middle ≤ n then rootWithin n steps middle else rootWithin n steps low

/-- The greatest natural number whose square is at most `n`. -/
def floorRoot (n : Nat) : Nat := rootWithin n (n.log2 / 2 + 1) 0

/-- The square root. A root has at least `2 ^ 537` units, far more than 53 binary digits, so the
half unit that stands for whatever follows its whole part never meets the middle between two
representable values. -/
def sqrt : Binary64 → Binary64
  | .nan => .nan
  | .infinite a => if a then .nan else .infinite false
  | .finite a x =>
    if x.units = 0 then .finite a x
    else if a then .nan
    else
      let square := x.units * unitsOfOne
      let root := floorRoot square
      ofUnits false (if root * root = square then 2 * root else 2 * root + 1) 2

/-- The greatest whole value that is not above the given one. -/
def floor : Binary64 → Binary64
  | .finite a x =>
    let whole := x.units / unitsOfOne
    if a ∧ x.units % unitsOfOne ≠ 0 then ofRatio a (whole + 1) 1 else ofRatio a whole 1
  | x => x

/-- The gap between `1` and the next greater value. -/
def epsilon : Binary64 := ofRatio false 1 (Nat.pow 2 52)

/-- One half. -/
def half : Binary64 := ofRatio false 1 2

/-- The value nearest to the circle's circumference over its diameter. -/
def pi : Binary64 := ofDecimal false 314159265358979323846 (-20)

/-- The value nearest to the base of the natural logarithm. -/
def euler : Binary64 := ofDecimal false 271828182845904523536 (-20)

end Binary64
end PocketCalculator
