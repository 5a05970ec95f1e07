/-
# Rounding to binary64

Every operation of this library computes its exact result first, as a quotient of natural numbers
with a sign, and rounds it once: to the nearest value, and of two equally near values to the one
whose last binary digit is even. Rounding is therefore one function, `Binary64.ofUnits`, and
overflow to an infinity and underflow to a signed zero are decided here and nowhere else.
-/

import PocketCalculator.Binary64.Basic

namespace PocketCalculator

/-- The whole number nearest to `num / den`, the even one of two equally near. -/
def roundHalfEven (num den : Nat) : Nat :=
  let q := num / den
  let twice := 2 * (num % den)
  if twice < den ∨ (twice = den ∧ q % 2 = 0) then q else q + 1

namespace Binary64

/-- The multiple of the local spacing nearest to `num / den` units: the spacing is one unit below
`2 ^ 53` units, and keeps 53 significant binary digits above. -/
def nearestUnits (num den : Nat) : Nat :=
  let spacing := Nat.pow 2 ((num / den).log2 - 52)
  roundHalfEven num (den * spacing) * spacing

/-- `num / den` units of the given sign, rounded; infinite from half a spacing above the greatest
finite value. -/
def ofUnits (negative : Bool) (num den : Nat) : Binary64 :=
  let n := nearestUnits num den
  if h : Representable n then .finite negative ⟨n, h⟩ else .infinite negative

/-- `num / den` of the given sign, rounded. -/
def ofRatio (negative : Bool) (num den : Nat) : Binary64 :=
  ofUnits negative (num * unitsOfOne) den

/-- A natural number, rounded. -/
def ofNat (n : Nat) : Binary64 := ofRatio false n 1

instance (n : Nat) : OfNat Binary64 n := ⟨ofNat n⟩

/-- The decimal `coefficient · 10 ^ exponent` of the given sign, rounded. Exponents so great or so
small that the result is certain need no power of ten. -/
def ofDecimal (negative : Bool) (coefficient : Nat) (exponent : Int) : Binary64 :=
  if coefficient = 0 then zero negative
  else if 309 ≤ exponent then .infinite negative
  else if 0 ≤ exponent then ofRatio negative (coefficient * Nat.pow 10 exponent.toNat) 1
  else if (coefficient.log2 + 1 : Int) ≤ 3 * (-exponent - 324) then zero negative
  else ofRatio negative coefficient (Nat.pow 10 (-exponent).toNat)

end Binary64
end PocketCalculator
