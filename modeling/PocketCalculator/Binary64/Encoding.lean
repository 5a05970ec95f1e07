/-
# The 64-bit encoding

| bits | field |
| --- | --- |
| 63 | sign |
| 62 … 52 | exponent `e` |
| 51 … 0 | fraction `f` |

With `e = 0` the magnitude is `f` units, with `0 < e < 2047` it is `(2 ^ 52 + f) · 2 ^ (e - 1)`
units; `e = 2047` holds the infinities (`f = 0`) and `nan` (any other `f`).
-/

import PocketCalculator.Binary64.Rounding

namespace PocketCalculator
namespace Binary64

/-- The number of fractions, and the weight of the exponent. -/
def fractionLimit : Nat := Nat.pow 2 52

/-- The number of exponents. The greatest is not that of a finite value. -/
def exponentLimit : Nat := Nat.pow 2 11

/-- The weight of the sign. -/
def signWeight : Nat := exponentLimit * fractionLimit

/-- The fields of a magnitude: exponent and fraction together count the spacings below it. -/
def Magnitude.toBits (m : Magnitude) : Nat :=
  let shift := m.units.log2 - 52
  shift * fractionLimit + m.units / Nat.pow 2 shift

/-- The encoding of a value. `nan` has one encoding, with the first fraction bit set. -/
def toBits : Binary64 → Nat
  | .finite a m => a.toNat * signWeight + m.toBits
  | .infinite a => a.toNat * signWeight + (exponentLimit - 1) * fractionLimit
  | .nan => (exponentLimit - 1) * fractionLimit + fractionLimit / 2

/-- The value that 64 bits encode; higher bits are ignored. -/
def ofBits (bits : Nat) : Binary64 :=
  let negative := bits / signWeight % 2 == 1
  let exponent := bits / fractionLimit % exponentLimit
  let fraction := bits % fractionLimit
  if exponent = exponentLimit - 1 then
    if fraction = 0 then .infinite negative else .nan
  else if exponent = 0 then ofUnits negative fraction 1
  else ofUnits negative ((fractionLimit + fraction) * Nat.pow 2 (exponent - 1)) 1

end Binary64
end PocketCalculator
