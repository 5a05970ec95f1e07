/-
# Circular functions

Sine, cosine and tangent of an angle in radians. Their last binary digit is not fixed by any rule
this library could state, so they are the ones of the machine: the value goes there and back
through its 64-bit encoding.
-/

import PocketCalculator.Binary64.Encoding

namespace PocketCalculator
namespace Binary64

/-- A function of the machine's floating-point numbers, on `Binary64`. -/
def ofMachine (f : Float → Float) (x : Binary64) : Binary64 :=
  ofBits (f (Float.ofBits (UInt64.ofNat x.toBits))).toBits.toNat

/-- The sine of an angle in radians. -/
def sin : Binary64 → Binary64 := ofMachine Float.sin

/-- The cosine of an angle in radians. -/
def cos : Binary64 → Binary64 := ofMachine Float.cos

/-- The tangent of an angle in radians. -/
def tan : Binary64 → Binary64 := ofMachine Float.tan

end Binary64
end PocketCalculator
