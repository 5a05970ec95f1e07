/-
# Functions, constants and angles

The keys that act on one number. Sine, cosine and tangent read their operand in the unit of the
`AngleMode`; the other functions do not depend on it. A function may have an infinite value or none
at all (`nan`), as the inverse of zero or the root of a negative number; who applies it checks that.
-/

import PocketCalculator.Binary64.Arithmetic
import PocketCalculator.Binary64.Circular

namespace PocketCalculator

/-- The unit of angles. -/
inductive AngleMode where
  | degrees
  | radians
  deriving DecidableEq, Repr

namespace AngleMode

/-- The unit of a calculator that has not been told otherwise. -/
def standard : AngleMode := .degrees

/-- An angle in degrees, in radians. -/
def radiansOfDegrees (angle : Binary64) : Binary64 := angle * .pi / 180

/-- An angle in this unit, in radians. -/
def toRadians : AngleMode → Binary64 → Binary64
  | .degrees, angle => radiansOfDegrees angle
  | .radians, angle => angle

/-- The label of the unit's key. -/
def label : AngleMode → Text
  | .degrees => "DEG".toList
  | .radians => "RAD".toList

/-- The other unit. -/
def toggle : AngleMode → AngleMode
  | .degrees => .radians
  | .radians => .degrees

end AngleMode

/-- The functions of one number. -/
inductive UnaryFunction where
  | squareRoot
  | square
  | inverse
  | percent
  | opposite
  | sine
  | cosine
  | tangent
  deriving DecidableEq, Repr

namespace UnaryFunction

/-- The function keys, in their order on the screen. -/
def all : List UnaryFunction :=
  [.squareRoot, .square, .inverse, .percent, .opposite, .sine, .cosine, .tangent]

/-- The value of a function. -/
def apply (f : UnaryFunction) (mode : AngleMode) (x : Binary64) : Binary64 :=
  match f with
  | .squareRoot => x.sqrt
  | .square => x * x
  | .inverse => 1 / x
  | .percent => x / 100
  | .opposite => -x
  | .sine => (mode.toRadians x).sin
  | .cosine => (mode.toRadians x).cos
  | .tangent => (mode.toRadians x).tan

/-- The label of a function's key. -/
def label : UnaryFunction → Text
  | .squareRoot => "√".toList
  | .square => "x²".toList
  | .inverse => "1/x".toList
  | .percent => "%".toList
  | .opposite => "±".toList
  | .sine => "sin".toList
  | .cosine => "cos".toList
  | .tangent => "tan".toList

end UnaryFunction

/-- The constants that have a key. -/
inductive Constant where
  | pi
  | euler
  deriving DecidableEq, Repr

namespace Constant

/-- The constant keys, in their order on the screen. -/
def all : List Constant := [.pi, .euler]

/-- The value of a constant. -/
def value : Constant → Binary64
  | .pi => .pi
  | .euler => .euler

/-- The label of a constant's key. -/
def label : Constant → Text
  | .pi => "π".toList
  | .euler => "e".toList

end Constant
end PocketCalculator
