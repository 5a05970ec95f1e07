/-
# Numerals read as values

A numeral is an optional sign and one of

| form | value |
| --- | --- |
| digits, with at most one point among, before or after them, and an optional exponent | that decimal, rounded |
| `inf` or `infinity`, in any case | an infinity |
| `nan`, in any case | `nan` |

An exponent is `e` or `E`, an optional sign and at least one digit. Digits and letters are ASCII,
and nothing may stand around the numeral, not even a blank.
-/

import PocketCalculator.Binary64.Rounding

namespace PocketCalculator
namespace Numeral

/-- Whether a leading sign is a minus, and what follows the sign. -/
def splitSign : Text → Bool × Text
  | '-' :: rest => (true, rest)
  | '+' :: rest => (false, rest)
  | rest => (false, rest)

/-- The number that a run of digits denotes. -/
def digitsValue (digits : Text) : Nat := Nat.ofDigitChars 10 digits 0

/-- A run of at least one digit, with an optional sign. -/
def readInteger (t : Text) : Option Int :=
  let (negative, digits) := splitSign t
  if digits ≠ [] ∧ digits.all Char.isDigit then
    some (if negative then -(digitsValue digits : Int) else digitsValue digits)
  else none

/-- The exponent that ends a numeral; no exponent is the exponent `0`. -/
def readExponent : Text → Option Int
  | [] => some 0
  | c :: rest => if c = 'e' ∨ c = 'E' then readInteger rest else none

/-- The parts of an unsigned decimal: the digits before the point, those after it, and the rest. -/
def splitDecimal (t : Text) : Text × Text × Text :=
  let whole := t.takeWhile Char.isDigit
  match t.dropWhile Char.isDigit with
  | '.' :: rest => (whole, rest.takeWhile Char.isDigit, rest.dropWhile Char.isDigit)
  | rest => (whole, [], rest)

/-- An unsigned decimal with an optional exponent, given the sign in front of it. -/
def readDecimal (negative : Bool) (t : Text) : Option Binary64 :=
  let (whole, fraction, rest) := splitDecimal t
  if whole = [] ∧ fraction = [] then none
  else (readExponent rest).map fun exponent =>
    .ofDecimal negative (digitsValue (whole ++ fraction)) (exponent - fraction.length)

/-- The value of a numeral, if the text is one. -/
def read (t : Text) : Option Binary64 :=
  let (negative, body) := splitSign t
  let letters := body.map Char.toLower
  if letters = "inf".toList ∨ letters = "infinity".toList then some (.infinite negative)
  else if letters = "nan".toList then some .nan
  else readDecimal negative body

end Numeral
end PocketCalculator
