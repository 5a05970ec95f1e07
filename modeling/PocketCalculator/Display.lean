/-
# The text of a displayed value

A value is shown rounded to ten decimal places, in one of these forms:

| case | text |
| --- | --- |
| an infinity or `nan` | `Error` |
| exponent of the first digit below `-6` or from `21` | ten significant digits with an exponent |
| a positional text of more than twelve characters | twelve significant digits |
| otherwise | the fewest digits that read back |

A positional text ends neither in a point nor in a zero behind the point. The rounding adds
`2⁻⁵²` first, so that a decimal half whose binary value falls a little short is still rounded up.
-/

import PocketCalculator.Binary64.Arithmetic
import PocketCalculator.Decimal.Scientific

namespace PocketCalculator
namespace Display

/-- The text shown in place of a value that is not finite, and in the error state. -/
def errorText : Text := "Error".toList

/-- The nearest whole value, a half going up. -/
def roundHalfUp (x : Binary64) : Binary64 :=
  let below := x.floor
  if .half ≤ x - below then below + 1 else below

/-- The value at ten decimal places. Values too great to be scaled stay as they are. -/
def roundToTenPlaces (x : Binary64) : Binary64 :=
  let scaled := roundHalfUp ((x + .epsilon) * 10000000000) / 10000000000
  if scaled.isFinite then scaled else x

/-- The fewest digits that read back, positional up to an exponent of `20`. -/
def natural (m : Binary64.Magnitude) : Text := (Scientific.shortest m).layout 21

/-- `count` significant digits, positional while the units digit is among them. -/
def significant (count : Nat) (m : Binary64.Magnitude) : Text :=
  (Scientific.rounded count m).layout count

/-- The minus of a negative value. -/
def signText (negative : Bool) : Text := if negative then ['-'] else []

/-- A positional text without the zeros that end its decimal places, nor a point that ends it. -/
def trimPlaces (t : Text) : Text :=
  if '.' ∈ t ∧ 'e' ∉ t then (t.dropTrailing (· == '0')).dropTrailing (· == '.') else t

/-- The text of a finite value that is already rounded to its decimal places. -/
def finiteText (negative : Bool) (m : Binary64.Magnitude) : Text :=
  if m.units = 0 then ['0']
  else
    let sign := signText negative
    let text := sign ++ natural m
    if 'e' ∈ text then trimPlaces (sign ++ significant 10 m)
    else if 12 < text.length then trimPlaces (sign ++ significant 12 m)
    else trimPlaces text

/-- The text of a value. -/
def text (x : Binary64) : Text :=
  if x.isFinite then
    match roundToTenPlaces x with
    | .finite negative m => finiteText negative m
    | _ => errorText
  else errorText

end Display
end PocketCalculator
