/-
# Numbers of the stored form

| part | form |
| --- | --- |
| sign | `+` or `-`, or none |
| a whole number | digits, behind `0b`, `0o` or `0x` those of base 2, 8 or 16 |
| its width, or none | in base 2 or 10: `i` or `u` and one of 8, 16, 32, 64, 128, if in that range |
| a fractional number | digits with a point or an exponent or both, or `inf` or `NaN` behind a sign |
| its width, or none | `f32` or `f64` |

Underscores may stand between and behind digits, but not in front of them nor behind a point. A
whole number of base ten and no width that is out of range counts as a fractional one.
-/

import PocketCalculator.Data.Hexadecimal
import PocketCalculator.Decimal.Numeral

namespace PocketCalculator
namespace Stored

/-- A character that a number can hold. -/
def isNumberPart (c : Char) : Bool := c.isAlphanum || c ∈ ['_', '.', '+', '-']

/-- A character that a number can begin with. -/
def isNumberStart (c : Char) : Bool := c.isDigit || c ∈ ['.', '+', '-']

/-- The base that a prefix names, and the rest of the text. -/
def splitBase : Text → Nat × Text
  | '0' :: 'b' :: rest => (2, rest)
  | '0' :: 'o' :: rest => (8, rest)
  | '0' :: 'x' :: rest => (16, rest)
  | rest => (10, rest)

/-- The number that digits of a base denote, if they are that. -/
def digitsValue? (base : Nat) (digits : Text) : Option Nat :=
  (digits.filter (· ≠ '_')).foldlM (fun n c => do
    let digit ← Hexadecimal.value? c
    if digit < base then some (n * base + digit) else none) 0

/-- The greatest magnitude of a whole number of a width, with the given sign. -/
def greatest? (negative : Bool) (width : Text) : Option Nat :=
  let bits := [8, 16, 32, 64, 128]
  let signed := fun n => if negative then Nat.pow 2 (n - 1) else Nat.pow 2 (n - 1) - 1
  let unsigned := fun n => if negative then 0 else Nat.pow 2 n - 1
  if width = [] then some (if negative then signed 128 else unsigned 128)
  else ((bits.map fun n => ('i' :: Text.ofNat n, signed n)) ++
    bits.map fun n => ('u' :: Text.ofNat n, unsigned n)).lookup width

/-- A whole number. -/
def isWhole (t : Text) : Bool :=
  let (negative, unsigned) := Numeral.splitSign t
  let (base, body) := splitBase unsigned
  let isPart := fun c => c == '_' || (Hexadecimal.value? c).isSome
  let digits := body.takeWhile isPart
  let width := body.dropWhile isPart
  match digits.head?, digitsValue? base digits, greatest? negative width with
  | some first, some value, some greatest =>
    first != '_' && value ≤ greatest && (width.isEmpty || base = 2 || base = 10)
  | _, _, _ => false

/-- A fractional number without its width. -/
def dropWidth (t : Text) : Text :=
  if Text.isOneOf (t.drop (t.length - 3)) ["f32", "f64"] then t.take (t.length - 3) else t

/-- Whether every underscore follows a digit or the mark of an exponent, given whether the last
character but signs and underscores is one of these. -/
def underscoresFollow : Bool → Text → Bool
  | _, [] => true
  | allowed, c :: rest =>
    if c = '_' then allowed && underscoresFollow allowed rest
    else if c = '.' then underscoresFollow false rest
    else underscoresFollow (allowed || (c ≠ '+' && c ≠ '-')) rest

/-- A fractional number. -/
def isFractional (t : Text) : Bool :=
  let body := dropWidth t
  Text.isOneOf (Numeral.splitSign body).2 ["inf", "NaN"] ||
    (body.all (fun c => c.isDigit || c ∈ ['e', 'E', '.', '+', '-', '_']) &&
      underscoresFollow false body && (Numeral.read (body.filter (· ≠ '_'))).isSome)

/-- A number. -/
def isNumber (t : Text) : Bool := isWhole t || isFractional t

end Stored
end PocketCalculator
