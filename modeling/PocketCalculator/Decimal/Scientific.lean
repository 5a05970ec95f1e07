/-
# Decimal digits of a value

A non-zero magnitude is written with decimal digits `d₁ d₂ … dₖ` and an exponent `e`, which stand
for `d₁.d₂…dₖ · 10 ^ e` with `d₁ ≠ 0`. Two choices of digits are made here:

| choice | digits |
| --- | --- |
| `shortest` | the fewest that read back to the same value; of the candidates with so few digits the nearest, of two equally near the greater |
| `rounded p` | exactly `p`, the nearest, of two equally near the one with an even last digit |

Digits are chosen by exact arithmetic on the units of the magnitude. For each count of digits only
two decimals need to be tried, the neighbours of the value on the grid of that many digits.
-/

import PocketCalculator.Binary64.Rounding

namespace PocketCalculator

/-- `d₁.d₂…dₖ · 10 ^ exponent`, by its digit characters. -/
structure Scientific where
  digits : Text
  exponent : Int
  deriving DecidableEq

namespace Scientific

/-- The decimal digits of `coefficient · 10 ^ exponent`, without final zeros. -/
def ofScaled (coefficient : Nat) (exponent : Int) : Scientific :=
  let digits := Text.ofNat coefficient
  ⟨digits.dropTrailing (· == '0'), exponent + digits.length - 1⟩

/-- The exponent `e` with `10 ^ e ≤ num / den < 10 ^ (e + 1)`, for a non-zero quotient. -/
def leadingExponent (num den : Nat) : Int :=
  if den ≤ num then (Text.ofNat (num / den)).length - 1
  else -(Text.ofNat ((den - 1) / num)).length

/-- The quotient `num / den` divided by `10 ^ exponent`, as a numerator and a denominator. -/
def scale (num den : Nat) (exponent : Int) : Nat × Nat :=
  if exponent < 0 then (num * Nat.pow 10 (-exponent).toNat, den)
  else (num, den * Nat.pow 10 exponent.toNat)

/-- The decimal of `count` digits that is nearest to a magnitude among those that read back as it.
Only the two neighbours on the grid of `count` digits can be. -/
def candidate (m : Binary64.Magnitude) (count : Nat) : Option Scientific :=
  let exponent := leadingExponent m.units Binary64.unitsOfOne - count + 1
  let (num, den) := scale m.units Binary64.unitsOfOne exponent
  let low := num / den
  let readsBack (coefficient : Nat) : Bool :=
    Binary64.ofDecimal false coefficient exponent == .finite false m
  if readsBack low ∧ (2 * num < (2 * low + 1) * den ∨ ¬ readsBack (low + 1)) then
    some (ofScaled low exponent)
  else if readsBack (low + 1) then some (ofScaled (low + 1) exponent)
  else none

/-- The exact decimal expansion of a magnitude. -/
def exact (m : Binary64.Magnitude) : Scientific :=
  ofScaled (m.units * Nat.pow 5 Binary64.places) (-Binary64.places)

/-- The fewest digits that read back as a non-zero magnitude. Seventeen always suffice. -/
def shortest (m : Binary64.Magnitude) : Scientific :=
  ((List.range 17).findSome? fun i => candidate m (i + 1)).getD (exact m)

/-- The `count` digits nearest to a non-zero magnitude. Rounding may carry into a new leading digit;
the last of the zeros behind it is then left out. -/
def rounded (count : Nat) (m : Binary64.Magnitude) : Scientific :=
  let exponent := leadingExponent m.units Binary64.unitsOfOne - count + 1
  let (num, den) := scale m.units Binary64.unitsOfOne exponent
  let digits := Text.ofNat (roundHalfEven num den)
  ⟨digits.take count, exponent + digits.length - 1⟩

/-- The exponential form `d.ddde±n`: no point behind a single digit, and always a sign. -/
def exponential (s : Scientific) : Text :=
  let fraction := if s.digits.length ≤ 1 then [] else '.' :: s.digits.drop 1
  let sign := if s.exponent < 0 then '-' else '+'
  s.digits.take 1 ++ fraction ++ 'e' :: sign :: Text.ofNat s.exponent.natAbs

/-- The positional form: digits with a point, and zeros where digits are missing before it. -/
def positional (s : Scientific) : Text :=
  if s.exponent < 0 then
    '0' :: '.' :: List.replicate (-s.exponent - 1).toNat '0' ++ s.digits
  else
    let whole := s.exponent.toNat + 1
    if s.digits.length ≤ whole then
      s.digits ++ List.replicate (whole - s.digits.length) '0'
    else
      s.digits.take whole ++ '.' :: s.digits.drop whole

/-- Positional from an exponent of `-6` and below the given one, exponential otherwise. -/
def layout (positionalBelow : Int) (s : Scientific) : Text :=
  if -6 ≤ s.exponent ∧ s.exponent < positionalBelow then s.positional else s.exponential

end Scientific
end PocketCalculator
