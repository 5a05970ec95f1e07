/-
# Hexadecimal digits

Written in lower case, read in either case.
-/

import PocketCalculator.Text

namespace PocketCalculator
namespace Hexadecimal

/-- The digit of a number below sixteen. -/
def digit (n : Nat) : Char := Nat.digitChar n

/-- The digits of a number, without leading zeros. -/
def ofNat (n : Nat) : Text := Nat.toDigits 16 n

/-- The number that a digit stands for. -/
def value? (c : Char) : Option Nat :=
  if c.isDigit then some (c.toNat - '0'.toNat)
  else if 'a' ≤ c ∧ c ≤ 'f' then some (c.toNat - 'a'.toNat + 10)
  else if 'A' ≤ c ∧ c ≤ 'F' then some (c.toNat - 'A'.toNat + 10)
  else none

end Hexadecimal
end PocketCalculator
