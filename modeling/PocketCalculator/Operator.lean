/-
# The binary operators

| operator | character | precedence |
| --- | --- | ---: |
| `plus` | `+` | 1 |
| `minus` | `-` | 1 |
| `times` | `*` | 2 |
| `divide` | `/` | 2 |

The minus character is also the sign of a numeral; which of the two it is depends on what stands
before it.
-/

import PocketCalculator.Text

namespace PocketCalculator

/-- The four operators of the keypad. -/
inductive Operator where
  | plus
  | minus
  | times
  | divide
  deriving DecidableEq, Repr

namespace Operator

/-- The operator that a character stands for. -/
def ofChar? : Char → Option Operator
  | '+' => some .plus
  | '-' => some .minus
  | '*' => some .times
  | '/' => some .divide
  | _ => none

/-- The character of an operator. -/
def symbol : Operator → Char
  | .plus => '+'
  | .minus => '-'
  | .times => '*'
  | .divide => '/'

/-- How tightly an operator binds. -/
def precedence : Operator → Nat
  | .plus | .minus => 1
  | .times | .divide => 2

/-- The operator as a text. -/
def text (op : Operator) : Text := [op.symbol]

/-- The symbol of an operator is read as that operator. -/
theorem ofChar?_symbol (op : Operator) : ofChar? op.symbol = some op := by
  cases op <;> rfl

/-- Only its symbol is read as an operator. -/
theorem symbol_of_ofChar? {c : Char} {op : Operator} (h : ofChar? c = some op) : c = op.symbol := by
  unfold ofChar? at h
  split at h <;> cases h <;> rfl

end Operator

/-- One of `+ - * /`. -/
def isOperator (c : Char) : Bool := (Operator.ofChar? c).isSome

end PocketCalculator
