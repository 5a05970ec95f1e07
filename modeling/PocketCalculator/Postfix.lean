/-
# Postfix order and its reduction

`ofInfix` moves every operator behind its operands: an operator waits on a stack until one that
binds no tighter arrives, so operators of one precedence are applied from left to right. It is
defined for every list of tokens, also for one that no expression gives.

`reduce` reads a postfix list with a stack of values: a numeral puts its value on the stack, an
operator replaces the two topmost values, the upper one being its right operand. At the end exactly
one value must be left, and it must be finite.
-/

import PocketCalculator.Binary64.Arithmetic
import PocketCalculator.Decimal.Numeral
import PocketCalculator.Token

namespace PocketCalculator

/-- The value of an operator at two operands. -/
def Operator.apply (op : Operator) (a b : Binary64) : Except EvalError Binary64 :=
  match op with
  | .plus => .ok (a + b)
  | .minus => .ok (a - b)
  | .times => .ok (a * b)
  | .divide => if b.isZero then .error (.divisionByZero a) else .ok (a / b)

namespace Postfix

/-- The tokens in postfix order, while the operators of `waiting` stand on the stack, topmost
first. -/
def ofInfixFrom (waiting : List Operator) : List Token → List Token
  | [] => waiting.map .operator
  | .numeral t :: rest => .numeral t :: ofInfixFrom waiting rest
  | .operator op :: rest =>
    let released (top : Operator) : Bool := op.precedence ≤ top.precedence
    (waiting.takeWhile released).map .operator ++
      ofInfixFrom (op :: waiting.dropWhile released) rest

/-- The tokens of an expression in postfix order. -/
def ofInfix (tokens : List Token) : List Token := ofInfixFrom [] tokens

/-- The stack after one token. -/
def step (stack : List Binary64) : Token → Except EvalError (List Binary64)
  | .numeral t =>
    match Numeral.read t with
    | some v => .ok (v :: stack)
    | none => .error .malformedNumeral
  | .operator op =>
    match stack with
    | b :: a :: rest => (op.apply a b).map (· :: rest)
    | _ => .error .missingOperand

/-- The result that the final stack holds. -/
def conclude : List Binary64 → Except EvalError Binary64
  | [] => .error .emptyExpression
  | [v] => if v.isFinite then .ok v else .error .nonFiniteResult
  | _ => .error .missingOperand

/-- The value of a postfix list. -/
def reduce (tokens : List Token) : Except EvalError Binary64 := do
  conclude (← tokens.foldlM step [])

end Postfix
end PocketCalculator
