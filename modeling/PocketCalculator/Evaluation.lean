/-
# Evaluation of an expression

An expression is read into tokens, checked not to be empty and not to end in an operator, brought
into postfix order and reduced. The keys and the display need only the `Outcome`: a value, a
division by zero, or nothing that can be evaluated yet.
-/

import PocketCalculator.Postfix

namespace PocketCalculator
namespace Evaluation

/-- The tokens of an expression that is not empty and ends in a numeral. -/
def completeTokens (expression : Text) : Except EvalError (List Token) := do
  let tokens ← Token.scan expression
  match tokens.getLast? with
  | none => .error .emptyExpression
  | some (.operator _) => .error .trailingOperator
  | some (.numeral _) => .ok tokens

/-- The value of an expression. -/
def evaluate (expression : Text) : Except EvalError Binary64 := do
  Postfix.reduce (Postfix.ofInfix (← completeTokens expression))

end Evaluation

/-- What the evaluation of an expression means for the keys and the display. -/
inductive Outcome where
  /-- No value, and nothing wrong to be reported. -/
  | invalid
  /-- A well-formed expression that divides by zero. -/
  | divisionByZero
  /-- A finite value. -/
  | success (value : Binary64)
  deriving DecidableEq

namespace Outcome

/-- The outcome of an evaluation. -/
def ofResult : Except EvalError Binary64 → Outcome
  | .ok v => .success v
  | .error (.divisionByZero _) => .divisionByZero
  | .error _ => .invalid

/-- The outcome of evaluating an expression. -/
def ofExpression (expression : Text) : Outcome := ofResult (Evaluation.evaluate expression)

/-- A value or a division by zero. -/
def isValid : Outcome → Bool
  | .invalid => false
  | _ => true

/-- The value of a success. -/
def value? : Outcome → Option Binary64
  | .success v => some v
  | _ => none

end Outcome
end PocketCalculator
