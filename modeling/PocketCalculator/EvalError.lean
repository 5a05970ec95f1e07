/-
# Why an expression has no value

Each cause has one message, shown and logged in the calculator's language.
-/

import PocketCalculator.Binary64.Basic

namespace PocketCalculator

/-- A reason for which an expression has no value. -/
inductive EvalError where
  /-- A numeral with two points or without a digit, or an operator without a left operand. -/
  | malformedNumeral
  /-- Nothing to evaluate. -/
  | emptyExpression
  /-- The expression ends in an operator. -/
  | trailingOperator
  /-- A postfix list with too few operands, or with operands left over. -/
  | missingOperand
  /-- A division by a zero of either sign, with the number that was to be divided. -/
  | divisionByZero (dividend : Binary64)
  /-- The value of the expression is infinite or `nan`. -/
  | nonFiniteResult
  /-- A function has no finite value at its operand. -/
  | invalidResult
  deriving DecidableEq

/-- The message of an error. -/
def EvalError.message : EvalError → Text
  | .malformedNumeral => "nombre mal formé".toList
  | .emptyExpression => "expression vide".toList
  | .trailingOperator => "opérateur sans opérande droit".toList
  | .missingOperand => "opérandes insuffisants".toList
  | .divisionByZero _ => "division par zéro".toList
  | .nonFiniteResult => "résultat non fini".toList
  | .invalidResult => "résultat invalide".toList

end PocketCalculator
