/-
# Editing an expression at its end

Keys act on the end of the expression. Its last numeral is the longest suffix made of an optional
minus, digits and an optional point among them, whether that minus is a sign or a subtraction; it
may be empty.

| key | effect |
| --- | --- |
| a constant, the memory | appended, behind a `*` if a digit or a point stands last |
| a function | the last numeral is replaced by the function's value at it |
-/

import PocketCalculator.Display
import PocketCalculator.Evaluation

namespace PocketCalculator
namespace Edit

/-- The expression without the operators at its end. -/
def preview (expression : Text) : Text := expression.dropTrailing isOperator

/-- The longest beginning of a reversed text that is a reversed numeral. -/
def reversedNumeral (t : Text) : Text :=
  let digits := t.takeWhile Char.isDigit
  let (body, rest) :=
    match t.dropWhile Char.isDigit with
    | '.' :: r => (digits ++ '.' :: r.takeWhile Char.isDigit, r.dropWhile Char.isDigit)
    | r => (digits, r)
  if rest.head? = some '-' then body ++ ['-'] else body

/-- The last numeral of an expression. -/
def lastNumeral (expression : Text) : Text := (reversedNumeral expression.reverse).reverse

/-- The operator that waits for its right operand. A minus that stands alone or behind another
operator is a sign, and none. -/
def trailingOperator (expression : Text) : Option Operator :=
  match expression.reverse with
  | [] => none
  | c :: before =>
    match Operator.ofChar? c with
    | some .minus => if before.head?.all isOperator then none else some .minus
    | op => op

/-- The expression with another text in place of its last numeral, or that text alone if the last
numeral is empty. -/
def replaceLastNumeral (expression replacement : Text) : Text :=
  let numeral := lastNumeral expression
  if numeral = [] then replacement
  else expression.take (expression.length - numeral.length) ++ replacement

/-- The expression with a value appended, multiplied to a numeral that stands last. -/
def insertLiteral (expression : Text) (value : Binary64) : Text :=
  let literal := Display.text value
  match expression.getLast? with
  | some c => if c.isDigit ∨ c = '.' then expression ++ '*' :: literal else expression ++ literal
  | none => literal

/-- A last numeral that a function is applied to: more than a lone minus or a lone point. -/
def isOperand : Text → Bool
  | [] | ['-'] | ['.'] => false
  | _ => true

/-- The new expression and the value of a function applied to an expression. -/
structure Applied where
  expression : Text
  value : Binary64
  deriving DecidableEq

/-- A function applied to the last numeral, or to zero if there is none. -/
def applyFunction (f : Binary64 → Binary64) (expression : Text) : Except EvalError Applied :=
  let numeral := lastNumeral expression
  match if isOperand numeral then Numeral.read numeral else some 0 with
  | none => .error .invalidResult
  | some operand =>
    let value := f operand
    if value.isFinite then
      let literal := Display.text value
      .ok ⟨if isOperand numeral then replaceLastNumeral expression literal else literal, value⟩
    else .error .invalidResult

end Edit
end PocketCalculator
