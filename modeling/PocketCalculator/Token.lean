/-
# Tokens of an expression

An expression is read from left to right into numerals and operators.

- Digits and points gather into a numeral, which holds at most one point.
- A minus where a numeral may start, at the beginning or after an operator, is its sign.
- Any other operator ends a numeral, which must be more than a lone sign.
- All other characters are passed over, also inside a numeral.

A numeral keeps its text, and is read as a value only when it is used.
-/

import PocketCalculator.EvalError
import PocketCalculator.Operator

namespace PocketCalculator

/-- A numeral, by its text, or an operator. -/
inductive Token where
  | numeral (text : Text)
  | operator (op : Operator)
  deriving DecidableEq

namespace Token

/-- The text of a token. -/
def text : Token → Text
  | .numeral t => t
  | .operator op => op.text

/-- The texts of tokens, one space between neighbours. -/
def joined (tokens : List Token) : Text := Text.unwords (tokens.map text)

/-- The tokens of a text, after the characters in `pending` have begun a numeral. The numeral is
empty just where a sign may stand. -/
def scanFrom (pending : Text) : Text → Except EvalError (List Token)
  | [] =>
    if pending = [] then .ok []
    else if pending = ['-'] then .error .malformedNumeral
    else .ok [.numeral pending]
  | c :: rest =>
    if c.isDigit then scanFrom (pending ++ [c]) rest
    else if c = '.' then
      if '.' ∈ pending then .error .malformedNumeral else scanFrom (pending ++ [c]) rest
    else
      match Operator.ofChar? c with
      | none => scanFrom pending rest
      | some op =>
        if pending = [] ∧ op = .minus then scanFrom ['-'] rest
        else if pending = [] ∨ pending = ['-'] then .error .malformedNumeral
        else (scanFrom [] rest).map (.numeral pending :: .operator op :: ·)

/-- The tokens of an expression. -/
def scan (expression : Text) : Except EvalError (List Token) := scanFrom [] expression

end Token
end PocketCalculator
