/-
# A session

The state of the calculator between two keys, and what each key does to it.

| part | meaning |
| --- | --- |
| `expression` | the text that is being typed |
| `failed` | the display shows an error until the next key |
| `evaluated` | the expression is a result, and a digit starts anew |
| `memory` | the number that the memory keys act on; always finite unless it is set from outside |
| `history`, `preferences` | what outlives the session |

In the error state the expression is empty. A key that enters something leaves that state first; the
equals key and the keys that need a current value do nothing in it. The second line of the display
previews the value of the expression without the operators at its end, which is also what the equals
key commits and what the memory keys use.
-/

import PocketCalculator.Edit
import PocketCalculator.History
import PocketCalculator.Preferences

namespace PocketCalculator

/-- The state of the calculator between two keys. -/
structure Session where
  expression : Text
  failed : Bool
  evaluated : Bool
  memory : Binary64
  history : History
  preferences : Preferences
  deriving DecidableEq

namespace Session

/-- A session at its start, with what was kept from earlier ones. -/
def new (history : History) (preferences : Preferences) : Session :=
  ⟨[], false, false, 0, history, preferences⟩

/-- The clear key: no expression and no error, all else kept. -/
def clear (s : Session) : Session := { s with expression := [], failed := false, evaluated := false }

/-- A session that has left the error state. -/
def leaveError (s : Session) : Session := if s.failed then s.clear else s

/-- A session that has entered the error state. -/
def showError (s : Session) : Session :=
  { s with expression := [], failed := true, evaluated := false }

/-- The expression without the operators at its end. -/
def preview (s : Session) : Text := Edit.preview s.expression

/-- A digit key. It replaces a result and a single zero, and is appended otherwise. -/
def digit (c : Char) (s : Session) : Session :=
  if c.isDigit then
    let s := s.leaveError
    if s.evaluated ∨ s.expression = ['0'] then { s with expression := [c], evaluated := false }
    else { s with expression := s.expression ++ [c] }
  else s

/-- The point key. It starts a numeral with `0.` where none is being typed, and does nothing if the
last numeral has a point already. -/
def point (s : Session) : Session :=
  let s := s.leaveError
  if s.evaluated then { s with expression := ['0', '.'], evaluated := false }
  else if s.expression.getLast?.all isOperator then
    { s with expression := s.expression ++ ['0', '.'] }
  else if '.' ∈ Edit.lastNumeral s.expression then s
  else { s with expression := s.expression ++ ['.'] }

/-- An operator key. Only a minus can come first. Behind an operator a minus is a sign, written once,
and any other operator replaces all the operators there. -/
def operator (op : Operator) (s : Session) : Session :=
  let s := s.leaveError
  if s.expression = [] ∧ op ≠ .minus then s
  else
    let s := { s with evaluated := false }
    if s.expression.getLast?.any isOperator then
      if op = .minus then
        if s.expression.getLast? = some '-' then s
        else { s with expression := s.expression ++ [op.symbol] }
      else if s.preview = [] then { s with expression := [] }
      else { s with expression := s.preview ++ [op.symbol] }
    else { s with expression := s.expression ++ [op.symbol] }

/-- The equals key. The value of the preview becomes the expression and, with the preview, the most
recent entry of the history; a division by zero is an error; anything else is ignored. -/
def equals (s : Session) : Session :=
  if s.failed ∨ s.preview = [] then s
  else
    match Outcome.ofExpression s.preview with
    | .invalid => s
    | .divisionByZero => s.showError
    | .success v =>
      let result := Display.text v
      { s with
        expression := result
        evaluated := true
        history := s.history.push ⟨s.preview, result⟩ }

/-- The delete key takes the last character away, or leaves the error state. -/
def delete (s : Session) : Session :=
  if s.failed then s.clear
  else if s.expression = [] then s
  else { s with expression := s.expression.dropLast, evaluated := false }

/-- A function key, applied to the last numeral. -/
def function (f : UnaryFunction) (s : Session) : Session :=
  let s := s.leaveError
  match Edit.applyFunction (f.apply s.preferences.angle) s.expression with
  | .ok applied => { s with expression := applied.expression }
  | .error _ => s.showError

/-- A value inserted as a literal. It replaces a result. -/
def insert (v : Binary64) (s : Session) : Session :=
  let s := s.leaveError
  let base := if s.evaluated then [] else s.expression
  { s with expression := Edit.insertLiteral base v, evaluated := false }

/-- The key of the angle's unit. -/
def toggleAngle (s : Session) : Session :=
  { s with preferences := { s.preferences with angle := s.preferences.angle.toggle } }

/-- The value of the preview, if it has one. -/
def currentValue? (s : Session) : Option Binary64 :=
  if s.failed then none else (Outcome.ofExpression s.preview).value?

/-- The session with a number in its memory, unless that is not finite. -/
def memorize (v : Binary64) (s : Session) : Session := if v.isFinite then { s with memory := v } else s

/-- The key that adds the current value to the memory. -/
def memoryAdd (s : Session) : Session :=
  match s.currentValue? with
  | some v => s.memorize (s.memory + v)
  | none => s

/-- The key that takes the current value from the memory. -/
def memorySubtract (s : Session) : Session :=
  match s.currentValue? with
  | some v => s.memorize (s.memory - v)
  | none => s

/-- Whether the memory holds anything but a zero. -/
def memoryActive (s : Session) : Bool := !s.memory.isZero

/-- The result of an entry of the history as the expression. -/
def reuse (i : Nat) (s : Session) : Session :=
  match s.history.get? i with
  | some e => { s with expression := e.result, failed := false, evaluated := true }
  | none => s

/-- The first line of the display. -/
def expressionLine (s : Session) : Text :=
  if s.failed then Display.errorText
  else if s.expression = [] then ['0']
  else s.expression

/-- The second line of the display: the value of the preview, `0` while there is none. -/
def resultLine (s : Session) : Text :=
  if s.failed then Display.errorText
  else if s.preview = [] then ['0']
  else
    match Outcome.ofExpression s.preview with
    | .invalid => ['0']
    | .divisionByZero => Display.errorText
    | .success v => Display.text v

/-- The operator key that is marked, because it waits for its right operand. -/
def activeOperator (s : Session) : Option Operator :=
  if s.failed then none else Edit.trailingOperator s.expression

end Session
end PocketCalculator
