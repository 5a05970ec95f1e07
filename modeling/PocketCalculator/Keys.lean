/-
# Keys

Everything a user can do to a session is an `Action`. The keypad on the screen gives actions
directly; the keyboard gives characters and a few named keys:

| keyboard | action |
| --- | --- |
| `0` … `9`, `.`, `+`, `-`, `*`, `/` | the key of that label |
| `=`, Enter | equals |
| Backspace | delete |
| Delete, Escape | clear |

Other characters and keys are not the calculator's, and the release of a key does nothing.
-/

import PocketCalculator.Session

namespace PocketCalculator

/-- What a user can do to a session. -/
inductive Action where
  | digit (c : Char)
  | point
  | operator (op : Operator)
  | equals
  | clear
  | delete
  | function (f : UnaryFunction)
  | constant (c : Constant)
  | toggleAngle
  | memoryAdd
  | memorySubtract
  | memoryRecall
  | memoryClear
  | reuse (i : Nat)
  | clearHistory
  deriving DecidableEq

/-- The session after an action. -/
def Session.apply (s : Session) : Action → Session
  | .digit c => s.digit c
  | .point => s.point
  | .operator op => s.operator op
  | .equals => s.equals
  | .clear => s.clear
  | .delete => s.delete
  | .function f => s.function f
  | .constant c => s.insert c.value
  | .toggleAngle => s.toggleAngle
  | .memoryAdd => s.memoryAdd
  | .memorySubtract => s.memorySubtract
  | .memoryRecall => s.insert s.memory
  | .memoryClear => { s with memory := 0 }
  | .reuse i => s.reuse i
  | .clearHistory => { s with history := .empty }

/-- The session after several actions, in their order. -/
def Session.run (s : Session) (actions : List Action) : Session := actions.foldl Session.apply s

/-- The action of a character that is typed. -/
def Action.ofChar? (c : Char) : Option Action :=
  if c.isDigit then some (.digit c)
  else if c = '.' then some .point
  else if c = '=' then some .equals
  else (Operator.ofChar? c).map .operator

/-- The keys of a keyboard that have no character. -/
inductive Key where
  | enter
  | backspace
  | delete
  | escape
  /-- Any key without a meaning here. -/
  | other
  deriving DecidableEq

/-- The action of a key. -/
def Key.action? : Key → Option Action
  | .enter => some .equals
  | .backspace => some .delete
  | .delete | .escape => some .clear
  | .other => none

/-- What a keyboard reports. -/
inductive KeyboardEvent where
  /-- Characters that were typed. -/
  | text (t : Text)
  /-- A key that was pressed or released. -/
  | key (k : Key) (pressed : Bool)
  /-- An event that no key caused. -/
  | other
  deriving DecidableEq

/-- The actions that an event asks for, in their order. -/
def KeyboardEvent.actions : KeyboardEvent → List Action
  | .text t => t.filterMap Action.ofChar?
  | .key k true => k.action?.toList
  | .key _ false | .other => []

/-- The session after the events of a keyboard. -/
def Session.readKeyboard (s : Session) (events : List KeyboardEvent) : Session :=
  s.run (events.flatMap KeyboardEvent.actions)

end PocketCalculator
