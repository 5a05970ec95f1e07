/-
# The journal

What the calculator reports of its work while it runs. The journal changes nothing: the events of an
action depend on the session before it.

| event | reported |
| --- | --- |
| `restored`, `saved` | when a session starts, and when it is saved |
| `converted` | whenever an expression gets past its tokens, with its postfix form |
| `zeroDivisor` | whenever a division by zero ends a reduction |
| `evaluated`, `ignored` | when the equals key has a result, and when it has nothing to evaluate |
| `failed` | when the error state is entered |
-/

import PocketCalculator.Keys
import PocketCalculator.Storage

namespace PocketCalculator

/-- How much an event matters. -/
inductive Level where
  | trace
  | debug
  | warning
  deriving DecidableEq

/-- Something the calculator reports. -/
inductive Event where
  /-- A session started with a history of so many entries, before it was bounded. -/
  | restored (entries : Nat) (angle : AngleMode)
  /-- A history of so many entries was saved. -/
  | saved (entries : Nat)
  /-- An expression was brought into postfix order. -/
  | converted (tokens : List Token)
  /-- A number was to be divided by zero. -/
  | zeroDivisor (dividend : Binary64)
  /-- An expression was evaluated to a result. -/
  | evaluated (expression result : Text)
  /-- An expression could not be evaluated, and nothing was done. -/
  | ignored (expression : Text)
  /-- The error state was entered, with this expression. -/
  | failed (expression : Text) (cause : EvalError)
  deriving DecidableEq

namespace Event

/-- How much an event matters. -/
def level : Event → Level
  | .restored .. | .evaluated .. | .ignored .. => .debug
  | .saved .. | .converted .. | .zeroDivisor .. => .trace
  | .failed .. => .warning

/-- The message of an event. -/
def message : Event → Text
  | .restored .. => "état restauré".toList
  | .saved .. => "historique sauvegardé".toList
  | .converted .. => "rpn".toList
  | .zeroDivisor .. => "division par zéro".toList
  | .evaluated .. => "évaluation".toList
  | .ignored .. => "expression invalide, ignorée".toList
  | .failed .. => "état d’erreur".toList

/-- The events of an evaluation. -/
def ofEvaluation (expression : Text) : List Event :=
  match Evaluation.completeTokens expression with
  | .error _ => []
  | .ok tokens =>
    .converted (Postfix.ofInfix tokens) ::
      match Postfix.reduce (Postfix.ofInfix tokens) with
      | .error (.divisionByZero dividend) => [.zeroDivisor dividend]
      | _ => []

end Event

namespace Session

/-- The events of the equals key. -/
def equalsEvents (s : Session) : List Event :=
  if s.failed ∨ s.preview = [] then []
  else
    Event.ofEvaluation s.preview ++
      match Evaluation.evaluate s.preview with
      | .ok v => [.evaluated s.preview (Display.text v)]
      | .error (.divisionByZero dividend) => [.failed s.expression (.divisionByZero dividend)]
      | .error _ => [.ignored s.preview]

/-- The events of a key that needs the current value. -/
def currentValueEvents (s : Session) : List Event :=
  if s.failed then [] else Event.ofEvaluation s.preview

/-- The events of a function key. -/
def functionEvents (f : UnaryFunction) (s : Session) : List Event :=
  let s := s.leaveError
  match Edit.applyFunction (f.apply s.preferences.angle) s.expression with
  | .ok _ => []
  | .error cause => [.failed s.expression cause]

/-- The events of an action. -/
def events (s : Session) : Action → List Event
  | .equals => s.equalsEvents
  | .memoryAdd | .memorySubtract => s.currentValueEvents
  | .function f => s.functionEvents f
  | _ => []

/-- The events of saving a session. -/
def saveEvents (s : Session) : List Event := [.saved s.history.size]

/-- The events of starting a session with what is kept. -/
def restoreEvents (storage : Storage) : List Event :=
  [.restored storage.readHistory.size storage.readPreferences.angle]

/-- The events of saving a session and starting it again. -/
def reloadEvents (s : Session) : List Event := s.saveEvents ++ restoreEvents s.save

end Session
end PocketCalculator
