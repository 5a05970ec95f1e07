/-
# The screen

What is to be seen from top to bottom, and what a click does.

| part | texts | buttons |
| --- | --- | --- |
| display | the expression and the result | |
| angle and memory | `M` if the memory is active | the unit of angles |
| functions | | the functions and the constants |
| memory | | `MC MR M+ M-` |
| keypad | | five rows of four |
| history | `Aucun calcul` if it is empty | its header, an entry each, a button to clear it |

The header opens and closes the history. That is remembered by the text of the header, which counts
the entries, so a history that was closed at one count can be open at another.
-/

import PocketCalculator.Keys

namespace PocketCalculator

/-- The screen of a session, with the headers under which the history is closed. -/
structure Screen where
  session : Session
  closed : List Text
  deriving DecidableEq

/-- What a click on a button does. -/
inductive Effect where
  | action (a : Action)
  | toggleHistory
  deriving DecidableEq

/-- A button with its label. -/
structure Button where
  label : Text
  effect : Effect
  deriving DecidableEq

namespace Button

/-- A button that performs an action. -/
def ofAction (label : String) (a : Action) : Button := ⟨label.toList, .action a⟩

/-- The button of a digit. -/
def ofDigit (c : Char) : Button := ⟨[c], .action (.digit c)⟩

/-- The button of an operator. -/
def ofOperator (op : Operator) : Button := ⟨op.text, .action (.operator op)⟩

/-- The button of a function. -/
def ofFunction (f : UnaryFunction) : Button := ⟨f.label, .action (.function f)⟩

/-- The button of a constant. -/
def ofConstant (c : Constant) : Button := ⟨c.label, .action (.constant c)⟩

/-- The buttons of the functions and constants. -/
def functions : List Button := UnaryFunction.all.map ofFunction ++ Constant.all.map ofConstant

/-- The buttons of the memory. -/
def memory : List Button :=
  [ofAction "MC" .memoryClear, ofAction "MR" .memoryRecall, ofAction "M+" .memoryAdd,
    ofAction "M-" .memorySubtract]

/-- The buttons of the keypad, row by row. -/
def keypad : List Button :=
  [ofAction "C" .clear, ofAction "⌫" .delete, ofFunction .percent, ofOperator .divide,
    ofDigit '7', ofDigit '8', ofDigit '9', ofOperator .times,
    ofDigit '4', ofDigit '5', ofDigit '6', ofOperator .minus,
    ofDigit '1', ofDigit '2', ofDigit '3', ofOperator .plus,
    ofFunction .opposite, ofDigit '0', ofAction "." .point, ofAction "=" .equals]

/-- The button of an entry of the history, which takes its result up again. -/
def ofEntry (e : Entry) (i : Nat) : Button :=
  ⟨e.expression ++ " = ".toList ++ e.result, .action (.reuse i)⟩

end Button

namespace Screen

/-- The screen of a session at its start. -/
def new (s : Session) : Screen := ⟨s, []⟩

/-- The header of the history. -/
def header (v : Screen) : Text :=
  "Historique (".toList ++ Text.ofNat v.session.history.size ++ [')']

/-- Whether the history is open. -/
def isOpen (v : Screen) : Bool := !v.closed.contains v.header

/-- The texts on the screen. -/
def texts (v : Screen) : List Text :=
  [v.session.expressionLine, v.session.resultLine] ++
    (if v.session.memoryActive then [['M']] else []) ++
    (if v.isOpen ∧ v.session.history.isEmpty then ["Aucun calcul".toList] else [])

/-- The buttons of an open history. -/
def historyButtons (h : History) : List Button :=
  if h.isEmpty then []
  else h.entries.mapIdx (fun i e => .ofEntry e i) ++ [.ofAction "Vider l’historique" .clearHistory]

/-- The buttons on the screen. -/
def buttons (v : Screen) : List Button :=
  ⟨v.session.preferences.angle.label, .action .toggleAngle⟩ ::
    Button.functions ++ Button.memory ++ Button.keypad ++
    ⟨v.header, .toggleHistory⟩ ::
    (if v.isOpen then historyButtons v.session.history else [])

/-- The screen after a click on a button. -/
def press (v : Screen) (b : Button) : Screen :=
  match b.effect with
  | .action a => { v with session := v.session.apply a }
  | .toggleHistory =>
    if v.isOpen then { v with closed := v.header :: v.closed }
    else { v with closed := v.closed.filter (· ≠ v.header) }

/-- The button of a label, by its position among those of that label. -/
def button? (v : Screen) (label : Text) (position : Nat) : Option Button :=
  (v.buttons.filter (·.label = label))[position]?

/-- The screen after a click on the button of a label, if there is one. -/
def click? (v : Screen) (label : Text) (position : Nat) : Option Screen :=
  (v.button? label position).map v.press

/-- The screen after the events of a keyboard. -/
def readKeyboard (v : Screen) (events : List KeyboardEvent) : Screen :=
  { v with session := v.session.readKeyboard events }

end Screen
end PocketCalculator
