/-
# Written forms of the history and the preferences

| value | written |
| --- | --- |
| an entry | a record of `expression` and `result`, both quoted |
| a history | the list of its entries, the most recent first |
| the preferences | a record of `mode_angle`, one of the choices `Degres` and `Radians` |

Writing sets no blank and no needless comma, and no name in front of a record. Reading takes the
fields in any order and passes over fields of other names; a field that is given twice is refused, as
is an entry with a field missing. The preferences may lack their field and have the standard angle
then. Nothing is read in part.
-/

import PocketCalculator.Data.Reader
import PocketCalculator.Data.Writer
import PocketCalculator.History
import PocketCalculator.Preferences

namespace PocketCalculator

open Data (Dialect)

namespace Entry

/-- The name that the record of an entry can have. -/
def recordName : Text := "EntreeHistorique".toList

/-- The label of the expression of an entry. -/
def expressionLabel : Text := "expression".toList

/-- The label of the result of an entry. -/
def resultLabel : Text := "result".toList

/-- An entry, written. -/
def write (d : Dialect) (e : Entry) : Text :=
  Data.writeRecord d
    [(expressionLabel, Data.writeQuoted d e.expression), (resultLabel, Data.writeQuoted d e.result)]

/-- The entry that a value is. -/
def ofData? (d : Dialect) : Data → Option Entry
  | .list [expression, result] =>
    if d.recordsAsLists then do return ⟨← expression.text?, ← result.text?⟩ else none
  | data => do
    let fields ← data.fields? d recordName
    let expression ← ← Data.field? expressionLabel fields
    let result ← ← Data.field? resultLabel fields
    return ⟨← expression.text?, ← result.text?⟩

end Entry

namespace History

/-- A history, written. -/
def write (d : Dialect) (h : History) : Text := Data.writeList (h.entries.map (Entry.write d))

/-- The history that a value is. -/
def ofData? (d : Dialect) : Data → Option History
  | .list items => (items.mapM (Entry.ofData? d)).map .mk
  | _ => none

/-- The history that a text holds. -/
def read? (d : Dialect) (t : Text) : Option History := do
  let (d, data) ← Data.read d t
  ofData? d data

end History

namespace AngleMode

/-- The name of a unit in written preferences. -/
def name : AngleMode → Text
  | .degrees => "Degres".toList
  | .radians => "Radians".toList

/-- The unit of a name. -/
def ofName? (t : Text) : Option AngleMode :=
  if t = name .degrees then some .degrees
  else if t = name .radians then some .radians
  else none

end AngleMode

namespace Preferences

/-- The name that the record of the preferences can have. -/
def recordName : Text := "Preferences".toList

/-- The label of the angle. -/
def angleLabel : Text := "mode_angle".toList

/-- Preferences, written. -/
def write (d : Dialect) (p : Preferences) : Text :=
  Data.writeRecord d [(angleLabel, Data.writeChoice d p.angle.name)]

/-- The preferences of an angle that may have been given. -/
def ofAngle? (d : Dialect) : Option Data → Option Preferences
  | none => some .standard
  | some v => do return ⟨← AngleMode.ofName? (← Data.choice? d v)⟩

/-- The preferences that a value is. -/
def ofData? (d : Dialect) : Data → Option Preferences
  | .list [] => if d.recordsAsLists then ofAngle? d none else none
  | .list [angle] => if d.recordsAsLists then ofAngle? d (some angle) else none
  | data => do ofAngle? d (← Data.field? angleLabel (← data.fields? d recordName))

/-- The preferences that a text holds. -/
def read? (d : Dialect) (t : Text) : Option Preferences := do
  let (d, data) ← Data.read d t
  ofData? d data

end Preferences
end PocketCalculator
