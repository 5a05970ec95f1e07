/-
# Structured data

What a structured text says, without its blanks, comments and escapes: quoted texts and words, lists
of values, records of labelled values, and values that are read only to be passed over. A record may
carry a label more than once; who looks for a field decides what that means.
-/

import PocketCalculator.Data.Dialect

namespace PocketCalculator

/-- Structured data. A text or label whose escapes leave half of a surrogate pair is `none`. -/
inductive Data where
  | quoted (text : Option Text)
  | word (text : Text)
  /-- A number, a character or bytes. -/
  | scalar
  /-- A pair of brackets with nothing between them. -/
  | unit
  | list (items : List Data)
  | record (name : Option Text) (fields : List (Option Text × Data))
  /-- Values without labels in the brackets of a record. -/
  | tuple (items : List Data)
  /-- A map, by its keys and values in turn. -/
  | map (items : List Data)
  /-- A value that might be absent. -/
  | option (value : Data)

namespace Data

mutual

/-- How deeply values are nested: brackets count once for themselves and once for what they hold, an
option once. -/
def depth : Data → Nat
  | .quoted _ | .word _ | .scalar | .unit => 0
  | .list items | .tuple items | .map items => 1 + depthWithin items
  | .record _ fields => 1 + depthOfFields fields
  | .option value => 1 + value.depth

/-- The greatest depth among the values between brackets, which count for holding them. -/
def depthWithin : List Data → Nat
  | [] => 0
  | value :: rest => max (1 + value.depth) (depthWithin rest)

/-- The greatest depth among the fields of a record, which counts for holding them. -/
def depthOfFields : List (Option Text × Data) → Nat
  | [] => 0
  | (_, value) :: rest => max (1 + value.depth) (depthOfFields rest)

end

/-- The label that a value can be: a quoted text in the one dialect, a word in the other. -/
def asLabel? : Dialect → Data → Option (Option Text)
  | .json, .quoted t => some t
  | .stored _, .word t => some (some t)
  | _, _ => none

/-- The text that a value is. -/
def text? : Data → Option Text
  | .quoted t => t
  | _ => none

/-- The name of the choice that a value is. -/
def choice? : Dialect → Data → Option Text
  | .json, .quoted t => t
  | .json, .record _ [(name, .word w)] => if w = "null".toList then name else none
  | .stored _, .word t => some t
  | _, _ => none

/-- The fields of a record of a name, if all of its labels are texts. -/
def fields? (d : Dialect) (name : Text) : Data → Option (List (Option Text × Data))
  | .record given fields =>
    if d.acceptsName name given ∧ fields.all (·.1.isSome) then some fields else none
  | .unit => if d.acceptsName name none then some [] else none
  | _ => none

/-- The value of a field that may be absent, but not be given twice. -/
def field? (name : Text) (fields : List (Option Text × Data)) : Option (Option Data) :=
  match fields.filter (·.1 == some name) with
  | [] => some none
  | [(_, v)] => some (some v)
  | _ => none

end Data
end PocketCalculator
