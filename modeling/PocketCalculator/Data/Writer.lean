/-
# Writing structured data

A list or record is written from the written forms of its parts, with commas and brackets and
nothing else between them.
-/

import PocketCalculator.Data.Dialect

namespace PocketCalculator
namespace Data

/-- A quoted text, written. -/
def writeQuoted (d : Dialect) (t : Text) : Text := '"' :: d.escape t ++ ['"']

/-- Values in square brackets, from their written forms. -/
def writeList (items : List Text) : Text := '[' :: List.intercalate [','] items ++ [']']

/-- A labelled value, from the written form of the value. -/
def writeField (d : Dialect) (label value : Text) : Text :=
  match d with
  | .json => writeQuoted d label ++ ':' :: value
  | .stored _ => label ++ ':' :: value

/-- A record of labelled values, from the written forms of the values. -/
def writeRecord (d : Dialect) (fields : List (Text × Text)) : Text :=
  d.recordOpening :: List.intercalate [','] (fields.map fun (label, value) =>
    writeField d label value) ++ [d.recordClosing]

/-- The name of a choice, written. -/
def writeChoice (d : Dialect) (name : Text) : Text :=
  match d with
  | .json => writeQuoted d name
  | .stored _ => name

end Data
end PocketCalculator
