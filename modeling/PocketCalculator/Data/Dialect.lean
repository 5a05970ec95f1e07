/-
# Two dialects of structured text

The history and the preferences are written in two forms, `json` for exchange and `stored` for the
calculator's own storage. Both know quoted texts, bare words, lists in square brackets and records
of labelled values, and differ in this:

| | `json` | `stored` |
| --- | --- | --- |
| brackets of a record | `{ }` | `( )` |
| label of a value | a quoted text | a bare word |
| name of a choice | a quoted text, or the label of `null` | a bare word |
| name in front of a record | refused | accepted if it is the right one |
| record given as the list of its values | accepted | refused |
| comma behind the last value | refused | accepted |
| levels of brackets | any number | limited |
| maps, options, comments, attributes | none | as in the modules of the stored form |
-/

import PocketCalculator.Data.Json.Lexemes
import PocketCalculator.Data.Stored.Attributes
import PocketCalculator.Data.Stored.Option

namespace PocketCalculator
namespace Data

/-- The forms of structured text; a stored text with the rules that its attributes enable. -/
inductive Dialect where
  | json
  | stored (attributes : Stored.Attributes)
  deriving DecidableEq

namespace Dialect

/-- The stored form without attributes, as it is written. -/
def bare : Dialect := .stored .none

/-- The character that opens a record. -/
def recordOpening : Dialect → Char
  | .json => '\x7b'
  | .stored _ => '('

/-- The character that closes a record. -/
def recordClosing : Dialect → Char
  | .json => '\x7d'
  | .stored _ => ')'

/-- Whether a comma may stand behind the last value of a list or record. -/
def finalComma : Dialect → Bool
  | .json => false
  | .stored _ => true

/-- Whether a record may be given as the list of its values. -/
def recordsAsLists : Dialect → Bool
  | .json => true
  | .stored _ => false

/-- Whether values in the brackets of a record may go without labels. -/
def tuples : Dialect → Bool
  | .json => false
  | .stored _ => true

/-- Whether the brackets behind the mark of an option may be left out. -/
def impliedOptions : Dialect → Bool
  | .json => false
  | .stored a => a.impliedOptions

/-- Whether a record may have the name that it has, or none, where one of a name is expected. -/
def acceptsName (expected : Text) (given : Option Text) : Dialect → Bool
  | .json => given.isNone
  | .stored a => if a.namesRequired then given = some expected else given.all (· = expected)

/-- Whether brackets may be so deeply nested. -/
def acceptsDepth (depth : Nat) : Dialect → Bool
  | .json => true
  | .stored _ => depth ≤ 128

/-- What stands for a text between its quotes. -/
def escape : Dialect → Text → Text
  | .json => Json.escape
  | .stored _ => Stored.escape

/-- The dialect that the attributes of a text lead to, and the lexemes of its value. -/
def scan : Dialect → Text → Option (Dialect × List Lexeme)
  | .json, t => (Json.scanner.scan t).map (.json, ·)
  | .stored a, t => do
    let (a, lexemes) ← a.readFrom false (← Stored.scanner.scan t)
    if a.unwrappedOptions then
      return (.stored a, ← Stored.unwrapOptions (Stored.insides t) lexemes)
    else return (.stored a, lexemes)

end Dialect
end Data
end PocketCalculator
