/-
# Attributes of a stored text

A stored text may begin with any number of attributes, each of which enables one or more rules for
reading it:

| name | rule |
| --- | --- |
| `implicit_some` | the brackets behind `Some` may be left out |
| `explicit_struct_names` | a record has to be named |
| `unwrap_variant_newtypes` | the brackets behind `Some` need not hold one value |
| `unwrap_newtypes` | none that concerns what is read here |

An attribute is written `#![enable(…)]`, with commas between the names and at most one behind them.
-/

import PocketCalculator.Data.Lexeme

namespace PocketCalculator
namespace Stored

open Data (Lexeme)

/-- The rules that the attributes of a text enable. -/
structure Attributes where
  impliedOptions : Bool
  namesRequired : Bool
  unwrappedOptions : Bool
  deriving DecidableEq

namespace Attributes

/-- No rule enabled. -/
def none : Attributes := ⟨false, false, false⟩

/-- The rules with that of a name enabled too. -/
def enable? (a : Attributes) (name : Text) : Option Attributes :=
  if name = "implicit_some".toList then some { a with impliedOptions := true }
  else if name = "explicit_struct_names".toList then some { a with namesRequired := true }
  else if name = "unwrap_variant_newtypes".toList then some { a with unwrappedOptions := true }
  else if name = "unwrap_newtypes".toList then some a
  else .none

/-- The rules that attributes enable, and what follows them; read from between two attributes or,
if `inside`, from the names of one. -/
def readFrom (a : Attributes) : (inside : Bool) → List Lexeme → Option (Attributes × List Lexeme)
  | false, .hash :: .bang :: .opening .list :: .name t :: .opening .record :: rest =>
    if t = "enable".toList then readFrom a true rest else .none
  | false, lexemes => some (a, lexemes)
  | true, word :: .closing .record :: .closing .list :: rest
  | true, word :: .comma :: .closing .record :: .closing .list :: rest => do
    readFrom (← a.enable? (← word.name?)) false rest
  | true, word :: .comma :: rest => do readFrom (← a.enable? (← word.name?)) true rest
  | true, _ => .none

end Attributes
end Stored
end PocketCalculator
