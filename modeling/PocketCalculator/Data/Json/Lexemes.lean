/-
# Lexemes of JSON

Square brackets hold lists and curly ones records. A run of characters that are neither blank nor a
mark nor a quote has to be a number or one of `true`, `false` and `null`.
-/

import PocketCalculator.Data.Json.Quoted
import PocketCalculator.Data.Lexeme

namespace PocketCalculator
namespace Json

open Data (Lexeme Scanner)

/-- An exponent as it may end a number, or nothing. -/
def isExponent : Text → Bool
  | [] => true
  | c :: rest =>
    let digits := if rest.head? = some '+' ∨ rest.head? = some '-' then rest.tail else rest
    (c = 'e' ∨ c = 'E') && digits ≠ [] && digits.all Char.isDigit

/-- A number: an optional minus, digits without a needless leading zero, and optionally a point with
digits behind it and an exponent. -/
def isNumber (t : Text) : Bool :=
  let unsigned := if t.head? = some '-' then t.tail else t
  let whole := unsigned.takeWhile Char.isDigit
  let wholeOk : Bool := whole = ['0'] ∨ (whole ≠ [] ∧ whole.head? ≠ some '0')
  wholeOk &&
    match unsigned.dropWhile Char.isDigit with
    | '.' :: rest => rest.takeWhile Char.isDigit ≠ [] && isExponent (rest.dropWhile Char.isDigit)
    | rest => isExponent rest

/-- The lexeme of a run of characters. -/
def ofRun? (t : Text) : Option Lexeme :=
  if t.isOneOf ["true", "false", "null"] then some (.literal t)
  else if isNumber t then some .scalar
  else none

/-- The four blank characters. -/
def isBlank (c : Char) : Bool := c ∈ [' ', '\t', '\n', '\r']

/-- The lexeme that a single character is. -/
def ofMark? : Char → Option Lexeme
  | '[' => some (.opening .list)
  | ']' => some (.closing .list)
  | '\x7b' => some (.opening .record)
  | '\x7d' => some (.closing .record)
  | ',' => some .comma
  | ':' => some .colon
  | _ => none

/-- Where a reader stands. Texts hold what was read since the run or the quotes began. -/
inductive Place where
  | between
  | run (read : Text)
  | quotes (read : Text)
  /-- Behind a backslash between quotes. -/
  | backslash (read : Text)

/-- A character outside runs and quotes. -/
def enter (c : Char) : List Lexeme × Place :=
  if isBlank c then ([], .between)
  else if c = '"' then ([], .quotes [])
  else match ofMark? c with
    | some mark => ([mark], .between)
    | none => ([], .run [c])

/-- The lexemes that end with a character, and where the reader stands behind it. -/
def step : Place → Char → Option (List Lexeme × Place)
  | .between, c => some (enter c)
  | .run read, c =>
    match enter c with
    | (_, .run _) => some ([], .run (read ++ [c]))
    | (marks, place) => do return ((← ofRun? read) :: marks, place)
  | .quotes read, c =>
    if c = '"' then do return ([.quoted (← unescape read)], .between)
    else if c = '\\' then some ([], .backslash read)
    else some ([], .quotes (read ++ [c]))
  | .backslash read, c => some ([], .quotes (read ++ ['\\', c]))

/-- The lexeme that ends with the text. -/
def finish : Place → Option (List Lexeme)
  | .between => some []
  | .run read => do return [← ofRun? read]
  | .quotes _ | .backslash _ => none

/-- The lexemes of JSON. -/
def scanner : Scanner Place := ⟨.between, step, finish⟩

end Json
end PocketCalculator
