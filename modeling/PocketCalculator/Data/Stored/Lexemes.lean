/-
# Lexemes of the stored form

| part | form |
| --- | --- |
| a list, a record, a map | in square, round, curly brackets |
| a text | in quotes; or behind `r` and any number of `#`, up to a quote and as many `#` |
| bytes | as a text, with `b` in front |
| a character, a byte | between apostrophes, a byte behind `b` |
| a raw name | behind `r#` |
| a comment | from `//` to the end of the line, or between `/*` and `*/`, which may be nested |

A comment may stand wherever a blank may. Between `r` quotes nothing is an escape.
-/

import PocketCalculator.Data.Lexeme
import PocketCalculator.Data.Stored.Name
import PocketCalculator.Data.Stored.Number
import PocketCalculator.Data.Stored.Quoted

namespace PocketCalculator
namespace Stored

open Data (Lexeme Scanner)

/-- The blank characters: space, tab, line ends and the marks of direction. -/
def isBlank (c : Char) : Bool :=
  c ∈ [' ', '\t', '\n', '\x0b', '\x0c', '\r', '\u0085', '\u200e', '\u200f', '\u2028', '\u2029']

/-- The words that are values by themselves: truth values, the absent value and special numbers. -/
def literals : List String :=
  ["true", "false", "None", "inf", "inff32", "inff64", "NaN", "NaNf32", "NaNf64"]

/-- The lexeme of a word. -/
def ofWord (t : Text) : Lexeme :=
  if t = "Some".toList then .present
  else if t.isOneOf literals then .literal t
  else .name t

/-- The lexeme of a run of characters that begins like a number. -/
def ofNumber? (t : Text) : Option Lexeme := if isNumber t then some .scalar else none

/-- Where a reader stands. Texts hold what was read since the part began. -/
inductive Place where
  | between
  /-- Behind an opening round bracket. -/
  | bracket
  /-- Behind a slash that must begin a comment. -/
  | slash
  /-- In a comment that ends with the line. -/
  | line
  /-- In a comment in so many others, behind a character that may be half of a mark. -/
  | block (level : Nat) (last : Option Char)
  | word (read : Text)
  | number (read : Text)
  | quotes (content : Content) (read : Text)
  /-- Behind a backslash between quotes. -/
  | backslash (content : Content) (read : Text)
  | apostrophes (byte : Bool) (read : Text)
  /-- Behind so many `#` that must begin raw quotes or a raw name. -/
  | hashes (content : Content) (count : Nat)
  | rawQuotes (content : Content) (count : Nat) (read : Text)
  | rawName (read : Text)

/-- The lexeme of what quotes hold. -/
def ofQuoted : Content → Text → Lexeme
  | .text, t => .quoted (some t)
  | .character, _ | .bytes, _ => .scalar

/-- A character outside all parts. -/
def enter (c : Char) : Option (List Lexeme × Place) :=
  if isBlank c then some ([], .between)
  else if isNumberStart c then some ([], .number [c])
  else if isNameStart c then some ([], .word [c])
  else match c with
    | '"' => some ([], .quotes .text [])
    | '\'' => some ([], .apostrophes false [])
    | '/' => some ([], .slash)
    | '(' => some ([], .bracket)
    | ')' => some ([.closing .record], .between)
    | '[' => some ([.opening .list], .between)
    | ']' => some ([.closing .list], .between)
    | '\x7b' => some ([.opening .map], .between)
    | '\x7d' => some ([.closing .map], .between)
    | ',' => some ([.comma], .between)
    | ':' => some ([.colon], .between)
    | '#' => some ([.hash], .between)
    | '!' => some ([.bang], .between)
    | _ => none

/-- A character behind a part that it does not belong to. -/
def enterAfter (lexeme : Lexeme) (c : Char) : Option (List Lexeme × Place) :=
  (enter c).map fun (lexemes, place) => (lexeme :: lexemes, place)

/-- The part that a character makes of the letters in front of it. -/
def ofPrefix? : Text → Char → Option Place
  | ['r'], '"' => some (.rawQuotes .text 0 [])
  | ['r'], '#' => some (.hashes .text 1)
  | ['b'], '"' => some (.quotes .bytes [])
  | ['b'], '\'' => some (.apostrophes true [])
  | ['b', 'r'], '"' => some (.rawQuotes .bytes 0 [])
  | ['b', 'r'], '#' => some (.hashes .bytes 1)
  | _, _ => none

/-- The lexemes that end with a character, and where the reader stands behind it. -/
def step : Place → Char → Option (List Lexeme × Place)
  | .between, c => enter c
  | .bracket, c => if c = ')' then some ([.unit], .between) else enterAfter (.opening .record) c
  | .slash, c =>
    if c = '/' then some ([], .line) else if c = '*' then some ([], .block 0 none) else none
  | .line, c => some ([], if c = '\n' then .between else .line)
  | .block level last, c =>
    if last = some '/' ∧ c = '*' then some ([], .block (level + 1) none)
    else if last = some '*' ∧ c = '/' then
      some ([], if level = 0 then .between else .block (level - 1) none)
    else some ([], .block level (some c))
  | .word read, c =>
    if isNamePart c then some ([], .word (read ++ [c]))
    else match ofPrefix? read c with
      | some place => some ([], place)
      | none => enterAfter (ofWord read) c
  | .number read, c =>
    if isNumberPart c then some ([], .number (read ++ [c])) else do enterAfter (← ofNumber? read) c
  | .quotes content read, c =>
    if c = '"' then do return ([ofQuoted content (← unescape content read)], .between)
    else if c = '\\' then some ([], .backslash content read)
    else some ([], .quotes content (read ++ [c]))
  | .backslash content read, c => some ([], .quotes content (read ++ ['\\', c]))
  | .apostrophes byte read, c =>
    if c = '\'' ∧ read ≠ [] ∧ read ≠ ['\\'] then
      if isCharacter byte read then some ([.scalar], .between) else none
    else some ([], .apostrophes byte (read ++ [c]))
  | .hashes content count, c =>
    if c = '#' then some ([], .hashes content (count + 1))
    else if c = '"' then some ([], .rawQuotes content count [])
    else if content = .text ∧ count = 1 ∧ isRawNamePart c then some ([], .rawName [c])
    else none
  | .rawQuotes content count read, c =>
    let read := read ++ [c]
    let quote := '"' :: List.replicate count '#'
    if quote.isSuffixOf read then
      some ([ofQuoted content (read.take (read.length - quote.length))], .between)
    else some ([], .rawQuotes content count read)
  | .rawName read, c =>
    if isRawNamePart c then some ([], .rawName (read ++ [c])) else enterAfter (.rawName read) c

/-- The lexemes that end with the text. -/
def finish : Place → Option (List Lexeme)
  | .between | .line => some []
  | .word read => some [ofWord read]
  | .number read => do return [← ofNumber? read]
  | .rawName read => some [.rawName read]
  | _ => none

/-- The lexemes of the stored form. -/
def scanner : Scanner Place := ⟨.between, step, finish⟩

end Stored
end PocketCalculator
