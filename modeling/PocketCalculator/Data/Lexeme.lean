/-
# Lexemes of structured text

A text is cut into its smallest parts before it is read: brackets and other marks, quoted texts, and
words and numbers. What ends a part and what stands between parts is for each form of text to say,
as a machine that goes through the characters once.
-/

import PocketCalculator.Text

namespace PocketCalculator
namespace Data

/-- What a pair of brackets holds. -/
inductive Shape where
  | list
  | record
  | map
  /-- What an option holds where that need not be one value. -/
  | unwrapped
  deriving DecidableEq

/-- The smallest parts of structured text. -/
inductive Lexeme where
  | opening (shape : Shape)
  | closing (shape : Shape)
  /-- The brackets of a record with nothing between them, not even a blank. -/
  | unit
  | comma
  | colon
  /-- The two marks that begin the attributes of a text. -/
  | hash
  | bang
  /-- A quoted text; `none` if its escapes leave half of a surrogate pair. -/
  | quoted (text : Option Text)
  /-- A word that can be a value, label one, or stand before the brackets of a record. -/
  | name (text : Text)
  /-- A name that is marked as one, so that it cannot be a word with a meaning of its own. -/
  | rawName (text : Text)
  /-- A word that can be a value or label one. -/
  | literal (text : Text)
  /-- The word that stands before a value that might be absent. -/
  | present
  /-- A number, a character or bytes. -/
  | scalar
  deriving DecidableEq

/-- The name that a lexeme is. -/
def Lexeme.name? : Lexeme → Option Text
  | .name t | .rawName t => some t
  | _ => none

/-- A machine that cuts a text into lexemes. -/
structure Scanner (Place : Type) where
  /-- Where it stands before the text. -/
  start : Place
  /-- The lexemes that a character ends, and where the machine stands behind it. -/
  step : Place → Char → Option (List Lexeme × Place)
  /-- The lexemes that the end of the text ends. -/
  finish : Place → Option (List Lexeme)

namespace Scanner

variable {Place : Type}

/-- The lexemes of a text, read from a place in it. -/
def scanFrom (s : Scanner Place) : Place → Text → Option (List Lexeme)
  | place, [] => s.finish place
  | place, c :: rest => do
    let (lexemes, place) ← s.step place c
    return lexemes ++ (← s.scanFrom place rest)

/-- The lexemes of a text. -/
def scan (s : Scanner Place) (t : Text) : Option (List Lexeme) := s.scanFrom s.start t

end Scanner
end Data
end PocketCalculator
