/-
# What options hold

The brackets behind `Some` hold one value. Where an attribute unwraps options, they may also hold no
value, or the fields of a record, or the values of a tuple:

| behind the opening bracket | holds |
| --- | --- |
| the closing bracket | no value |
| a name and a colon | the fields of a record |
| a comma outside inner brackets, and no closing bracket behind it | the values of a tuple |
| anything else | one value |

That comma is looked for without reading the values, a character at a time. Texts, bytes and
characters are passed over with the one character behind each of them, so that what follows in
the text is not taken for a comment if its first slash is that character.
-/

import PocketCalculator.Data.Stored.Lexemes

namespace PocketCalculator
namespace Stored

open Data (Lexeme)

/-- What follows blanks and comments, from a place in them. -/
def skipFrom : Place → Text → Option Text
  | .between, [] | .line, [] => some []
  | _, [] => none
  | .between, c :: rest =>
    if isBlank c then skipFrom .between rest
    else if c = '/' then skipFrom .slash rest
    else some (c :: rest)
  | place, c :: rest => do
    let (_, place) ← step place c
    skipFrom place rest

/-- What follows a part of the text, from a place in it. -/
def passFrom : Place → Text → Option Text
  | _, [] => none
  | place, c :: rest => do
    match ← step place c with
    | (_, .between) => some rest
    | (_, place) => passFrom place rest

/-- What follows a quoted part that the text may begin with, of letters and a content; the text
itself if it begins otherwise or an escape in it is none. Nothing if the quotes are not closed: a
quote that ends no part is in an escape, and so every escape up to the last quote is one. -/
def passQuoted (letters : Text) (content : Content) (t : Text) : Option Text :=
  let raw := letters ++ ['r']
  if (letters ++ ['"']).isPrefixOf t then
    let body := t.drop (letters.length + 1)
    match passFrom (.quotes content []) body with
    | some rest => some rest
    | none => if (unescape content (Text.dropTrailing (· ≠ '"') body)).isSome then none else some t
  else if raw.isPrefixOf t then
    let hashes := (t.drop raw.length).takeWhile (· == '#')
    match t.drop (raw.length + hashes.length) with
    | '"' :: body => passFrom (.rawQuotes content hashes.length []) body
    | _ => some t
  else some t

/-- What follows a character that the text may begin with; the text itself if it begins otherwise. -/
def passCharacter : Text → Text
  | '\'' :: rest => (passFrom (.apostrophes false []) rest).getD ('\'' :: rest)
  | t => t

/-- Whether an option holds the values of a tuple, from what follows some of them and the number of
inner brackets open there. Each round of so many passes over a character at least. -/
def isTupleFrom : (rounds depth : Nat) → Text → Option Bool
  | 0, _, _ => none
  | rounds + 1, depth, t => do
    let t ← skipFrom .between t
    let t ← passQuoted [] .text (passCharacter t)
    match ← passQuoted ['b'] .bytes t with
    | [] => none
    | c :: rest =>
      if c ∈ ['(', '[', '\x7b'] then isTupleFrom rounds (depth + 1) rest
      else if c ∈ [')', ']', '\x7d'] then
        if depth = 0 then some false else isTupleFrom rounds (depth - 1) rest
      else if c = ',' ∧ depth = 0 then
        (skipFrom .between rest).map fun rest => rest.head? ≠ some ')'
      else isTupleFrom rounds depth rest

/-- Whether an option holds the values of a tuple, from what follows its opening bracket. -/
def isTuple (t : Text) : Option Bool := isTupleFrom (t.length + 1) 0 t

/-- What follows the opening brackets of options, from a place in the text and the last lexeme
before it. -/
def insidesFrom (place : Place) (last : Option Lexeme) : Text → List Text
  | [] => []
  | c :: rest =>
    match step place c with
    | none => []
    | some (lexemes, place) =>
      let last := lexemes.getLast?.or last
      let later := insidesFrom place last rest
      match place, last with
      | .bracket, some .present => rest :: later
      | _, _ => later

/-- What follows the opening brackets of the options of a text. -/
def insides (t : Text) : List Text := insidesFrom .between none t

/-- Whether a bracket holds fields, from the lexemes behind it. -/
def beginsField : List Lexeme → Bool
  | .name _ :: .colon :: _ | .rawName _ :: .colon :: _ => true
  | .literal _ :: .colon :: _ | .present :: .colon :: _ => true
  | _ => false

/-- Lexemes with the brackets marked of the options that need not hold one value, from what follows
the opening brackets of their options. -/
def unwrapOptions : List Text → List Lexeme → Option (List Lexeme)
  | insides, .present :: .unit :: rest => do
    return .present :: .opening .unwrapped :: .closing .record :: (← unwrapOptions insides.tail rest)
  | inside :: insides, .present :: .opening .record :: rest => do
    let unwrapped ←
      if rest.head? = some (.closing .record) ∨ beginsField rest then some true else isTuple inside
    return .present :: .opening (if unwrapped then .unwrapped else .record) ::
      (← unwrapOptions insides rest)
  | insides, lexeme :: rest => (unwrapOptions insides rest).map (lexeme :: ·)
  | _, [] => some []

end Stored
end PocketCalculator
