/-
# Strings of JSON

Inside the quotes of a string, as it is written:

| character | written |
| --- | --- |
| `"`, `\` | behind a backslash |
| line feed, return, tab, backspace, form feed | `\n`, `\r`, `\t`, `\b`, `\f` |
| another character below `U+0020` | `\u00` and two hexadecimal digits |
| any other | itself |

Reading also takes `\/` and `\u` with any four hexadecimal digits. Such an escape may be half of a
surrogate pair: two matching halves side by side are one character, and a half without its partner
leaves a string that is well formed but stands for no text.
-/

import PocketCalculator.Data.Hexadecimal

namespace PocketCalculator
namespace Json

/-- The character that a letter behind a backslash stands for. -/
def ofEscape? : Char → Option Char
  | '"' => some '"'
  | '\\' => some '\\'
  | '/' => some '/'
  | 'b' => some '\x08'
  | 'f' => some '\x0c'
  | 'n' => some '\n'
  | 'r' => some '\r'
  | 't' => some '\t'
  | _ => none

/-- A character as it is written inside quotes. -/
def escapeChar (c : Char) : Text :=
  match c with
  | '"' => ['\\', '"']
  | '\\' => ['\\', '\\']
  | '\x08' => ['\\', 'b']
  | '\x0c' => ['\\', 'f']
  | '\n' => ['\\', 'n']
  | '\r' => ['\\', 'r']
  | '\t' => ['\\', 't']
  | _ =>
    if c.toNat < 0x20 then
      ['\\', 'u', '0', '0', Hexadecimal.digit (c.toNat / 16), Hexadecimal.digit (c.toNat % 16)]
    else [c]

/-- A text as it is written inside quotes. -/
def escape (t : Text) : Text := t.flatMap escapeChar

/-- What a character or an escape inside quotes stands for. -/
inductive Piece where
  /-- A whole character. -/
  | whole (c : Char)
  /-- Half of a surrogate pair, by its code. -/
  | half (code : Nat)

/-- The piece of a code of four hexadecimal digits. -/
def Piece.ofCode (code : Nat) : Piece :=
  if 0xD800 ≤ code ∧ code < 0xE000 then .half code else .whole (Char.ofNat code)

/-- The number that four hexadecimal digits denote. -/
def code? (a b c d : Char) : Option Nat := do
  let a ← Hexadecimal.value? a
  let b ← Hexadecimal.value? b
  let c ← Hexadecimal.value? c
  let d ← Hexadecimal.value? d
  return ((a * 16 + b) * 16 + c) * 16 + d

/-- The pieces of what stands between quotes, if every escape is one and no control character stands
bare. -/
def pieces : Text → Option (List Piece)
  | [] => some []
  | c :: rest =>
    if c = '\\' then
      match rest with
      | [] => none
      | e :: rest =>
        if e = 'u' then
          match rest with
          | a :: b :: c :: d :: rest => do
            let code ← code? a b c d
            return .ofCode code :: (← pieces rest)
          | _ => none
        else do
          let c ← ofEscape? e
          return .whole c :: (← pieces rest)
    else if c.toNat < 0x20 then none
    else (pieces rest).map (.whole c :: ·)

/-- The text of pieces, in which every half must meet its other half. -/
def joinPieces : List Piece → Option Text
  | [] => some []
  | .whole c :: rest => (joinPieces rest).map (c :: ·)
  | .half high :: .half low :: rest =>
    if high < 0xDC00 ∧ 0xDC00 ≤ low then
      (joinPieces rest).map
        (Char.ofNat (0x10000 + (high - 0xD800) * 0x400 + (low - 0xDC00)) :: ·)
    else none
  | .half _ :: _ => none

/-- The text that stands between quotes: `none` if it is malformed, `some none` if it is well formed
but leaves half of a surrogate pair. -/
def unescape (t : Text) : Option (Option Text) := (pieces t).map joinPieces

end Json
end PocketCalculator
