/-
# Quoted texts of the stored form

The form in which the calculator keeps its state between sessions has texts, characters and bytes in
quotes. Inside the quotes of a text, as it is written:

| character | written |
| --- | --- |
| `"`, `'`, `\` | behind a backslash |
| line feed, return, tab, null | `\n`, `\r`, `\t`, `\0` |
| another character that is not plain | `\u`, and its code in hexadecimal digits between curly brackets |
| any other | itself |

Reading takes these escapes for every character, with digits of either case, and also `\x` with two
hexadecimal digits for a byte. In a text as many of these as encode one character stand for it.
-/

import PocketCalculator.Data.Hexadecimal
import PocketCalculator.Data.Stored.Plain
import PocketCalculator.Data.Utf8

namespace PocketCalculator
namespace Stored

/-- A character as it is written inside quotes. -/
def escapeChar (c : Char) : Text :=
  match c with
  | '"' => ['\\', '"']
  | '\'' => ['\\', '\'']
  | '\\' => ['\\', '\\']
  | '\n' => ['\\', 'n']
  | '\r' => ['\\', 'r']
  | '\t' => ['\\', 't']
  | '\x00' => ['\\', '0']
  | _ =>
    if isPlain c then [c] else '\\' :: 'u' :: '\x7b' :: Hexadecimal.ofNat c.toNat ++ ['\x7d']

/-- A text as it is written inside quotes. -/
def escape (t : Text) : Text := t.flatMap escapeChar

/-- The character that a single character behind a backslash stands for. -/
def ofEscape? : Char → Option Char
  | '"' => some '"'
  | '\'' => some '\''
  | '\\' => some '\\'
  | 'n' => some '\n'
  | 'r' => some '\r'
  | 't' => some '\t'
  | '0' => some '\x00'
  | _ => none

/-- The character of a code point. -/
def ofCode? (code : Nat) : Option Char :=
  if code.isValidChar then some (Char.ofNat code) else none

/-- What quotes hold. -/
inductive Content where
  | text
  | character
  | bytes
  deriving DecidableEq

/-- What bytes that are given by escapes stand for, all of them together. -/
def Content.ofBytes? (content : Content) (values : List Nat) : Option Char :=
  match content with
  | .text | .character => Utf8.decode? values
  | .bytes => values.head?.map Char.ofNat

/-- How many escapes of a byte can stand for one character. -/
def Content.bytesLimit : Content → Nat
  | .text => 4
  | .character | .bytes => 1

/-- Where a reader stands between quotes. -/
inductive Gap where
  /-- Not in an escape. -/
  | plain
  /-- Behind a backslash. -/
  | backslash
  /-- Where the opening bracket of a code must come. -/
  | bracket
  /-- In a code of hexadecimal digits, by how many there were and their number. -/
  | code (digits value : Nat)
  /-- In the two digits of a byte, by the bytes before it and the digit that was read. -/
  | byte (before : List Nat) (high : Option Nat)
  /-- Where the backslash of another byte must come. -/
  | more (before : List Nat)
  /-- Where the letter of another byte must come. -/
  | letter (before : List Nat)

/-- The rest of a quoted text, read from a place in it. -/
def unescapeFrom (content : Content) : Gap → Text → Option Text
  | .plain, [] => some []
  | _, [] => none
  | .plain, c :: rest =>
    if c = '\\' then unescapeFrom content .backslash rest
    else (unescapeFrom content .plain rest).map (c :: ·)
  | .backslash, c :: rest =>
    if c = 'u' then unescapeFrom content .bracket rest
    else if c = 'x' then unescapeFrom content (.byte [] none) rest
    else do return (← ofEscape? c) :: (← unescapeFrom content .plain rest)
  | .bracket, c :: rest => if c = '\x7b' then unescapeFrom content (.code 0 0) rest else none
  | .code digits value, c :: rest =>
    if c = '\x7d' then
      if digits = 0 then none
      else do return (← ofCode? value) :: (← unescapeFrom content .plain rest)
    else if digits < 6 then do
      unescapeFrom content (.code (digits + 1) (value * 16 + (← Hexadecimal.value? c))) rest
    else none
  | .byte before none, c :: rest => do
    unescapeFrom content (.byte before (some (← Hexadecimal.value? c))) rest
  | .byte before (some high), c :: rest => do
    let bytes := before ++ [high * 16 + (← Hexadecimal.value? c)]
    match content.ofBytes? bytes with
    | some c => return c :: (← unescapeFrom content .plain rest)
    | none =>
      if bytes.length < content.bytesLimit then unescapeFrom content (.more bytes) rest else none
  | .more before, c :: rest =>
    if c = '\\' then unescapeFrom content (.letter before) rest else none
  | .letter before, c :: rest =>
    if c = 'x' then unescapeFrom content (.byte before none) rest else none

/-- What stands between quotes, if every escape is one. -/
def unescape (content : Content) (t : Text) : Option Text := unescapeFrom content .plain t

/-- One character, or one byte, that may be given by an escape. A byte cannot be given by a code. -/
def isCharacter (byte : Bool) (t : Text) : Bool :=
  if byte then
    t.all (·.toNat < 0x80) && t.take 2 ≠ ['\\', 'u'] && (unescape .bytes t).any (·.length = 1)
  else (unescape .character t).any (·.length = 1)

end Stored
end PocketCalculator
