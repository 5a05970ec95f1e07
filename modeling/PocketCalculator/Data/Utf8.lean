/-
# Characters as bytes

A character is encoded in one to four bytes, by the size of its code point:

| code point | bytes, from their lower bits |
| --- | --- |
| below `0x80` | 7 |
| below `0x800` | 5, 6 |
| below `0x10000` | 4, 6, 6 |
| any other | 3, 6, 6, 6 |

Only the shortest of the forms that hold a code point encodes it.
-/

import PocketCalculator.Text

namespace PocketCalculator
namespace Utf8

/-- The number in the bits of one to four bytes that do not tell their role. -/
def payload : List Nat → Nat
  | [a] => a
  | [a, b] => a % 32 * 64 + b % 64
  | [a, b, c] => (a % 16 * 64 + b % 64) * 64 + c % 64
  | [a, b, c, d] => ((a % 8 * 64 + b % 64) * 64 + c % 64) * 64 + d % 64
  | _ => 0

/-- The bytes of a character. -/
def encode (c : Char) : List Nat := (String.utf8EncodeChar c).map UInt8.toNat

/-- The character that bytes encode, all of them together. -/
def decode? (bytes : List Nat) : Option Char :=
  let c := Char.ofNat (payload bytes)
  if encode c = bytes then some c else none

end Utf8
end PocketCalculator
