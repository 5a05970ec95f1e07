/-
# Text

Whatever the calculator reads, edits, shows or stores is a `Text`: a list of Unicode characters.
Expressions are edited at their end, one character at a time, so the operations here look at a
text from its end.
-/

namespace PocketCalculator

/-- A run of Unicode characters. -/
abbrev Text := List Char

namespace Text

/-- `t` without its longest run of final characters that satisfy `p`. -/
def dropTrailing (p : Char → Bool) (t : Text) : Text := (t.reverse.dropWhile p).reverse

/-- The words of a list with one space between neighbours. -/
def unwords (words : List Text) : Text := List.intercalate [' '] words

/-- Whether a text is one of some words. -/
def isOneOf (t : Text) (words : List String) : Bool := words.any fun word => word.toList = t

/-- A natural number in decimal digits, without leading zeros. -/
def ofNat (n : Nat) : Text := Nat.toDigits 10 n

end Text
end PocketCalculator
