/-!
# Elementary operations on text

Sets of characters, lines, blank characters and decimal numerals, as they are
read by everything that deals with text.
-/

namespace Constituency.Text

/-!
## Character sets given by ranges

A property of characters is stored as the increasing list of the ranges of code
points that have it.  Membership is decided by one walk along that list.
-/

/-- Whether a code point lies in one of the ranges, each given by its first and
its last member.  The ranges are listed in increasing order, so the walk ends at
the first range that begins beyond the code point. -/
def inRanges (code : Nat) : List (Nat × Nat) → Bool
  | [] => false
  | (first, last) :: rest =>
      decide (first ≤ code) && (decide (code ≤ last) || inRanges code rest)

/-!
## Lines

A line ends at a line feed, or at a carriage return followed by one.  What
follows the last line feed is a line only if it is not empty.
-/

/-- The lines of a text, without their ends. -/
def lines : List Char → List (List Char)
  | [] => []
  | '\n' :: rest => [] :: lines rest
  | '\r' :: '\n' :: rest => [] :: lines rest
  | c :: rest =>
      match lines rest with
      | [] => [[c]]
      | line :: others => (c :: line) :: others

/-!
## Blank characters

The characters with the Unicode property `White_Space`, and the trimming of
text at both ends.
-/

def blankRanges : List (Nat × Nat) := [
    (0x9, 0xD), (0x20, 0x20), (0x85, 0x85), (0xA0, 0xA0), (0x1680, 0x1680),
    (0x2000, 0x200A), (0x2028, 0x2029), (0x202F, 0x202F), (0x205F, 0x205F),
    (0x3000, 0x3000)]

/-- A blank character is one with the Unicode property `White_Space`. -/
def isBlank (c : Char) : Bool :=
  inRanges c.toNat blankRanges

def trim (text : List Char) : List Char :=
  ((text.dropWhile isBlank).reverse.dropWhile isBlank).reverse

/-!
## Decimal numerals
-/

/-- The value of a sequence of decimal digits, most significant digit first. -/
def digitsValue (digits : List Char) : Nat :=
  digits.foldl (fun value digit => 10 * value + (digit.toNat - 48)) 0

/-- Reads one or more decimal digits, with an optional plus sign before them.
Any other text, and any value above the bound, is refused. -/
def readDecimal? (bound : Nat) (text : List Char) : Option Nat :=
  let digits :=
    match text with
    | '+' :: rest => rest
    | _ => text
  if digits.isEmpty || !digits.all Char.isDigit then
    none
  else if digitsValue digits ≤ bound then
    some (digitsValue digits)
  else
    none

end Constituency.Text
