import Rockstar.Decimal.Text
import Rockstar.Text.Letter
import Rockstar.Text.Space

/-!
# Poetic literals

A poetic number is spelled by words: the number of letters of each word, modulo ten, is a digit.
Hyphens count as letters, a period begins the fraction, and stretches in parentheses are passed
over. A poetic string is the rest of a line, taken as it is.
-/

namespace Rockstar.Poetic

/-- What has been read of a poetic number. The digits are kept in reverse. -/
structure Count where
  whole : List Nat
  fraction : List Nat
  /-- Letters of the current word. Their number has no bound; it fits into 32 bits in any source
  below 4 GiB. -/
  letters : Nat
  inFraction : Bool
  inComment : Bool
  deriving DecidableEq

namespace Count

/-- Nothing read yet. -/
def start : Count := ⟨[], [], 0, false, false⟩

/-- Ends the current word. A word without letters is no digit. -/
def endWord (n : Count) : Count :=
  if n.letters = 0 then n
  else if n.inFraction then
    { n with fraction := n.letters % 10 :: n.fraction, letters := 0 }
  else { n with whole := n.letters % 10 :: n.whole, letters := 0 }

/-- Reads one character. -/
def push (n : Count) (c : Char) : Count :=
  if n.inComment then { n with inComment := c ≠ ')' }
  else if c = '(' then { n.endWord with inComment := true }
  else if c = '.' then { n.endWord with inFraction := true }
  else if Text.isSpace c then n.endWord
  else if Text.isLetter c || c = '-' then { n with letters := n.letters + 1 }
  else n

/-- The number with the digits read, if there are any. -/
def number? (n : Count) : Option Float :=
  if n.whole.isEmpty && n.fraction.isEmpty then none
  else some (Decimal.read n.whole.reverse n.fraction.reverse)

end Count

/-- The number that a text spells. -/
def number? (text : List Char) : Option Float := (text.foldl Count.push .start).endWord.number?

/-- The text without a final carriage return. -/
def dropReturn (text : List Char) : List Char :=
  if text.getLast? = some '\r' then text.dropLast else text

/-- The string that the text after the verb spells: all of it, but for the carriage return of the
line's end and the one space after the verb. -/
def string (text : List Char) : List Char :=
  match dropReturn text with
  | ' ' :: rest => rest
  | rest => rest

end Rockstar.Poetic
