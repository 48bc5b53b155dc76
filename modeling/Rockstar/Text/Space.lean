import Rockstar.Text.Run

/-!
# White space

The characters with the Unicode property `White_Space`, and the words that stand between them.
Blanks that separate tokens on a line are a smaller set, see `Rockstar.Token`.
-/

namespace Rockstar.Text

/-- The code points of `White_Space`, in ascending order. -/
def spaceRuns : List Run :=
  [
    ⟨0x09, 0x0D, 1⟩, ⟨0x20, 0x20, 1⟩, ⟨0x85, 0x85, 1⟩, ⟨0xA0, 0xA0, 1⟩, ⟨0x1680, 0x1680, 1⟩,
    ⟨0x2000, 0x200A, 1⟩, ⟨0x2028, 0x2029, 1⟩, ⟨0x202F, 0x202F, 1⟩, ⟨0x205F, 0x205F, 1⟩,
    ⟨0x3000, 0x3000, 1⟩]

/-- White space of any kind. -/
def isSpace (c : Char) : Bool := Run.covers spaceRuns c.toNat

/-- The text without white space at either end. -/
def trim (cs : List Char) : List Char :=
  ((cs.dropWhile isSpace).reverse.dropWhile isSpace).reverse

/-- Splits at every white-space character; `word` is the word being read, reversed. -/
def wordsFrom (word : List Char) : List Char → List (List Char)
  | [] => if word.isEmpty then [] else [word.reverse]
  | c :: cs =>
    if isSpace c then
      if word.isEmpty then wordsFrom [] cs else word.reverse :: wordsFrom [] cs
    else wordsFrom (c :: word) cs

/-- The maximal stretches without white space, in order. -/
def words (cs : List Char) : List (List Char) := wordsFrom [] cs

end Rockstar.Text
