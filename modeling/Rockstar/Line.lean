import Rockstar.Span

/-!
# Source lines

A statement never reaches over the end of its line, and neither does a string or a comment. So a
source is first cut into lines, and every later step looks at one line at a time.
-/

namespace Rockstar

/-- A line of the source without its newline. -/
structure Line where
  /-- Counted from one. -/
  number : Nat
  /-- Bytes of the source before the line. -/
  start : Nat
  text : List Char
  /-- Whether the source ends here, without a newline. -/
  isLast : Bool
  deriving DecidableEq

namespace Line

/-- Cuts the rest of a source into lines. The current line has the given number and start, `seen`
is what was read of it and `done` the lines before it, both reversed. -/
def splitFrom (number start : Nat) (seen : List Char) (done : List Line) :
    List Char → List Line
  | [] => (⟨number, start, seen.reverse, true⟩ :: done).reverse
  | c :: cs =>
    if c = '\n' then
      splitFrom (number + 1) (start + Text.byteSize seen + 1) []
        (⟨number, start, seen.reverse, false⟩ :: done) cs
    else splitFrom number start (c :: seen) done cs

/-- The lines of a source. There is always a last one, which may be empty. -/
def split (source : List Char) : List Line := splitFrom 1 0 [] [] source

/-- The position after the last character of the line. -/
def endSpan (l : Line) : Span := ⟨l.number, 1 + Text.byteSize l.text, if l.isLast then 0 else 1⟩

theorem splitFrom_done (number start : Nat) (seen : List Char) (done : List Line)
    (cs : List Char) :
    splitFrom number start seen done cs =
      done.reverse ++ splitFrom number start seen [] cs := by
  induction cs generalizing number start seen done with
  | nil => simp [splitFrom]
  | cons c cs ih =>
    simp only [splitFrom]
    split
    · rw [ih, ih _ _ _ [_]]
      simp
    · rw [ih]

end Line

end Rockstar
