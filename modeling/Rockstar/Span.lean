import Rockstar.Text.Bytes

/-!
# Spans

A stretch of one source line. Lines and columns count from one, columns and lengths in bytes.
-/

namespace Rockstar

/-- `len` bytes of line `line` from column `col` on. The numbers have no bound; in a source of at
most `2 ^ 32 - 2` bytes none of them needs more than 32 bits. -/
structure Span where
  line : Nat
  col : Nat
  len : Nat
  deriving DecidableEq

namespace Span

/-- The empty span at a position. -/
def point (line col : Nat) : Span := ⟨line, col, 0⟩

/-- Whether the span holds no byte. -/
def isEmpty (s : Span) : Bool := s.len == 0

/-- The column after the last one of the span. -/
def endCol (s : Span) : Nat := s.col + s.len

/-- The smallest span that covers both; the first one when they are on different lines. -/
def join (a b : Span) : Span :=
  if a.line = b.line then
    let start := min a.col b.col
    ⟨a.line, start, max a.endCol b.endCol - start⟩
  else a

/-- The number of bytes of the line before the span. -/
def start (s : Span) : Nat := s.col - 1

/-- The number of bytes of the line up to the end of the span. -/
def stop (s : Span) : Nat := s.start + s.len

/-- The part of the line that the span covers, if the span lies inside the line and cuts no
character. -/
def slice? (s : Span) (line : List Char) : Option (List Char) :=
  (Text.dropBytes? s.start line).bind (Text.takeBytes? s.len)

/-- Line and column. -/
def text (s : Span) : String := s!"{s.line}:{s.col}"

/-- Line, column and length. -/
def detail (s : Span) : String := s!"{s.line}:{s.col}+{s.len}"

end Span

end Rockstar
