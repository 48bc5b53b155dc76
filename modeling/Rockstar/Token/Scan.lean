import Rockstar.Line
import Rockstar.Text.Letter
import Rockstar.Token

/-!
# Scanning a line

A line is read piece by piece. `Piece.first` is the piece at the front of a text that is not
empty, and `Piece.tokens` says which tokens it stands for: none for a blank or a closed comment,
two for a word that ends in an apostrophe and an s, one for everything else. A piece and what is
left make up the whole text (`Piece.raw_append_restOf`), so every byte of the line belongs to
exactly one piece.
-/

namespace Rockstar

/-- A space between tokens. -/
def isBlank (c : Char) : Bool := c = ' ' || c = '\t' || c = '\r'

/-- A decimal digit. -/
def isDigit (c : Char) : Bool := '0' ≤ c && c ≤ '9'

/-- A character that may follow the first letter of a word. -/
def isWordChar (c : Char) : Bool := Text.isLetter c || c = '\''

/-- A stretch of a line that is read at once. -/
inductive Piece where
  | blank (c : Char)
  | comment (body : List Char)
  | openComment (body : List Char)
  | string (body : List Char)
  | openString (body : List Char)
  | number (digits : List Char)
  | word (letters : List Char)
  /-- A word with `'s` behind it, which is short for "is". -/
  | contraction (stem : List Char) (s : Char)
  | symbol (kind : TokenKind) (c : Char)
  | stray (c : Char)
  deriving DecidableEq

namespace Piece

/-- The characters of the piece. -/
def raw : Piece → List Char
  | .blank c => [c]
  | .comment body => '(' :: body ++ [')']
  | .openComment body => '(' :: body
  | .string body => '"' :: body ++ ['"']
  | .openString body => '"' :: body
  | .number digits => digits
  | .word letters => letters
  | .contraction stem s => stem ++ ['\'', s]
  | .symbol _ c => [c]
  | .stray c => [c]

/-- The number of bytes of the piece. -/
def size (p : Piece) : Nat := Text.byteSize p.raw

/-- The kind of token that a single character is. -/
def symbolKind? (c : Char) : Option TokenKind :=
  match c with
  | '+' => some .plus
  | '-' => some .minus
  | '*' => some .star
  | '/' => some .slash
  | ',' => some .comma
  | '.' | '!' | '?' | ';' | ':' => some .mark
  | _ => none

/-- Splits a word from a trailing `'s`. A word of two bytes is too short for one. -/
def ofWord (letters : List Char) : Piece :=
  match letters.reverse with
  | s :: a :: stem =>
    if a = '\'' && (s = 's' || s = 'S') && !stem.isEmpty then .contraction stem.reverse s
    else .word letters
  | _ => .word letters

/-- The digits at the front of a text: a whole number, with a fraction if digits follow its
point. -/
def takeNumber (cs : List Char) : List Char :=
  let whole := cs.takeWhile isDigit
  match cs.dropWhile isDigit with
  | '.' :: d :: rest => if isDigit d then whole ++ '.' :: (d :: rest).takeWhile isDigit else whole
  | _ => whole

/-- The piece at the front of the text `c :: cs`. -/
def first (c : Char) (cs : List Char) : Piece :=
  if isBlank c then .blank c
  else if c = '(' then
    let body := cs.takeWhile (· ≠ ')')
    if cs.contains ')' then .comment body else .openComment body
  else if c = '"' then
    let body := cs.takeWhile (· ≠ '"')
    if cs.contains '"' then .string body else .openString body
  else if isDigit c then .number (takeNumber (c :: cs))
  else if Text.isLetter c then ofWord ((c :: cs).takeWhile isWordChar)
  else match symbolKind? c with
    | some kind => .symbol kind c
    | none => .stray c

end Piece

/-- A position in a source: a column of a line, and the bytes before it. Like the numbers of a span
these have no bound, and need no more than 32 bits in a source of at most `2 ^ 32 - 2` bytes. -/
structure Place where
  line : Nat
  col : Nat
  offset : Nat
  deriving DecidableEq

namespace Place

/-- The position `n` bytes further on the same line. -/
def advance (p : Place) (n : Nat) : Place := ⟨p.line, p.col + n, p.offset + n⟩

theorem advance_advance (p : Place) (m n : Nat) :
    (p.advance m).advance n = p.advance (m + n) := by
  simp [advance, Nat.add_assoc]

/-- The span of `n` bytes from the position on. -/
def span (p : Place) (n : Nat) : Span := ⟨p.line, p.col, n⟩

end Place

/-- The first position of the line. -/
def Line.place (l : Line) : Place := ⟨l.number, 1, l.start⟩

/-- The tokens of a piece at a position. `onward` is the text of the line from the piece on and
`behind` the text after it. An unterminated comment is noticed, and its token placed, at the end of
the line. -/
def Piece.tokens (p : Piece) (place : Place) (onward behind : List Char) : List Token :=
  match p with
  | .blank _ => []
  | .comment _ => []
  | .openComment _ =>
    let span := place.span 1
    [⟨.fault (.unterminatedComment span), "", span, place.offset + p.size, onward, behind⟩]
  | .string body => [⟨.string, String.ofList body, place.span p.size, place.offset, onward, behind⟩]
  | .openString _ =>
    let span := place.span 1
    [⟨.fault (.unterminatedString span), "", span, place.offset, onward, behind⟩]
  | .number digits =>
    [⟨.number, String.ofList digits, place.span p.size, place.offset, onward, behind⟩]
  | .word letters =>
    [⟨.word, String.ofList letters, place.span p.size, place.offset, onward, behind⟩]
  | .contraction stem s =>
    let middle := place.advance (Text.byteSize stem)
    let rest := '\'' :: s :: behind
    [⟨.word, String.ofList stem, place.span (Text.byteSize stem), place.offset, onward, rest⟩,
      ⟨.word, "is", middle.span 2, middle.offset, rest, behind⟩]
  | .symbol kind c => [⟨kind, String.ofList [c], place.span p.size, place.offset, onward, behind⟩]
  | .stray c =>
    let span := place.span p.size
    [⟨.fault (.unexpectedChar c span), "", span, place.offset, onward, behind⟩]

/-- The text behind the first piece of `c :: cs`. -/
def Piece.restOf (c : Char) (cs : List Char) : List Char :=
  cs.drop ((Piece.first c cs).raw.length - 1)

theorem Piece.length_restOf_le (c : Char) (cs : List Char) :
    (Piece.restOf c cs).length ≤ cs.length := by
  simp [Piece.restOf]

/-- The tokens of a text that begins at the given position. -/
def scanFrom (place : Place) : List Char → List Token
  | [] => []
  | c :: cs =>
    let piece := Piece.first c cs
    piece.tokens place (c :: cs) (Piece.restOf c cs) ++
      scanFrom (place.advance piece.size) (Piece.restOf c cs)
termination_by cs => cs.length
decreasing_by
  have := Piece.length_restOf_le c cs
  simp only [List.length_cons]
  omega

namespace Line

/-- The tokens of the line, without the one that ends it. -/
def tokens (l : Line) : List Token := scanFrom l.place l.text

/-- The token that ends the line. -/
def stop (l : Line) : Token :=
  { kind := if l.isLast then .endOfSource else .newline
    lexeme := if l.isLast then "" else "\n"
    span := l.endSpan
    offset := l.start + Text.byteSize l.text
    onward := []
    behind := [] }

end Line

/-- All tokens of a source. The last one marks its end. -/
def tokenize (source : List Char) : List Token :=
  (Line.split source).flatMap fun l => l.tokens ++ [l.stop]

/-! ## Nothing is lost -/

namespace Piece

/-- A beginning of `c :: cs` that is not empty, followed by what it leaves of `cs`. -/
theorem append_drop_of_append {c : Char} {cs front rest : List Char}
    (h : front ++ rest = c :: cs) (hne : front ≠ []) :
    front ++ cs.drop (front.length - 1) = c :: cs := by
  cases front with
  | nil => exact absurd rfl hne
  | cons d ds =>
    simp only [List.cons_append, List.cons.injEq] at h
    obtain ⟨rfl, rfl⟩ := h
    simp

theorem exists_dropWhile_ne_of_contains {q : Char} (cs : List Char) (h : cs.contains q = true) :
    ∃ rest, cs.dropWhile (· ≠ q) = q :: rest := by
  induction cs with
  | nil => simp at h
  | cons c cs ih =>
    by_cases hc : c = q
    · exact ⟨cs, by simp [hc]⟩
    · obtain ⟨rest, hrest⟩ := ih (by simpa [Ne.symm hc] using h)
      exact ⟨rest, by simpa [hc] using hrest⟩

/-- A delimited stretch is cut off together with its closing delimiter. -/
theorem delimited_append {q : Char} {cs : List Char} (h : cs.contains q = true) :
    ∃ rest, cs.takeWhile (· ≠ q) ++ [q] ++ rest = cs := by
  obtain ⟨rest, hrest⟩ := exists_dropWhile_ne_of_contains cs h
  refine ⟨rest, ?_⟩
  have hsplit := List.takeWhile_append_dropWhile (p := fun x => decide (x ≠ q)) (l := cs)
  rw [hrest] at hsplit
  simpa using hsplit

/-- A stretch without its closing delimiter is the whole text. -/
theorem takeWhile_eq_self {q : Char} {cs : List Char} (h : ¬cs.contains q = true) :
    cs.takeWhile (· ≠ q) = cs := by
  induction cs with
  | nil => rfl
  | cons c cs ih =>
    simp only [List.contains_cons, Bool.or_eq_true, beq_iff_eq, not_or] at h
    simpa [Ne.symm h.1] using ih h.2

theorem raw_ofWord (letters : List Char) : (ofWord letters).raw = letters := by
  unfold ofWord
  split
  next s a stem heq =>
    split
    next hs =>
      simp only [Bool.and_eq_true, decide_eq_true_eq] at hs
      have hrev := congrArg List.reverse heq
      simp only [List.reverse_reverse] at hrev
      simp [raw, hrev, hs.1.1]
    next => rfl
  next => rfl

theorem takeNumber_append (cs : List Char) : ∃ rest, takeNumber cs ++ rest = cs := by
  have hsplit := List.takeWhile_append_dropWhile (p := isDigit) (l := cs)
  unfold takeNumber
  split
  next d rest heq =>
    split
    next =>
      refine ⟨(d :: rest).dropWhile isDigit, ?_⟩
      have hrest := List.takeWhile_append_dropWhile (p := isDigit) (l := d :: rest)
      rw [List.append_assoc, List.cons_append, hrest, ← heq, hsplit]
    next => exact ⟨_, hsplit⟩
  next => exact ⟨_, hsplit⟩

theorem takeNumber_ne_nil {c : Char} (cs : List Char) (h : isDigit c = true) :
    takeNumber (c :: cs) ≠ [] := by
  unfold takeNumber
  split <;> (try split) <;> simp [h]

/-- The first piece of a text and what is left of it make up the text. -/
theorem raw_append_restOf (c : Char) (cs : List Char) :
    (first c cs).raw ++ restOf c cs = c :: cs := by
  suffices h : (∃ rest, (first c cs).raw ++ rest = c :: cs) ∧ (first c cs).raw ≠ [] from
    append_drop_of_append h.1.choose_spec h.2
  unfold first
  split
  next => exact ⟨⟨cs, rfl⟩, by simp [raw]⟩
  next =>
    split
    next hc =>
      subst hc
      dsimp only
      split
      next hq =>
        obtain ⟨rest, hrest⟩ := delimited_append hq
        exact ⟨⟨rest, by simpa [raw] using hrest⟩, by simp [raw]⟩
      next hq => exact ⟨⟨[], by simpa [raw] using takeWhile_eq_self hq⟩, by simp [raw]⟩
    next =>
      split
      next hc =>
        subst hc
        dsimp only
        split
        next hq =>
          obtain ⟨rest, hrest⟩ := delimited_append hq
          exact ⟨⟨rest, by simpa [raw] using hrest⟩, by simp [raw]⟩
        next hq => exact ⟨⟨[], by simpa [raw] using takeWhile_eq_self hq⟩, by simp [raw]⟩
      next =>
        split
        next hd => exact ⟨takeNumber_append _, takeNumber_ne_nil _ hd⟩
        next =>
          split
          next hl =>
            rw [raw_ofWord]
            refine ⟨⟨_, List.takeWhile_append_dropWhile⟩, ?_⟩
            simp [isWordChar, hl]
          next => split <;> exact ⟨⟨cs, rfl⟩, by simp [raw]⟩

end Piece

end Rockstar
