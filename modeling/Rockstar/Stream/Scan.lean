import Rockstar.Token.Scan

/-!
# Scanning a whole source

The tokens of a source can be found in one pass over its characters, in which a newline is a
character among others. Only strings and comments have to look out for it, since they end there if
they are not closed before.
-/

namespace Rockstar

namespace Piece

/-- The text up to a closing delimiter, or else to the end of the line. -/
def upTo (close : Char) (cs : List Char) : List Char :=
  cs.takeWhile fun d => d ≠ close && d ≠ '\n'

/-- Whether the closing delimiter stands behind that text. -/
def closes (close : Char) (cs : List Char) : Bool :=
  (cs.dropWhile fun d => d ≠ close && d ≠ '\n').head? = some close

/-- The piece at the front of the source text `c :: cs`. -/
def ahead (c : Char) (cs : List Char) : Piece :=
  if isBlank c then .blank c
  else if c = '(' then
    if closes ')' cs then .comment (upTo ')' cs) else .openComment (upTo ')' cs)
  else if c = '"' then
    if closes '"' cs then .string (upTo '"' cs) else .openString (upTo '"' cs)
  else if isDigit c then .number (takeNumber (c :: cs))
  else if Text.isLetter c then ofWord ((c :: cs).takeWhile isWordChar)
  else match symbolKind? c with
    | some kind => .symbol kind c
    | none => .stray c

end Piece

/-- What is left of the line. -/
def Text.restOfLine (cs : List Char) : List Char := cs.takeWhile (· ≠ '\n')

/-- The tokens of a source text from a position on. The last one marks the end of the source. -/
def scanSource (place : Place) : List Char → List Token
  | [] => [⟨.endOfSource, "", place.span 0, place.offset, [], []⟩]
  | c :: cs =>
    if c = '\n' then
      ⟨.newline, "\n", place.span 1, place.offset, [], []⟩ ::
        scanSource ⟨place.line + 1, 1, place.offset + 1⟩ cs
    else
      let piece := Piece.ahead c cs
      let behind := cs.drop (piece.raw.length - 1)
      piece.tokens place (Text.restOfLine (c :: cs)) (Text.restOfLine behind) ++
        scanSource (place.advance piece.size) behind
termination_by cs => cs.length
decreasing_by
  · exact Nat.lt_succ_self _
  · rw [List.length_drop, List.length_cons]
    omega

theorem exists_scanSource_eq (place : Place) (cs : List Char) :
    ∃ front stop, scanSource place cs = front ++ [stop] ∧ stop.kind = .endOfSource := by
  fun_induction scanSource place cs with
  | case1 place => exact ⟨[], _, rfl, rfl⟩
  | case2 place cs ih =>
    obtain ⟨front, stop, htokens, hkind⟩ := ih
    exact ⟨_ :: front, stop, by rw [htokens, List.cons_append], hkind⟩
  | case3 place c cs hnewline piece behind ih =>
    obtain ⟨front, stop, htokens, hkind⟩ := ih
    exact ⟨_ ++ front, stop, by rw [htokens, List.append_assoc], hkind⟩

theorem scanSource_ne_nil (place : Place) (cs : List Char) : scanSource place cs ≠ [] := by
  obtain ⟨front, stop, htokens, -⟩ := exists_scanSource_eq place cs
  simp [htokens]

end Rockstar
