import Rockstar.Expr.Parse
import Rockstar.Stream.Scan

/-!
# The token stream

A source can also be read without being cut into lines: as one row of tokens, in which newlines are
tokens among others, and one position that moves forward along it. Where a line ends is then found
out token by token. The tokens ahead of the position may stand on the next line, and after an error
what is left of the line has to be passed by.

The errors of the scanner lie beside the row, each under the index of its token, until they are
reported or a literal takes their tokens as mere text.
-/

namespace Rockstar

/-! ## The row of tokens -/

/-- A source as one row of tokens. -/
structure TokenStream where
  vocabulary : Vocabulary
  source : List Char
  tokens : List Token
  /-- The token that marks the end of the source. Nothing lies ahead of it. -/
  last : Token
  endsSource : last.kind = .endOfSource

/-- The row of tokens of a source, as one pass over it finds them. -/
def TokenStream.ofSource (vocabulary : Vocabulary) (source : List Char) : TokenStream where
  vocabulary := vocabulary
  source := source
  tokens := scanSource ⟨1, 1, 0⟩ source
  last := (scanSource ⟨1, 1, 0⟩ source).getLast (scanSource_ne_nil ⟨1, 1, 0⟩ source)
  endsSource := by
    obtain ⟨front, stop, htokens, hkind⟩ := exists_scanSource_eq ⟨1, 1, 0⟩ source
    simpa [htokens] using hkind

/-! ## Positions and steps -/

/-- Where the reading of a row of tokens stands. -/
@[ext] structure Cursor where
  /-- The index of the next token. -/
  pos : Nat
  /-- The errors of the scanner that are still open, by the indices of their tokens. -/
  faults : Nat → Option ScanError

namespace Cursor

/-- The position `n` tokens further. -/
def skip (s : Cursor) (n : Nat) : Cursor := { s with pos := s.pos + n }

/-- The error of the next token is no longer open. -/
def settle (s : Cursor) : Cursor :=
  { s with faults := fun i => if i = s.pos then none else s.faults i }

@[simp] theorem pos_skip (s : Cursor) (n : Nat) : (s.skip n).pos = s.pos + n := rfl

@[simp] theorem faults_skip (s : Cursor) (n : Nat) : (s.skip n).faults = s.faults := rfl

@[simp] theorem pos_settle (s : Cursor) : s.settle.pos = s.pos := rfl

theorem pos_le_skip (s : Cursor) (n : Nat) : s.pos ≤ (s.skip n).pos := Nat.le_add_right _ _

theorem faults_settle (s : Cursor) (i : Nat) :
    s.settle.faults i = if i = s.pos then none else s.faults i := rfl

@[simp] theorem faults_settle_pos (s : Cursor) : s.settle.faults s.pos = none := if_pos rfl

theorem settle_of_eq_none {s : Cursor} (h : s.faults s.pos = none) : s.settle = s := by
  refine Cursor.ext rfl (funext fun i => ?_)
  rw [faults_settle]
  split
  next hi => rw [hi, h]
  next => rfl

end Cursor

/-- What comes of reading on from a position: a value or an error, and the position it leads to,
which does not lie before the old one. -/
structure Step (s : Cursor) (α : Type) where
  result : Except ParseError α
  cursor : Cursor
  le : s.pos ≤ cursor.pos

namespace Step

variable {α β : Type} {s s' : Cursor}

/-- The value and the position of the step. -/
def outcome (x : Step s α) : Except ParseError α × Cursor := (x.result, x.cursor)

/-- A step from a later position. -/
def later (h : s.pos ≤ s'.pos) (x : Step s' α) : Step s α :=
  ⟨x.result, x.cursor, Nat.le_trans h x.le⟩

/-- A step, and behind it another one if it gives a value. -/
def andThen (x : Step s α) (next : (a : α) → (s' : Cursor) → s.pos ≤ s'.pos → Step s' β) :
    Step s β :=
  match x with
  | ⟨.ok a, s', h⟩ => (next a s' h).later h
  | ⟨.error e, s', h⟩ => ⟨.error e, s', h⟩

end Step

/-- Reading from any position on. -/
abbrev StreamM (α : Type) : Type := (s : Cursor) → Step s α

namespace StreamM

variable {α β : Type}

instance : Monad StreamM where
  pure a := fun s => ⟨.ok a, s, Nat.le_refl _⟩
  bind f g := fun s => (f s).andThen fun a s' _ => g a s'

/-- Nothing can be read. -/
def fail (e : ParseError) : StreamM α := fun s => ⟨.error e, s, Nat.le_refl _⟩

/-- What reading gives, and where it ends. -/
def run (f : StreamM α) (s : Cursor) : Except ParseError α × Cursor := (f s).outcome

theorem outcome_andThen {s : Cursor} (x : Step s α) (g : α → StreamM β) :
    (x.andThen fun a s' _ => g a s').outcome = match x.outcome with
      | (.ok a, s') => (g a).run s'
      | (.error e, s') => (.error e, s') := by
  obtain ⟨result, s', h⟩ := x
  cases result <;> rfl

theorem run_bind (f : StreamM α) (g : α → StreamM β) (s : Cursor) :
    (f >>= g).run s = match f.run s with
      | (.ok a, s') => (g a).run s'
      | (.error e, s') => (.error e, s') :=
  outcome_andThen (f s) g

@[simp] theorem run_pure (a : α) (s : Cursor) : (pure a : StreamM α).run s = (.ok a, s) := rfl

/-- Reading never moves back. -/
theorem pos_le_of_run {f : StreamM α} {s s' : Cursor} {result : Except ParseError α}
    (h : f.run s = (result, s')) : s.pos ≤ s'.pos := by
  cases h
  exact (f s).le

end StreamM

namespace TokenStream

variable {α : Type} (t : TokenStream)

/-! ## Tokens ahead -/

/-- The token at an index; behind the end of the row it is the last one. -/
def tokenAt (i : Nat) : Token := t.tokens[i]?.getD t.last

variable {t} in
theorem lt_length_of_tokenAt {i : Nat} (h : (t.tokenAt i).kind ≠ .endOfSource) :
    i < t.tokens.length := by
  refine Nat.lt_of_not_le fun hlength => h ?_
  rw [tokenAt, List.getElem?_eq_none hlength, Option.getD_none, t.endsSource]

variable {t} in
theorem lt_length_of_endsLine {i : Nat} (h : ¬(t.tokenAt i).kind.endsLine = true) :
    i < t.tokens.length :=
  lt_length_of_tokenAt fun hkind => h (by rw [hkind]; rfl)

/-- The position before anything is read. -/
def start : Cursor := ⟨0, fun i => t.tokens[i]?.bind Token.fault?⟩

/-- Looks at the token `n` places ahead. -/
def peek (n : Nat) : StreamM Token := fun s => ⟨.ok (t.tokenAt (s.pos + n)), s, Nat.le_refl _⟩

@[simp] theorem run_peek (n : Nat) (s : Cursor) :
    (t.peek n).run s = (.ok (t.tokenAt (s.pos + n)), s) := rfl

/-- The position behind the next token, if that is not the one that marks the end of the source. -/
def next (s : Cursor) : Cursor :=
  if (t.tokenAt s.pos).kind = .endOfSource then s else s.skip 1

theorem pos_le_next (s : Cursor) : s.pos ≤ (t.next s).pos := by
  unfold next
  split
  · exact Nat.le_refl _
  · exact s.pos_le_skip 1

variable {t} in
/-- Behind a token that does not mark the end of the source, the next position lies further. -/
theorem lt_pos_next {s : Cursor} {i : Nat} (hle : i ≤ s.pos)
    (hkind : (t.tokenAt i).kind ≠ .endOfSource) : i < (t.next s).pos := by
  unfold next
  split
  next hend =>
    have hne : i ≠ s.pos := by
      rintro rfl
      exact hkind hend
    exact Nat.lt_of_le_of_ne hle hne
  next => exact Nat.lt_succ_of_le hle

/-- Passes the next token. -/
def advance : StreamM Token := fun s => ⟨.ok (t.tokenAt s.pos), t.next s, t.pos_le_next s⟩

@[simp] theorem run_advance (s : Cursor) :
    t.advance.run s = (.ok (t.tokenAt s.pos), t.next s) := rfl

/-- Passes tokens as long as they are of the given sort. -/
def passWhile (p : Token → Bool) : StreamM (List Token) := fun s =>
  let passed := (t.tokens.drop s.pos).takeWhile p
  ⟨.ok passed, s.skip passed.length, s.pos_le_skip _⟩

theorem cursor_passWhile (p : Token → Bool) (s : Cursor) :
    (t.passWhile p s).cursor = s.skip ((t.tokens.drop s.pos).takeWhile p).length := rfl

@[simp] theorem run_passWhile (p : Token → Bool) (s : Cursor) :
    (t.passWhile p).run s = (.ok ((t.tokens.drop s.pos).takeWhile p),
      s.skip ((t.tokens.drop s.pos).takeWhile p).length) := rfl

/-- The error at the next token. An open error of the scanner goes before any other cause, and is no
longer open then. -/
def errorHere (cause : Token → ParseCause) : StreamM α := fun s =>
  match s.faults s.pos with
  | some e => ⟨.error (.ofScan e), s.settle, Nat.le_refl _⟩
  | none =>
    let next := t.tokenAt s.pos
    ⟨.error ⟨cause next, next.span⟩, s, Nat.le_refl _⟩

/-- Reads the given word. -/
def word (word : String) : StreamM Token := do
  let next ← t.peek 0
  if next.isWord word then t.advance else t.errorHere (Reader.missing s!"'{word}'")

/-! ## Ends of lines -/

/-- Whether only punctuation stands between an index and the end of its line. -/
def endsLineAt (i : Nat) : Bool :=
  (((t.tokens.drop i).dropWhile (·.kind.isTrailing)).head?.getD t.last).kind.endsLine

/-- What was passed of a line: the tokens, and the errors of the scanner among them that were still
open. -/
structure Rest where
  tokens : List Token
  faults : List ScanError

/-- Passes what is left of the line. No error of the scanner on it is open behind it. -/
def passLine (s : Cursor) : Rest × { s' : Cursor // s.pos ≤ s'.pos } :=
  if h : (t.tokenAt s.pos).kind.endsLine then (⟨[], []⟩, ⟨s, Nat.le_refl _⟩)
  else
    have := lt_length_of_endsLine h
    match passLine (s.settle.skip 1) with
    | (rest, ⟨s', h'⟩) =>
      (⟨t.tokenAt s.pos :: rest.tokens, (s.faults s.pos).toList ++ rest.faults⟩,
        ⟨s', Nat.le_trans (s.settle.pos_le_skip 1) h'⟩)
termination_by t.tokens.length - s.pos
decreasing_by
  rw [Cursor.pos_skip, Cursor.pos_settle]
  omega

variable {t} in
theorem passLine_of_endsLine {s : Cursor} (h : (t.tokenAt s.pos).kind.endsLine = true) :
    t.passLine s = (⟨[], []⟩, ⟨s, Nat.le_refl _⟩) := by
  rw [passLine, dif_pos h]

variable {t} in
theorem passLine_of_not_endsLine {s : Cursor} (h : ¬(t.tokenAt s.pos).kind.endsLine = true) :
    (t.passLine s).1 =
        ⟨t.tokenAt s.pos :: (t.passLine (s.settle.skip 1)).1.tokens,
          (s.faults s.pos).toList ++ (t.passLine (s.settle.skip 1)).1.faults⟩ ∧
      (t.passLine s).2.1 = (t.passLine (s.settle.skip 1)).2.1 := by
  rw [passLine, dif_neg h]
  exact ⟨rfl, rfl⟩

/-- Passes what is left of the line as mere text. Returns the last token of it. -/
def consumeVerbatim : StreamM (Option Token) := fun s =>
  let passed := t.passLine s
  ⟨.ok passed.1.tokens.getLast?, passed.2.1, passed.2.2⟩

/-- Passes punctuation and the end of the line. -/
def finishLine : StreamM Unit := do
  let _ ← t.passWhile (·.kind.isTrailing)
  let next ← t.peek 0
  if next.kind.endsLine then
    let _ ← t.advance
    return ()
  else t.errorHere fun u => .unexpectedToken u.describe

/-- Passes what is left of the line, and its end. Returns the errors of the scanner that are still
open on it. -/
def skipLine (s : Cursor) : List ParseError × { s' : Cursor // s.pos ≤ s'.pos } :=
  let passed := t.passLine s
  (passed.1.faults.map .ofScan, ⟨t.next passed.2, Nat.le_trans passed.2.2 (t.pos_le_next _)⟩)

/-! ## Text of the source -/

/-- The text from a byte of the source to the end of its line. -/
def restOfLine (offset : Nat) : List Char :=
  Text.restOfLine ((Text.dropBytes? offset t.source).getD [])

/-- The reference that reaches from one token to another, with everything between them. -/
def reference (first last : Token) : Variable where
  text := String.ofList ((Text.between? first.offset last.endOffset t.source).getD [])
  span := first.span.join last.span

end TokenStream

end Rockstar
