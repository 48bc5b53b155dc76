import Rockstar.Statement.Parse
import Rockstar.Stream

/-!
# Reading the token stream

The readers of expressions and statements once more, now on the token stream. No reader is told
where its line ends: each looks at the tokens ahead and moves the one position forward, and an error
leaves the position where it was found. `parseStream` passes what is left of the line then, and goes
on behind it.
-/

namespace Rockstar

namespace Reader

/-- An operator takes at least one token, and the first one does not end a line. -/
theorem width_of_operator? {u : Token} {ts : List Token} {op : BinaryOp} {width : Nat}
    (h : operator? (u :: ts) = some (op, width)) : 0 < width ∧ u.kind.endsLine = false := by
  unfold operator? at h
  cases hkind : u.kind <;> simp only [hkind, reduceCtorEq, Option.some.injEq, Prod.mk.injEq] at h
  case word =>
    refine ⟨?_, rfl⟩
    split at h
    · split at h <;> cases h <;> omega
    · obtain ⟨o, -, ho⟩ := Option.map_eq_some_iff.mp h
      cases ho
      exact Nat.one_pos
  all_goals exact ⟨h.2 ▸ Nat.one_pos, rfl⟩

end Reader

theorem Token.endsLine_of_isWord {u : Token} {word : String} (h : u.isWord word = true) :
    ¬u.kind.endsLine = true := by
  simp only [isWord, Bool.and_eq_true, decide_eq_true_eq] at h
  rw [h.1]
  exact Bool.false_ne_true

namespace TokenStream

variable (t : TokenStream)

/-! ## Expressions -/

/-- Whether the token can stand in a name after its first word. -/
def continuesName (u : Token) : Bool :=
  u.kind = .word && !t.vocabulary.isReserved u.lexeme

/-- Reads the word behind a determiner. -/
def commonName (first : Token) : StreamM Variable := do
  let next ← t.peek 0
  if t.continuesName next then
    let last ← t.advance
    return t.reference first last
  else t.errorHere fun u => .expectedVariable u.describe

/-- Reads the capitalised words behind a capitalised word. -/
def properName (first : Token) : StreamM Variable := do
  let words ← t.passWhile fun u => u.isCapitalised && t.continuesName u
  return t.reference first (words.getLast?.getD first)

/-- Reads a reference to a variable. -/
def variableRef : StreamM Variable := do
  let first ← t.peek 0
  if first.kind ≠ .word || t.vocabulary.isKeyword first.lexeme then
    t.errorHere fun u =>
      if u.kind.endsLine then .lineEnded "a variable" else .expectedVariable u.describe
  else
    let _ ← t.advance
    if t.vocabulary.isPronoun first.lexeme then return t.reference first first
    else if t.vocabulary.isDeterminer first.lexeme then t.commonName first
    else if first.isCapitalised then t.properName first
    else return t.reference first first

/-- The operator at the position and how many tokens belong to it, found by looking three tokens
further ahead at most. -/
def operator? (s : Cursor) : Option (BinaryOp × Nat) :=
  Reader.operator? [t.tokenAt s.pos, t.tokenAt (s.pos + 1), t.tokenAt (s.pos + 2),
    t.tokenAt (s.pos + 3)]

/-- Reads a literal, a negated operand or a variable. -/
def operand : StreamM Expr := fun s =>
  let first := t.tokenAt s.pos
  match first.literal? with
  | some value => (do let _ ← t.advance; return .literal value first.span : StreamM Expr) s
  | none =>
    if h : first.isWord "not" then
      have := lt_length_of_endsLine (Token.endsLine_of_isWord h)
      ((operand (s.skip 1)).andThen fun e s' _ =>
        (pure (.negation first.span e) : StreamM Expr) s').later (s.pos_le_skip 1)
    else if first.kind = .word && !t.vocabulary.isKeyword first.lexeme then
      (do let v ← t.variableRef; return .variable v : StreamM Expr) s
    else
      t.errorHere (fun u =>
        if u.kind.endsLine then .lineEnded "an expression" else .expectedExpression u.describe) s
termination_by s => t.tokens.length - s.pos
decreasing_by
  rw [Cursor.pos_skip]
  omega

theorem run_operand (s : Cursor) :
    t.operand.run s =
      let first := t.tokenAt s.pos
      match first.literal? with
      | some value => (t.advance >>= fun _ => pure (.literal value first.span)).run s
      | none =>
        if first.isWord "not" then
          (t.operand >>= fun e => pure (.negation first.span e)).run (s.skip 1)
        else if first.kind = .word && !t.vocabulary.isKeyword first.lexeme then
          (t.variableRef >>= fun v => pure (.variable v)).run s
        else
          (t.errorHere fun u =>
            if u.kind.endsLine then .lineEnded "an expression"
            else .expectedExpression u.describe).run s := by
  rw [StreamM.run, operand.eq_def]
  dsimp only
  split
  · rfl
  · split
    · rfl
    · split <;> rfl

/-- Reads operators and operands as long as they follow. -/
def continueExpr (tree : Expr) : StreamM Expr := fun s =>
  match _h : t.operator? s with
  | none => ⟨.ok tree, s, Nat.le_refl _⟩
  | some (op, width) =>
    ((t.operand (s.skip width)).andThen fun right s' _ =>
      continueExpr (tree.attach op right) s').later (s.pos_le_skip _)
termination_by s => t.tokens.length - s.pos
decreasing_by
  rename_i hle
  obtain ⟨hwidth, hends⟩ := Reader.width_of_operator? _h
  have := lt_length_of_endsLine (t := t) (i := s.pos) (by rw [hends]; exact Bool.false_ne_true)
  rw [Cursor.pos_skip] at hle
  omega

theorem run_continueExpr (tree : Expr) (s : Cursor) :
    (t.continueExpr tree).run s = match t.operator? s with
      | none => (.ok tree, s)
      | some (op, width) =>
        (t.operand >>= fun right => t.continueExpr (tree.attach op right)).run (s.skip width) := by
  rw [StreamM.run, continueExpr.eq_def]
  split
  next hop =>
    rw [hop]
    rfl
  next op width hop =>
    rw [hop]
    rfl

/-- Reads an expression. -/
def expr : StreamM Expr := do
  let first ← t.operand
  t.continueExpr first

/-! ## Statements -/

/-- `Put <expression> into <variable>`. -/
def putStatement : StreamM Statement := do
  let verb ← t.advance
  let value ← t.expr
  let _ ← t.word "into"
  let target ← t.variableRef
  return .assign target value (verb.span.join target.span)

/-- `Let <variable> be <expression>`. -/
def letStatement : StreamM Statement := do
  let verb ← t.advance
  let target ← t.variableRef
  let _ ← t.word "be"
  let value ← t.expr
  return .assign target value (verb.span.join value.span)

/-- `Say <expression>`, with any verb of output. -/
def outputStatement (verb : Verb) : StreamM Statement := do
  let start ← t.advance
  let value ← t.expr
  return .output verb value (start.span.join value.span)

/-- Counts how often the word follows, with or without commas between. Returns the count and the
place of the last one. -/
def countSteps (word : String) (count : Nat) (last : Span) : StreamM (Nat × Span) := fun s =>
  let next := t.tokenAt s.pos
  if hword : next.isWord word then
    have := lt_length_of_endsLine (Token.endsLine_of_isWord hword)
    (countSteps word (count + 1) next.span (s.skip 1)).later (s.pos_le_skip 1)
  else if hcomma : 0 < count && next.kind = .comma && (t.tokenAt (s.pos + 1)).isWord word then
    have hkind : next.kind = .comma := by
      simp only [Bool.and_eq_true, decide_eq_true_eq] at hcomma
      exact hcomma.1.2
    have := t.lt_length_of_tokenAt (i := s.pos) (by rw [hkind]; exact TokenKind.noConfusion)
    (countSteps word count last (s.skip 1)).later (s.pos_le_skip 1)
  else ⟨.ok (count, last), s, Nat.le_refl _⟩
termination_by s => t.tokens.length - s.pos
decreasing_by
  all_goals
    rw [Cursor.pos_skip]
    omega

theorem run_countSteps (word : String) (count : Nat) (last : Span) (s : Cursor) :
    (t.countSteps word count last).run s =
      let next := t.tokenAt s.pos
      if next.isWord word then (t.countSteps word (count + 1) next.span).run (s.skip 1)
      else if 0 < count && next.kind = .comma && (t.tokenAt (s.pos + 1)).isWord word then
        (t.countSteps word count last).run (s.skip 1)
      else (.ok (count, last), s) := by
  rw [StreamM.run, countSteps.eq_def]
  dsimp only
  split
  · rfl
  · split <;> rfl

/-- `Build <variable> up, up` or `Knock <variable> down, down`. -/
def stepStatement (direction : Direction) : StreamM Statement := do
  let start ← t.advance
  let target ← t.variableRef
  let (count, last) ← t.countSteps direction.word 0 target.span
  if count = 0 then
    let _ ← t.word direction.word
    return .step direction target count (start.span.join last)
  else return .step direction target count (start.span.join last)

/-- The value after the verb "is". -/
def isValue (verb : Token) : StreamM Expr := fun s =>
  let first := t.tokenAt s.pos
  if first.kind.endsLine then
    StreamM.fail ⟨.lineEnded "a literal or poetic number", first.span⟩ s
  else if first.fault?.isSome then
    -- the error of the scanner is still open here, so the other cause is never given
    t.errorHere (fun u => .noLiteral u.lexeme) s
  else
    match if t.endsLineAt (s.pos + 1) then first.literal? else none with
    | some value => (do let _ ← t.advance; return .literal value first.span : StreamM Expr) s
    | none => poetic first s
where
  /-- A poetic number, which takes the rest of the line. -/
  poetic (first : Token) : StreamM Expr := do
    let words := t.restOfLine verb.endOffset
    let text := String.ofList (Text.trim words)
    let last ← t.consumeVerbatim
    let span := first.span.join (last.getD first).span
    match Poetic.number? words with
    | some x => return .poetic x text span
    | none => StreamM.fail ⟨.noLiteral text, span⟩

/-- The text after a verb of speech: the rest of the line as it is. -/
def spokenValue (verb : Token) : StreamM Expr := do
  let text := Poetic.string (t.restOfLine verb.endOffset)
  let last ← t.consumeVerbatim
  let span := match last with
    | some last => verb.span.join last.span
    | none => verb.span
  return .literal (.text (String.ofList text)) span

/-- `<variable> is <literal>` or `<variable> says <text>`. -/
def nameStatement : StreamM Statement := do
  let target ← t.variableRef
  let verb ← t.peek 0
  if verb.isWordIn ["is", "are", "was", "were"] then
    let _ ← t.advance
    let value ← t.isValue verb
    return .assign target value (target.span.join value.span)
  else if verb.isWordIn ["says", "said"] then
    let _ ← t.advance
    let value ← t.spokenValue verb
    return .assign target value (target.span.join value.span)
  else t.errorHere fun u => .expectedToken "'is' or 'says'" u.describe

/-- Reads a statement by its first word. -/
def statement : StreamM Statement := do
  let first ← t.peek 0
  let unknown : StreamM Statement := t.errorHere fun u => .expectedStatement u.describe
  if first.kind ≠ .word then unknown
  else if first.isWord "put" then t.putStatement
  else if first.isWord "let" then t.letStatement
  else match Verb.ofWord? first.lexeme with
    | some verb => t.outputStatement verb
    | none =>
      if first.isWord "build" then t.stepStatement .up
      else if first.isWord "knock" then t.stepStatement .down
      else if t.vocabulary.isKeyword first.lexeme then unknown
      else t.nameStatement

/-- Reads a statement and the end of its line. -/
def line : StreamM Statement := do
  let stmt ← t.statement
  t.finishLine
  return stmt

/-! ## The whole stream -/

section Progress

variable {t} {s s' : Cursor} {i : Nat}

theorem lt_pos_of_skipLine (hle : i ≤ s.pos) (hkind : (t.tokenAt i).kind ≠ .endOfSource) :
    i < (t.skipLine s).2.1.pos :=
  lt_pos_next (Nat.le_trans hle (t.passLine s).2.2) hkind

theorem lt_pos_of_finishLine (h : t.finishLine.run s = (.ok (), s')) (hle : i ≤ s.pos)
    (hkind : (t.tokenAt i).kind ≠ .endOfSource) : i < s'.pos := by
  unfold finishLine at h
  simp only [StreamM.run_bind, run_passWhile, run_peek] at h
  split at h
  · cases h
    exact lt_pos_next (Nat.le_trans hle (s.pos_le_skip _)) hkind
  · dsimp only [StreamM.run, Step.outcome, errorHere] at h
    split at h <;> cases h

theorem lt_pos_of_line {stmt : Statement} (h : t.line.run s = (.ok stmt, s'))
    (hkind : (t.tokenAt s.pos).kind ≠ .endOfSource) : s.pos < s'.pos := by
  unfold line at h
  rw [StreamM.run_bind] at h
  split at h
  next stmt' s₁ hstmt =>
    rw [StreamM.run_bind] at h
    split at h
    next s₂ hfinish =>
      cases h
      exact lt_pos_of_finishLine hfinish (StreamM.pos_le_of_run hstmt) hkind
    next => cases h
  next => cases h

end Progress

/-- Reads on to the end of the source. A line that cannot be read gives its error, and with it the
errors of the scanner that are still open on it. -/
def readLines (s : Cursor) : List Statement × List ParseError :=
  match t.passWhile (·.kind = .newline) s with
  | ⟨_, s₁, _⟩ =>
    if hend : (t.tokenAt s₁.pos).kind = .endOfSource then ([], [])
    else
      have := lt_length_of_tokenAt hend
      match hline : t.line s₁ with
      | ⟨.ok stmt, s₂, _⟩ =>
        have : s₁.pos < s₂.pos := lt_pos_of_line (congrArg Step.outcome hline) hend
        let behind := readLines s₂
        (stmt :: behind.1, behind.2)
      | ⟨.error e, s₂, h₂⟩ =>
        have := lt_pos_of_skipLine h₂ hend
        let behind := readLines (t.skipLine s₂).2
        (behind.1, e :: (t.skipLine s₂).1 ++ behind.2)
termination_by t.tokens.length - s.pos
decreasing_by
  all_goals omega

theorem readLines_eq (s : Cursor) :
    t.readLines s =
      let s₁ := (t.passWhile (·.kind = .newline) s).cursor
      if (t.tokenAt s₁.pos).kind = .endOfSource then ([], [])
      else match t.line.run s₁ with
        | (.ok stmt, s₂) =>
          let behind := t.readLines s₂
          (stmt :: behind.1, behind.2)
        | (.error e, s₂) =>
          let behind := t.readLines (t.skipLine s₂).2
          (behind.1, e :: (t.skipLine s₂).1 ++ behind.2) := by
  rw [readLines.eq_def]
  generalize t.passWhile _ s = x
  obtain ⟨_, s₁, _⟩ := x
  dsimp only
  split
  · rfl
  · rw [StreamM.run, Step.outcome]
    split
    next hline => rw [hline]
    next hline => rw [hline]

end TokenStream

/-- The statements of a source, or all errors in it, by reading its tokens in one row. -/
def parseStream (vocabulary : Vocabulary) (source : List Char) :
    Except (List ParseError) (List Statement) :=
  let t := TokenStream.ofSource vocabulary source
  let (stmts, errors) := t.readLines t.start
  if errors.isEmpty then .ok stmts else .error errors

end Rockstar
