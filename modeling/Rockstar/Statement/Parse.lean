import Rockstar.Expr.Parse
import Rockstar.Statement
import Rockstar.Token.Scan

/-!
# Reading statements

Each line holds at most one statement. Its first word tells which one it is; a line that begins
with a name assigns a literal to it. After an error the rest of the line is skipped, but the faults
of the scanner on it are reported too, and reading goes on with the next line.
-/

namespace Rockstar

namespace Reader

/-- `Put <expression> into <variable>`; `start` is the place of the first word. -/
def putStatement (r : Reader) (start : Span) (ts : List Token) :
    Except Failure (Statement × List Token) := do
  let (value, ts) ← r.expr ts
  let (_, ts) ← r.word "into" ts
  let (target, ts) ← r.variableRef ts
  return (.assign target value (start.join target.span), ts)

/-- `Let <variable> be <expression>`. -/
def letStatement (r : Reader) (start : Span) (ts : List Token) :
    Except Failure (Statement × List Token) := do
  let (target, ts) ← r.variableRef ts
  let (_, ts) ← r.word "be" ts
  let (value, ts) ← r.expr ts
  return (.assign target value (start.join value.span), ts)

/-- `Say <expression>`, with any verb of output. -/
def outputStatement (r : Reader) (verb : Verb) (start : Span) (ts : List Token) :
    Except Failure (Statement × List Token) := do
  let (value, ts) ← r.expr ts
  return (.output verb value (start.join value.span), ts)

/-- Counts how often the word follows, with or without commas between. Returns the count, the place
of the last one and the tokens behind it. The count has no bound; it fits into 32 bits in any source
below 4 GiB. -/
def countSteps (word : String) (count : Nat) (last : Span) :
    List Token → Nat × Span × List Token
  | [] => (count, last, [])
  | t :: ts =>
    if t.isWord word then countSteps word (count + 1) t.span ts
    else if 0 < count && t.kind = .comma && ts.head?.any (·.isWord word) then
      countSteps word count last ts
    else (count, last, t :: ts)

/-- `Build <variable> up, up` or `Knock <variable> down, down`. -/
def stepStatement (r : Reader) (direction : Direction) (start : Span) (ts : List Token) :
    Except Failure (Statement × List Token) := do
  let (target, ts) ← r.variableRef ts
  let (count, last, rest) := countSteps direction.word 0 target.span ts
  if count = 0 then .error (r.failAt ts (missing s!"'{direction.word}'"))
  else return (.step direction target count (start.join last), rest)

/-- The place from one token to the last of the tokens that follow it. -/
def spanTo (first : Token) (ts : List Token) : Span :=
  match ts.getLast? with
  | some last => first.span.join last.span
  | none => first.span

/-- The value after the verb "is": a literal that stands alone but for punctuation, or else a
poetic number that takes the rest of the line. -/
def isValue (r : Reader) (verb : Token) (ts : List Token) : Except Failure (Expr × List Token) :=
  match ts with
  | [] => .error (r.failAt ts fun _ => .lineEnded "a literal or poetic number")
  | first :: rest =>
    match first.kind with
    | .fault e => .error ⟨ParseError.ofScan e, rest⟩
    | _ =>
      let alone := rest.all (·.kind.isTrailing)
      match if alone then first.literal? else none with
      | some value => .ok (.literal value first.span, rest)
      | none =>
        let text := String.ofList (Text.trim verb.behind)
        let span := spanTo first rest
        match Poetic.number? verb.behind with
        | some x => .ok (.poetic x text span, [])
        | none => .error ⟨⟨.noLiteral text, span⟩, []⟩

/-- The text after a verb of speech: the rest of the line as it is. -/
def spokenValue (verb : Token) (ts : List Token) : Expr :=
  .literal (.text (String.ofList (Poetic.string verb.behind))) (spanTo verb ts)

/-- `<variable> is <literal>` or `<variable> says <text>`. -/
def nameStatement (r : Reader) (ts : List Token) : Except Failure (Statement × List Token) := do
  let (target, ts) ← r.variableRef ts
  let wrongVerb : Failure := r.failAt ts fun t => .expectedToken "'is' or 'says'" t.describe
  match ts with
  | [] => .error wrongVerb
  | verb :: rest =>
    if verb.isWordIn ["is", "are", "was", "were"] then
      let (value, rest) ← r.isValue verb rest
      return (.assign target value (target.span.join value.span), rest)
    else if verb.isWordIn ["says", "said"] then
      let value := spokenValue verb rest
      return (.assign target value (target.span.join value.span), [])
    else .error wrongVerb

/-- Reads a statement by its first word. -/
def statement (r : Reader) (ts : List Token) : Except Failure (Statement × List Token) :=
  let unknown : Failure := r.failAt ts fun t => .expectedStatement t.describe
  match ts with
  | [] => .error unknown
  | t :: rest =>
    if t.kind ≠ .word then .error unknown
    else if t.isWord "put" then r.putStatement t.span rest
    else if t.isWord "let" then r.letStatement t.span rest
    else match Verb.ofWord? t.lexeme with
      | some verb => r.outputStatement verb t.span rest
      | none =>
        if t.isWord "build" then r.stepStatement .up t.span rest
        else if t.isWord "knock" then r.stepStatement .down t.span rest
        else if r.vocabulary.isKeyword t.lexeme then .error unknown
        else r.nameStatement (t :: rest)

/-- Reads a statement that takes the whole line but for punctuation at its end. -/
def wholeLine (r : Reader) (ts : List Token) : Except Failure Statement := do
  let (s, rest) ← r.statement ts
  match rest.dropWhile (·.kind.isTrailing) with
  | [] => return s
  | rest => .error (r.failAt rest fun t => .unexpectedToken t.describe)

end Reader

namespace Line

/-- The statement of a line, or what is wrong with it: the first error, and after it the faults
behind its place. A line without tokens has neither. -/
def statement? (vocabulary : Vocabulary) (l : Line) :
    Option (Except (List ParseError) Statement) :=
  match l.tokens with
  | [] => none
  | ts =>
    match Reader.wholeLine ⟨vocabulary, l.stop⟩ ts with
    | .ok s => some (.ok s)
    | .error f => some (.error (f.error :: (f.rest.filterMap Token.fault?).map ParseError.ofScan))

end Line

/-- The errors of a line that could not be read. -/
def lineErrors : Except (List ParseError) Statement → List ParseError
  | .ok _ => []
  | .error es => es

/-- The statements of a source, or all errors in it. -/
def parse (vocabulary : Vocabulary) (source : List Char) :
    Except (List ParseError) (List Statement) :=
  let lines := (Line.split source).filterMap (Line.statement? vocabulary)
  let errors := lines.flatMap lineErrors
  if errors.isEmpty then .ok (lines.filterMap Except.toOption) else .error errors

end Rockstar
