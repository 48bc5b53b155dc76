import Rockstar.Expr
import Rockstar.ParseError
import Rockstar.Text.Capital
import Rockstar.Vocabulary

/-!
# Reading expressions

An expression is read from the tokens of one line, from left to right. Every reader takes the
tokens that are left and returns what it read together with the tokens behind it, or a `Failure` at
the first token that does not fit.

Operands and operators alternate, so precedence is not a matter of reading: each operator is
attached to the tree of what stands before it (`Expr.attach`).
-/

namespace Rockstar

/-- What a reader knows besides the tokens: the words of the language and the token that ends the
line. -/
structure Reader where
  vocabulary : Vocabulary
  stop : Token

/-- An error that ends the reading of a line, and the tokens behind the place of the error. -/
structure Failure where
  error : ParseError
  rest : List Token
  deriving DecidableEq

namespace Token

/-- Whether the token is a word that reads, in lower case, as given. -/
def isWord (t : Token) (word : String) : Bool := t.kind = .word && foldCase t.lexeme = word

/-- Whether the token is one of the given words. -/
def isWordIn (t : Token) (words : List String) : Bool := words.any t.isWord

/-- Whether the token begins with a capital. -/
def isCapitalised (t : Token) : Bool :=
  match t.lexeme.toList with
  | c :: _ => Text.isCapital c
  | [] => false

/-- The value of a literal of one token. -/
def literal? (t : Token) : Option Value :=
  match t.kind with
  | .number => some (.number (Decimal.readText t.lexeme.toList))
  | .string => some (.text t.lexeme)
  | .word => (Vocabulary.constant? t.lexeme).map ConstantWord.value
  | _ => none

end Token

namespace Reader

/-- The failure at the first token that is left. A fault of the scanner goes before any other
cause. -/
def failAt (r : Reader) (ts : List Token) (cause : Token → ParseCause) : Failure :=
  match ts with
  | [] => ⟨⟨cause r.stop, r.stop.span⟩, []⟩
  | t :: rest =>
    match t.kind with
    | .fault e => ⟨ParseError.ofScan e, rest⟩
    | _ => ⟨⟨cause t, t.span⟩, rest⟩

/-- The cause of a missing word or phrase at a token. -/
def missing (expected : String) (t : Token) : ParseCause :=
  if t.kind.endsLine then .lineEnded expected else .expectedToken expected t.describe

/-- Reads the given word. -/
def word (r : Reader) (word : String) (ts : List Token) : Except Failure (Token × List Token) :=
  match ts with
  | t :: rest =>
    if t.isWord word then .ok (t, rest) else .error (r.failAt ts (missing s!"'{word}'"))
  | [] => .error (r.failAt ts (missing s!"'{word}'"))

/-! ## Variables -/

/-- Whether the token can stand in a name after its first word. -/
def continuesName (r : Reader) (t : Token) : Bool :=
  t.kind = .word && !r.vocabulary.isReserved t.lexeme

/-- The reference that reaches from one token to another, with everything between them. -/
def reference (first last : Token) : Variable where
  text := String.ofList (Text.takeBytes (last.span.endCol - first.span.col) first.onward)
  span := first.span.join last.span

/-- Reads a reference to a variable: a pronoun, a determiner and a word, as many capitalised words
as follow each other, or any other single word. -/
def variableRef (r : Reader) (ts : List Token) : Except Failure (Variable × List Token) :=
  match ts with
  | [] => .error (r.failAt ts fun _ => .lineEnded "a variable")
  | first :: rest =>
    if first.kind ≠ .word || r.vocabulary.isKeyword first.lexeme then
      .error (r.failAt ts fun t => .expectedVariable t.describe)
    else if r.vocabulary.isPronoun first.lexeme then .ok (reference first first, rest)
    else if r.vocabulary.isDeterminer first.lexeme then
      match rest with
      | next :: rest' =>
        if r.continuesName next then .ok (reference first next, rest')
        else .error (r.failAt rest fun t => .expectedVariable t.describe)
      | [] => .error (r.failAt rest fun t => .expectedVariable t.describe)
    else if first.isCapitalised then
      let more := rest.takeWhile fun t => t.isCapitalised && r.continuesName t
      .ok (reference first (more.getLast?.getD first), rest.drop more.length)
    else .ok (reference first first, rest)

/-! ## Operators -/

/-- The comparison that the tokens after the word "is" spell, and how many of them belong to it. -/
def comparison? (ts : List Token) : Option (BinaryOp × Nat) :=
  match ts with
  | a :: b :: rest =>
    if a.isWord "not" then some (.equality false, 1)
    else if b.isWord "than" && a.isWordIn ["higher", "greater", "bigger", "stronger"] then
      some (.compare .greater, 2)
    else if b.isWord "than" && a.isWordIn ["lower", "less", "smaller", "weaker"] then
      some (.compare .less, 2)
    else match rest with
      | c :: _ =>
        if a.isWord "as" && c.isWord "as" then
          if b.isWordIn ["high", "great", "big", "strong"] then
            some (.compare .greaterEqual, 3)
          else if b.isWordIn ["low", "little", "small", "weak"] then
            some (.compare .lessEqual, 3)
          else none
        else none
      | [] => none
  | [a] => if a.isWord "not" then some (.equality false, 1) else none
  | [] => none

/-- The operator that a single word spells. -/
def wordOperator? (word : String) : Option BinaryOp :=
  match foldCase word with
  | "plus" | "with" => some (.arith .add)
  | "minus" | "without" => some (.arith .subtract)
  | "times" | "of" => some (.arith .multiply)
  | "over" | "between" => some (.arith .divide)
  | "and" => some (.logic .and)
  | "or" => some (.logic .or)
  | "nor" => some (.logic .nor)
  | "isn't" | "isnt" | "ain't" | "aint" => some (.equality false)
  | _ => none

/-- The operator at the front of the tokens and how many of them belong to it. -/
def operator? (ts : List Token) : Option (BinaryOp × Nat) :=
  match ts with
  | [] => none
  | t :: rest =>
    match t.kind with
    | .plus => some (.arith .add, 1)
    | .minus => some (.arith .subtract, 1)
    | .star => some (.arith .multiply, 1)
    | .slash => some (.arith .divide, 1)
    | .word =>
      if t.isWord "is" then
        match comparison? rest with
        | some (op, width) => some (op, 1 + width)
        | none => some (.equality true, 1)
      else (wordOperator? t.lexeme).map (·, 1)
    | _ => none

/-! ## Operands and expressions -/

/-- Reads a literal, a negated operand or a variable. -/
def operand (r : Reader) : List Token → Except Failure (Expr × List Token)
  | [] => .error (r.failAt [] fun _ => .lineEnded "an expression")
  | t :: rest =>
    match t.literal? with
    | some value => .ok (.literal value t.span, rest)
    | none =>
      if t.isWord "not" then
        match operand r rest with
        | .ok (e, rest') => .ok (.negation t.span e, rest')
        | .error f => .error f
      else if t.kind = .word && !r.vocabulary.isKeyword t.lexeme then
        match r.variableRef (t :: rest) with
        | .ok (v, rest') => .ok (.variable v, rest')
        | .error f => .error f
      else .error (r.failAt (t :: rest) fun t => .expectedExpression t.describe)

theorem length_rest_of_variableRef {r : Reader} {ts rest : List Token} {v : Variable}
    (h : r.variableRef ts = .ok (v, rest)) : rest.length < ts.length := by
  unfold variableRef at h
  cases ts with
  | nil => simp at h
  | cons first tail =>
    simp only at h
    split at h
    · simp at h
    · split at h
      · simp only [Except.ok.injEq, Prod.mk.injEq] at h
        simp [← h.2]
      · split at h
        · cases tail with
          | nil => simp at h
          | cons next tail =>
            simp only at h
            split at h
            · simp only [Except.ok.injEq, Prod.mk.injEq] at h
              simp only [← h.2, List.length_cons]
              omega
            · simp at h
        · split at h
          · simp only [Except.ok.injEq, Prod.mk.injEq] at h
            simp only [← h.2, List.length_drop, List.length_cons]
            omega
          · simp only [Except.ok.injEq, Prod.mk.injEq] at h
            simp [← h.2]

/-- An operand takes at least one token. -/
theorem length_rest_of_operand {r : Reader} {ts rest : List Token} {e : Expr}
    (h : r.operand ts = .ok (e, rest)) : rest.length < ts.length := by
  induction ts generalizing e rest with
  | nil => simp [operand] at h
  | cons t tail ih =>
    rw [operand] at h
    split at h
    · simp only [Except.ok.injEq, Prod.mk.injEq] at h
      simp [← h.2]
    · split at h
      · split at h
        next e' rest' heq =>
          simp only [Except.ok.injEq, Prod.mk.injEq] at h
          have := ih heq
          rw [← h.2, List.length_cons]
          omega
        next => simp at h
      · split at h
        · split at h
          next v rest' heq =>
            simp only [Except.ok.injEq, Prod.mk.injEq] at h
            rw [← h.2]
            exact length_rest_of_variableRef heq
          next => simp at h
        · simp at h

/-- Reads operators and operands as long as they follow, and attaches them to what was read
before. -/
def continueExpr (r : Reader) (tree : Expr) (ts : List Token) :
    Except Failure (Expr × List Token) :=
  match operator? ts with
  | none => .ok (tree, ts)
  | some (op, width) =>
    match _h : r.operand (ts.drop width) with
    | .ok (right, rest) => continueExpr r (tree.attach op right) rest
    | .error f => .error f
termination_by ts.length
decreasing_by
  have := length_rest_of_operand _h
  rw [List.length_drop] at this
  omega

/-- Reads an expression. -/
def expr (r : Reader) (ts : List Token) : Except Failure (Expr × List Token) :=
  match r.operand ts with
  | .ok (first, rest) => r.continueExpr first rest
  | .error f => .error f

end Reader

end Rockstar
