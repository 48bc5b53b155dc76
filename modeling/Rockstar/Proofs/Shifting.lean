import Rockstar.Proofs.Uncommented

/-!
# Reading further down

A line is read alike wherever it stands in a source. `shift` moves spans, tokens, statements and
errors down by a number of lines. The scanner on a line further down finds the shifted tokens
(`scanFrom_shift`), and every reader commutes with shifting, whether it succeeds or fails
(`Reader.statement_shift`), so the statement or the errors of a line are those of the line where it
stood before, shifted (`Line.statement?_shift`).
-/

namespace Rockstar

/-! ## Moving spans -/

/-- The reference at another place. -/
def Variable.mapSpan (f : Span → Span) (v : Variable) : Variable := { v with span := f v.span }

/-- The expression with all its spans moved. -/
def Expr.mapSpan (f : Span → Span) : Expr → Expr
  | .literal v s => .literal v (f s)
  | .poetic x text s => .poetic x text (f s)
  | .variable v => .variable (v.mapSpan f)
  | .binary op l r => .binary op (l.mapSpan f) (r.mapSpan f)
  | .negation word e => .negation (f word) (e.mapSpan f)

/-- The statement with all its spans moved. -/
def Statement.mapSpan (f : Span → Span) : Statement → Statement
  | .assign target value s => .assign (target.mapSpan f) (value.mapSpan f) (f s)
  | .output verb value s => .output verb (value.mapSpan f) (f s)
  | .step direction target count s => .step direction (target.mapSpan f) count (f s)

/-- Operators are attached by their levels, wherever they stand. -/
theorem Expr.attach_mapSpan (f : Span → Span) (tree : Expr) (op : BinaryOp) (right : Expr) :
    (tree.mapSpan f).attach op (right.mapSpan f) = (tree.attach op right).mapSpan f := by
  induction tree with
  | binary op' l r _ ihr =>
    simp only [mapSpan, attach]
    split
    · simp only [mapSpan, ihr]
    · rfl
  | _ => rfl

/-! ## What is shifted -/

/-- The span on a line further down. -/
def Span.shift (k : Nat) (s : Span) : Span := { s with line := s.line + k }

@[simp] theorem Span.join_shift (k : Nat) (a b : Span) :
    (a.shift k).join (b.shift k) = (a.join b).shift k := by
  simp only [join, shift, endCol, Nat.add_right_cancel_iff]
  split <;> rfl

/-- The fault of the scanner on a line further down. -/
def ScanError.shift (k : Nat) : ScanError → ScanError
  | .unexpectedChar c s => .unexpectedChar c (s.shift k)
  | .unterminatedString s => .unterminatedString (s.shift k)
  | .unterminatedComment s => .unterminatedComment (s.shift k)

theorem ScanError.span_shift (k : Nat) (e : ScanError) : (e.shift k).span = e.span.shift k := by
  cases e <;> rfl

/-- A fault carries the place where it stands; the other kinds have none. -/
def TokenKind.shift (k : Nat) : TokenKind → TokenKind
  | .fault e => .fault (e.shift k)
  | kind => kind

/-- The token `k` lines and `b` bytes further down. -/
def Token.shift (k b : Nat) (t : Token) : Token :=
  { t with kind := t.kind.shift k, span := t.span.shift k, offset := t.offset + b }

/-- The reference on a line further down. -/
def Variable.shift (k : Nat) (v : Variable) : Variable := v.mapSpan (Span.shift k)

/-- The expression on a line further down. -/
def Expr.shift (k : Nat) (e : Expr) : Expr := e.mapSpan (Span.shift k)

/-- The statement on a line further down. -/
def Statement.shift (k : Nat) (stmt : Statement) : Statement := stmt.mapSpan (Span.shift k)

/-- The cause of an error on a line further down: only a fault of the scanner names a place. -/
def ParseCause.shift (k : Nat) : ParseCause → ParseCause
  | .scan e => .scan (e.shift k)
  | cause => cause

/-- The error on a line further down. -/
def ParseError.shift (k : Nat) (e : ParseError) : ParseError := ⟨e.cause.shift k, e.span.shift k⟩

/-- The kind of an error does not depend on its place. -/
theorem ParseError.kind_shift (k : Nat) (e : ParseError) :
    (e.shift k).cause.kind = e.cause.kind := by
  obtain ⟨cause, span⟩ := e
  cases cause <;> rfl

theorem ParseError.ofScan_shift (k : Nat) (e : ScanError) :
    ofScan (e.shift k) = (ofScan e).shift k := by
  cases e <;> rfl

@[simp] theorem Expr.span_shift (k : Nat) (e : Expr) : (e.shift k).span = e.span.shift k := by
  induction e with
  | literal v s => rfl
  | poetic x text s => rfl
  | «variable» v => rfl
  | binary op l r ihl ihr =>
    show (l.shift k).span.join (r.shift k).span = _
    rw [ihl, ihr, Span.join_shift]
    rfl
  | negation word e ih =>
    show (word.shift k).join (e.shift k).span = _
    rw [ih, Span.join_shift]
    rfl

/-! ## Tokens -/

namespace Token

variable (k b : Nat) (t : Token)

@[simp] theorem lexeme_shift : (t.shift k b).lexeme = t.lexeme := rfl

@[simp] theorem span_shift : (t.shift k b).span = t.span.shift k := rfl

@[simp] theorem onward_shift : (t.shift k b).onward = t.onward := rfl

@[simp] theorem behind_shift : (t.shift k b).behind = t.behind := rfl

@[simp] theorem kind_shift : (t.shift k b).kind = t.kind.shift k := rfl

@[simp] theorem shift_eq_word (kind : TokenKind) : kind.shift k = .word ↔ kind = .word := by
  cases kind <;> simp [TokenKind.shift]

@[simp] theorem shift_eq_comma (kind : TokenKind) : kind.shift k = .comma ↔ kind = .comma := by
  cases kind <;> simp [TokenKind.shift]

@[simp] theorem isTrailing_shift (kind : TokenKind) :
    (kind.shift k).isTrailing = kind.isTrailing := by
  cases kind <;> rfl

@[simp] theorem endsLine_shift (kind : TokenKind) : (kind.shift k).endsLine = kind.endsLine := by
  cases kind <;> rfl

@[simp] theorem isWord_shift (word : String) : (t.shift k b).isWord word = t.isWord word := by
  have hword : decide ((t.shift k b).kind = .word) = decide (t.kind = .word) :=
    decide_eq_decide.mpr (shift_eq_word k t.kind)
  rw [isWord, hword]
  rfl

@[simp] theorem isWordIn_shift (words : List String) :
    (t.shift k b).isWordIn words = t.isWordIn words := by
  simp [isWordIn, funext (isWord_shift k b t)]

@[simp] theorem isCapitalised_shift : (t.shift k b).isCapitalised = t.isCapitalised := rfl

@[simp] theorem literal?_shift : (t.shift k b).literal? = t.literal? := by
  cases h : t.kind <;> simp [literal?, h, TokenKind.shift]

@[simp] theorem describe_shift : (t.shift k b).describe = t.describe := by
  cases h : t.kind <;> simp [describe, h, TokenKind.shift]

theorem fault?_shift : (t.shift k b).fault? = t.fault?.map (ScanError.shift k) := by
  cases h : t.kind <;> simp [fault?, h, TokenKind.shift]

end Token

/-- The place on a line further down. -/
def Place.shift (k b : Nat) (p : Place) : Place := ⟨p.line + k, p.col, p.offset + b⟩

namespace Piece

/-- The symbols of a line are operators and punctuation. -/
theorem kind_of_symbol {c d : Char} {cs : List Char} {kind : TokenKind}
    (h : first c cs = .symbol kind d) :
    kind ∈ [.plus, .minus, .star, .slash, .comma, .mark] := by
  have hkind : symbolKind? c = some kind := by
    unfold first ofWord at h
    grind
  unfold symbolKind? at hkind
  split at hkind <;> simp_all

theorem tokens_shift (k b : Nat) {p : Piece}
    (hp : ∀ kind c, p = .symbol kind c → kind.shift k = kind) (place : Place)
    (onward behind : List Char) :
    p.tokens (place.shift k b) onward behind =
      (p.tokens place onward behind).map (Token.shift k b) := by
  cases p with
  | openComment body =>
    simp [tokens, Token.shift, TokenKind.shift, ScanError.shift, Span.shift, Place.span,
      Place.shift, Nat.add_right_comm]
  | symbol kind c =>
    simp [tokens, Token.shift, Span.shift, Place.span, Place.shift, hp kind c rfl]
  | contraction stem s =>
    simp [tokens, Token.shift, TokenKind.shift, Span.shift, Place.span, Place.shift,
      Place.advance, Nat.add_right_comm]
  | _ => rfl

theorem tokens_first_shift (k b : Nat) (c : Char) (cs : List Char) (place : Place)
    (onward behind : List Char) :
    (first c cs).tokens (place.shift k b) onward behind =
      ((first c cs).tokens place onward behind).map (Token.shift k b) := by
  refine tokens_shift k b (fun kind d hsymbol => ?_) place onward behind
  have hkind := kind_of_symbol hsymbol
  simp only [List.mem_cons, List.not_mem_nil, or_false] at hkind
  rcases hkind with rfl | rfl | rfl | rfl | rfl | rfl <;> rfl

end Piece

theorem scanFrom_shift (k b : Nat) (place : Place) (cs : List Char) :
    scanFrom (place.shift k b) cs = (scanFrom place cs).map (Token.shift k b) := by
  fun_induction scanFrom place cs with
  | case1 place => simp [scanFrom]
  | case2 place c cs piece ih =>
    have hadvance : (place.shift k b).advance piece.size =
        (place.advance piece.size).shift k b := by
      simp [Place.advance, Place.shift, Nat.add_right_comm]
    rw [scanFrom, List.map_append, ← Piece.tokens_first_shift, ← ih, ← hadvance]

/-! ## Readers -/

/-- The failure on a line further down. -/
def Failure.shift (k b : Nat) (f : Failure) : Failure :=
  ⟨f.error.shift k, f.rest.map (Token.shift k b)⟩

/-- What a reader returns on a line further down, where `g` shifts its results. -/
def shiftResult {α : Type} (k b : Nat) (g : α → α) :
    Except Failure (α × List Token) → Except Failure (α × List Token)
  | .ok (a, rest) => .ok (g a, rest.map (Token.shift k b))
  | .error f => .error (f.shift k b)

/-- Two readers in a row commute with shifting if both do. -/
theorem shiftResult_bind {α β : Type} (k b : Nat) {g : α → α} {h : β → β}
    {x : Except Failure (α × List Token)}
    {f f' : α × List Token → Except Failure (β × List Token)}
    (hf : ∀ a rest, f' (g a, rest.map (Token.shift k b)) = shiftResult k b h (f (a, rest))) :
    (shiftResult k b g x >>= f') = shiftResult k b h (x >>= f) := by
  cases x with
  | error e => rfl
  | ok result => exact hf result.1 result.2

/-- A choice commutes with shifting if both sides do. -/
theorem shiftResult_ite {α : Type} (k b : Nat) {g : α → α} {c c' : Prop} [Decidable c]
    [Decidable c'] {x y x' y' : Except Failure (α × List Token)} (hc : c' ↔ c)
    (hx : x' = shiftResult k b g x) (hy : y' = shiftResult k b g y) :
    (if c' then x' else y') = shiftResult k b g (if c then x else y) := by
  by_cases h : c
  · rw [if_pos h, if_pos (hc.mpr h), hx]
  · rw [if_neg h, if_neg (mt hc.mp h), hy]

namespace Reader

/-- The reader of a line further down. -/
def shift (k b : Nat) (r : Reader) : Reader := ⟨r.vocabulary, r.stop.shift k b⟩

variable (r : Reader) (k b : Nat)

/-- The cause of a failure depends on the token only by what is not shifted. -/
theorem failAt_shift (ts : List Token) {cause : Token → ParseCause}
    (hcause : ∀ t, cause (t.shift k b) = (cause t).shift k) :
    (r.shift k b).failAt (ts.map (Token.shift k b)) cause = (r.failAt ts cause).shift k b := by
  cases ts with
  | nil => simp [failAt, Failure.shift, ParseError.shift, shift, hcause]
  | cons t rest =>
    cases hkind : t.kind <;>
      simp [failAt, Failure.shift, ParseError.shift, hcause, hkind, TokenKind.shift,
        ParseError.ofScan, ParseCause.shift, ScanError.span_shift]

theorem missing_shift (expected : String) (t : Token) :
    missing expected (t.shift k b) = (missing expected t).shift k := by
  unfold missing
  simp only [Token.kind_shift, Token.endsLine_shift, Token.describe_shift]
  split <;> rfl

theorem word_shift (word : String) (ts : List Token) :
    (r.shift k b).word word (ts.map (Token.shift k b)) =
      shiftResult k b (Token.shift k b) (r.word word ts) := by
  have hfail := failAt_shift r k b ts (missing_shift k b s!"'{word}'")
  cases ts with
  | nil => exact congrArg Except.error hfail
  | cons t rest =>
    simp only [List.map_cons, Reader.word]
    refine shiftResult_ite k b (by rw [Token.isWord_shift]) rfl ?_
    exact congrArg Except.error hfail

theorem reference_shift (first last : Token) :
    reference (first.shift k b) (last.shift k b) = (reference first last).shift k := by
  unfold reference Variable.shift Variable.mapSpan
  simp only [Token.span_shift, Token.onward_shift, Span.join_shift]
  rfl

theorem continuesName_shift (t : Token) :
    (r.shift k b).continuesName (t.shift k b) = r.continuesName t := by
  have hword : decide ((t.shift k b).kind = .word) = decide (t.kind = .word) :=
    decide_eq_decide.mpr (Token.shift_eq_word k t.kind)
  unfold continuesName
  rw [hword]
  rfl

theorem variableRef_shift (ts : List Token) :
    (r.shift k b).variableRef (ts.map (Token.shift k b)) =
      shiftResult k b (Variable.shift k) (r.variableRef ts) := by
  have hfail : ∀ ts : List Token,
      (r.shift k b).failAt (ts.map (Token.shift k b)) (fun t => .expectedVariable t.describe) =
        (r.failAt ts fun t => .expectedVariable t.describe).shift k b := by
    intro ts
    refine failAt_shift r k b ts fun t => ?_
    simp only [Token.describe_shift]
    rfl
  cases ts with
  | nil => exact congrArg Except.error (failAt_shift r k b [] fun _ => rfl)
  | cons first rest =>
    simp only [List.map_cons, variableRef]
    refine shiftResult_ite k b ?_ (congrArg Except.error (hfail (first :: rest))) ?_
    · simp [shift]
    refine shiftResult_ite k b Iff.rfl ?_ ?_
    · exact congrArg (fun v => Except.ok (v, _)) (reference_shift k b first first)
    refine shiftResult_ite k b Iff.rfl ?_ (shiftResult_ite k b Iff.rfl ?_ ?_)
    · cases rest with
      | nil => exact congrArg Except.error (hfail [])
      | cons next rest =>
        simp only [List.map_cons]
        refine shiftResult_ite k b (by rw [continuesName_shift]) ?_
          (congrArg Except.error (hfail (next :: rest)))
        exact congrArg (fun v => Except.ok (v, _)) (reference_shift k b first next)
    · -- the words of the name are the same, so its last one is the same
      have hmore : (rest.map (Token.shift k b)).takeWhile
            (fun t => t.isCapitalised && (r.shift k b).continuesName t) =
          (rest.takeWhile fun t => t.isCapitalised && r.continuesName t).map
            (Token.shift k b) := by
        rw [List.takeWhile_map]
        congr 2
        funext t
        simp [continuesName_shift]
      rw [hmore, List.length_map, ← List.map_drop, List.getLast?_map, Option.getD_map]
      exact congrArg (fun v => Except.ok (v, _)) (reference_shift k b first _)
    · exact congrArg (fun v => Except.ok (v, _)) (reference_shift k b first first)

theorem comparison?_shift (ts : List Token) :
    comparison? (ts.map (Token.shift k b)) = comparison? ts := by
  match ts with
  | [] => rfl
  | [a] => simp [comparison?]
  | [a, c] => simp [comparison?]
  | a :: c :: d :: rest => simp [comparison?]

theorem operator?_shift (ts : List Token) :
    operator? (ts.map (Token.shift k b)) = operator? ts := by
  cases ts with
  | nil => rfl
  | cons t rest =>
    rw [List.map_cons, operator?, operator?, comparison?_shift]
    cases hkind : t.kind <;> simp [hkind, TokenKind.shift]

theorem operand_shift (ts : List Token) :
    (r.shift k b).operand (ts.map (Token.shift k b)) =
      shiftResult k b (Expr.shift k) (r.operand ts) := by
  induction ts with
  | nil => exact congrArg Except.error (failAt_shift r k b [] fun _ => rfl)
  | cons t rest ih =>
    have hvariable := variableRef_shift r k b (t :: rest)
    rw [List.map_cons] at hvariable ⊢
    rw [operand, operand, Token.literal?_shift]
    cases t.literal? with
    | some value => rfl
    | none =>
      refine shiftResult_ite k b (by rw [Token.isWord_shift]) ?_ (shiftResult_ite k b ?_ ?_ ?_)
      · rw [ih]
        cases r.operand rest <;> rfl
      · simp [shift]
      · rw [hvariable]
        cases r.variableRef (t :: rest) <;> rfl
      · refine congrArg Except.error (failAt_shift r k b (t :: rest) fun t => ?_)
        simp only [Token.describe_shift]
        rfl

theorem continueExpr_shift (tree : Expr) (ts : List Token) :
    (r.shift k b).continueExpr (tree.shift k) (ts.map (Token.shift k b)) =
      shiftResult k b (Expr.shift k) (r.continueExpr tree ts) := by
  fun_induction r.continueExpr tree ts with
  | case1 tree ts hop =>
    rw [continueExpr, operator?_shift, hop]
    rfl
  | case2 tree ts op width hop right rest hoperand ih =>
    -- the operator is the same on both lines, and so is the width of its words
    have hright := operand_shift r k b (ts.drop width)
    rw [hoperand, List.map_drop] at hright
    rw [continueExpr, operator?_shift, hop]
    dsimp only
    split
    next right' rest' hoperand' =>
      rw [hoperand'] at hright
      cases hright
      rw [Expr.shift, Expr.shift, Expr.attach_mapSpan, ← Expr.shift, ih]
    next f hoperand' =>
      rw [hoperand'] at hright
      cases hright
  | case3 tree ts op width hop f hoperand =>
    have hright := operand_shift r k b (ts.drop width)
    rw [hoperand, List.map_drop] at hright
    rw [continueExpr, operator?_shift, hop]
    dsimp only
    split
    next right' rest' hoperand' =>
      rw [hoperand'] at hright
      cases hright
    next f' hoperand' =>
      rw [hoperand'] at hright
      cases hright
      rfl

theorem expr_shift (ts : List Token) :
    (r.shift k b).expr (ts.map (Token.shift k b)) =
      shiftResult k b (Expr.shift k) (r.expr ts) := by
  unfold expr
  rw [operand_shift]
  cases r.operand ts with
  | error f => rfl
  | ok result => exact continueExpr_shift r k b result.1 result.2

/-! ## Statements -/

theorem putStatement_shift (start : Span) (ts : List Token) :
    (r.shift k b).putStatement (start.shift k) (ts.map (Token.shift k b)) =
      shiftResult k b (Statement.shift k) (r.putStatement start ts) := by
  unfold putStatement
  rw [expr_shift]
  refine shiftResult_bind k b fun value ts => ?_
  dsimp only
  rw [word_shift]
  refine shiftResult_bind k b fun _ ts => ?_
  dsimp only
  rw [variableRef_shift]
  refine shiftResult_bind k b fun target ts => ?_
  show Except.ok (Statement.assign _ _ ((start.shift k).join (target.span.shift k)), _) = _
  rw [Span.join_shift]
  rfl

theorem letStatement_shift (start : Span) (ts : List Token) :
    (r.shift k b).letStatement (start.shift k) (ts.map (Token.shift k b)) =
      shiftResult k b (Statement.shift k) (r.letStatement start ts) := by
  unfold letStatement
  rw [variableRef_shift]
  refine shiftResult_bind k b fun target ts => ?_
  dsimp only
  rw [word_shift]
  refine shiftResult_bind k b fun _ ts => ?_
  dsimp only
  rw [expr_shift]
  refine shiftResult_bind k b fun value ts => ?_
  dsimp only
  rw [Expr.span_shift, Span.join_shift]
  rfl

theorem outputStatement_shift (verb : Verb) (start : Span) (ts : List Token) :
    (r.shift k b).outputStatement verb (start.shift k) (ts.map (Token.shift k b)) =
      shiftResult k b (Statement.shift k) (r.outputStatement verb start ts) := by
  unfold outputStatement
  rw [expr_shift]
  refine shiftResult_bind k b fun value ts => ?_
  dsimp only
  rw [Expr.span_shift, Span.join_shift]
  rfl

theorem countSteps_shift (word : String) (count : Nat) (last : Span) (ts : List Token) :
    countSteps word count (last.shift k) (ts.map (Token.shift k b)) =
      ((countSteps word count last ts).1, (countSteps word count last ts).2.1.shift k,
        (countSteps word count last ts).2.2.map (Token.shift k b)) := by
  induction ts generalizing count last with
  | nil => rfl
  | cons t ts ih =>
    have hhead : (ts.map (Token.shift k b)).head?.any (·.isWord word) =
        ts.head?.any (·.isWord word) := by
      cases ts <;> simp
    have hcomma : decide ((t.shift k b).kind = .comma) = decide (t.kind = .comma) :=
      decide_eq_decide.mpr (Token.shift_eq_comma k t.kind)
    rw [List.map_cons, countSteps, countSteps, hhead, hcomma, Token.isWord_shift,
      Token.span_shift]
    split
    · exact ih _ _
    · split
      · exact ih _ _
      · rfl

theorem stepStatement_shift (direction : Direction) (start : Span) (ts : List Token) :
    (r.shift k b).stepStatement direction (start.shift k) (ts.map (Token.shift k b)) =
      shiftResult k b (Statement.shift k) (r.stepStatement direction start ts) := by
  unfold stepStatement
  rw [variableRef_shift]
  refine shiftResult_bind k b fun target ts => ?_
  dsimp only
  rw [show (target.shift k).span = target.span.shift k from rfl, countSteps_shift]
  refine shiftResult_ite k b Iff.rfl ?_ ?_
  · exact congrArg Except.error (failAt_shift r k b ts (missing_shift k b _))
  · dsimp only
    rw [Span.join_shift]
    rfl

theorem spanTo_shift (first : Token) (ts : List Token) :
    spanTo (first.shift k b) (ts.map (Token.shift k b)) = (spanTo first ts).shift k := by
  unfold spanTo
  rw [List.getLast?_map]
  cases ts.getLast? with
  | none => rfl
  | some last => exact Span.join_shift k first.span last.span

theorem isValue_shift (verb : Token) (ts : List Token) :
    (r.shift k b).isValue (verb.shift k b) (ts.map (Token.shift k b)) =
      shiftResult k b (Expr.shift k) (r.isValue verb ts) := by
  cases ts with
  | nil => exact congrArg Except.error (failAt_shift r k b [] fun _ => rfl)
  | cons first rest =>
    have halone : (rest.map (Token.shift k b)).all (·.kind.isTrailing) =
        rest.all (·.kind.isTrailing) := by
      simp [List.all_map, Function.comp_def]
    unfold isValue
    simp only [List.map_cons, Token.kind_shift, Token.literal?_shift, Token.behind_shift,
      Token.span_shift, halone, spanTo_shift]
    cases hkind : first.kind with
    | fault e =>
      simp only [TokenKind.shift, shiftResult, Failure.shift, ParseError.ofScan_shift]
    | _ =>
      generalize (if rest.all _ then first.literal? else none) = value?
      cases value? with
      | some value => rfl
      | none => cases Poetic.number? verb.behind <;> rfl

theorem spokenValue_shift (verb : Token) (ts : List Token) :
    spokenValue (verb.shift k b) (ts.map (Token.shift k b)) = (spokenValue verb ts).shift k := by
  unfold spokenValue
  rw [spanTo_shift]
  rfl

theorem nameStatement_shift (ts : List Token) :
    (r.shift k b).nameStatement (ts.map (Token.shift k b)) =
      shiftResult k b (Statement.shift k) (r.nameStatement ts) := by
  unfold nameStatement
  rw [variableRef_shift]
  refine shiftResult_bind k b fun target ts => ?_
  have hwrong : (r.shift k b).failAt (ts.map (Token.shift k b))
        (fun t => .expectedToken "'is' or 'says'" t.describe) =
      (r.failAt ts fun t => .expectedToken "'is' or 'says'" t.describe).shift k b := by
    refine failAt_shift r k b ts fun t => ?_
    simp only [Token.describe_shift]
    rfl
  dsimp only
  cases ts with
  | nil => exact congrArg Except.error hwrong
  | cons verb rest =>
    simp only [List.map_cons]
    refine shiftResult_ite k b (by rw [Token.isWordIn_shift]) ?_
      (shiftResult_ite k b (by rw [Token.isWordIn_shift]) ?_ (congrArg Except.error hwrong))
    · rw [isValue_shift]
      refine shiftResult_bind k b fun value rest => ?_
      dsimp only
      rw [Expr.span_shift, show (target.shift k).span = target.span.shift k from rfl,
        Span.join_shift]
      rfl
    · rw [spokenValue_shift, Expr.span_shift,
        show (target.shift k).span = target.span.shift k from rfl, Span.join_shift]
      rfl

/-- A statement is read alike on a line further down. -/
theorem statement_shift (ts : List Token) :
    (r.shift k b).statement (ts.map (Token.shift k b)) =
      shiftResult k b (Statement.shift k) (r.statement ts) := by
  have hunknown : (r.shift k b).failAt (ts.map (Token.shift k b))
        (fun t => .expectedStatement t.describe) =
      (r.failAt ts fun t => .expectedStatement t.describe).shift k b := by
    refine failAt_shift r k b ts fun t => ?_
    simp only [Token.describe_shift]
    rfl
  cases ts with
  | nil => exact congrArg Except.error hunknown
  | cons t rest =>
    have hname := nameStatement_shift r k b (t :: rest)
    simp only [List.map_cons] at hunknown hname ⊢
    unfold statement
    dsimp only
    refine shiftResult_ite k b (by simp) (congrArg Except.error hunknown) ?_
    refine shiftResult_ite k b (by rw [Token.isWord_shift]) (putStatement_shift r k b _ _) ?_
    refine shiftResult_ite k b (by rw [Token.isWord_shift]) (letStatement_shift r k b _ _) ?_
    rw [Token.lexeme_shift]
    cases Verb.ofWord? t.lexeme with
    | some verb => exact outputStatement_shift r k b verb _ _
    | none =>
      refine shiftResult_ite k b (by rw [Token.isWord_shift]) (stepStatement_shift r k b _ _ _) ?_
      refine shiftResult_ite k b (by rw [Token.isWord_shift]) (stepStatement_shift r k b _ _ _) ?_
      exact shiftResult_ite k b Iff.rfl (congrArg Except.error hunknown) hname

end Reader

/-! ## Lines -/

namespace Line

/-- The line `k` lines and `b` bytes further down. -/
def shift (k b : Nat) (l : Line) : Line := { l with number := l.number + k, start := l.start + b }

variable (k b : Nat) (l : Line)

theorem tokens_shift : (l.shift k b).tokens = l.tokens.map (Token.shift k b) :=
  scanFrom_shift k b l.place l.text

theorem stop_shift : (l.shift k b).stop = l.stop.shift k b := by
  obtain ⟨number, start, text, isLast⟩ := l
  cases isLast <;>
    simp [stop, shift, Token.shift, TokenKind.shift, Span.shift, endSpan, Nat.add_right_comm]

/-- The errors of a line whose reading failed, further down. -/
theorem errors_shift (f : Failure) :
    (f.shift k b).error ::
        ((f.shift k b).rest.filterMap Token.fault?).map ParseError.ofScan =
      (f.error :: (f.rest.filterMap Token.fault?).map ParseError.ofScan).map
        (ParseError.shift k) := by
  have hfaults : (f.rest.map (Token.shift k b)).filterMap Token.fault? =
      (f.rest.filterMap Token.fault?).map (ScanError.shift k) := by
    rw [List.filterMap_map, List.map_filterMap]
    congr 1
    funext t
    exact Token.fault?_shift k b t
  rw [List.map_cons, Failure.shift, hfaults, List.map_map, List.map_map]
  congr 2
  funext e
  exact ParseError.ofScan_shift k e

/-- The statement or the errors of a line are the same further down, but for their place. -/
theorem statement?_shift (v : Vocabulary) :
    (l.shift k b).statement? v =
      (l.statement? v).map fun
        | .ok stmt => .ok (stmt.shift k)
        | .error es => .error (es.map (ParseError.shift k)) := by
  have hread := Reader.statement_shift ⟨v, l.stop⟩ k b l.tokens
  unfold statement?
  rw [tokens_shift, stop_shift]
  cases htokens : l.tokens with
  | nil => rfl
  | cons t ts =>
    rw [htokens] at hread
    have hreader : Reader.mk v (l.stop.shift k b) = (Reader.mk v l.stop).shift k b := rfl
    simp only [List.map_cons, hreader] at hread ⊢
    unfold Reader.wholeLine
    rw [hread]
    cases (Reader.mk v l.stop).statement (t :: ts) with
    | error f =>
      show some (Except.error _) = some (Except.error _)
      rw [errors_shift]
    | ok result =>
      obtain ⟨stmt, rest⟩ := result
      have hdrop : (rest.map (Token.shift k b)).dropWhile (·.kind.isTrailing) =
          (rest.dropWhile (·.kind.isTrailing)).map (Token.shift k b) := by
        rw [List.dropWhile_map]
        congr 2
        funext t
        exact Token.isTrailing_shift k t.kind
      simp only [shiftResult, bind, Except.bind]
      rw [hdrop]
      cases rest.dropWhile (·.kind.isTrailing) with
      | nil => rfl
      | cons u us =>
        -- something is left over, here as there
        have hfail : ((Reader.mk v l.stop).shift k b).failAt ((u :: us).map (Token.shift k b))
            (fun t => .unexpectedToken t.describe) =
            ((Reader.mk v l.stop).failAt (u :: us) fun t => .unexpectedToken t.describe).shift
              k b := by
          refine Reader.failAt_shift ⟨v, l.stop⟩ k b (u :: us) fun t => ?_
          simp only [Token.describe_shift]
          rfl
        simp only [List.map_cons] at hfail ⊢
        rw [hfail, errors_shift]
        rfl

end Line

end Rockstar
