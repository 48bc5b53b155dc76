import Rockstar.Proofs.Spelling

/-!
# Reading a line without its comments

Once the comments of a line are overwritten, its tokens are the same but for the text of the line
that they carry along. Readers go by kind and lexeme, so they take the same steps on both lines
(`Mirrors`). Two readers cut text out of the line, and there a comment can make a difference: a
reference is the text from its first word to its last one, comments included, and a poetic number
is counted by its own rule of what a comment is. `Statement.Undisturbed` says that neither happens,
and `Statement.Reread` what is left to say of a statement otherwise. A statement is read again
unless it holds a poetic number that is none without its comments (`Statement.Legible`).
-/

namespace Rockstar

/-! ## What a comment can disturb -/

/-- No comment stands between the words of the reference. -/
def Variable.Undisturbed (v : Variable) : Prop := '(' ∉ v.text.toList

instance (v : Variable) : Decidable v.Undisturbed := by
  unfold Variable.Undisturbed
  infer_instance

/-- No comment stands inside a reference, and a poetic number is the same without its comments. -/
def Expr.Undisturbed : Expr → Prop
  | .literal _ _ => True
  | .poetic x text _ => Poetic.number? (overwrite 0 text.toList) = some x
  | .variable v => v.Undisturbed
  | .binary _ l r => l.Undisturbed ∧ r.Undisturbed
  | .negation _ e => e.Undisturbed

instance Expr.decidableUndisturbed : (e : Expr) → Decidable e.Undisturbed
  | .literal _ _ => inferInstanceAs (Decidable True)
  | .poetic x text _ =>
    inferInstanceAs (Decidable (Poetic.number? (overwrite 0 text.toList) = some x))
  | .variable v => inferInstanceAs (Decidable v.Undisturbed)
  | .binary _ l r =>
    have := decidableUndisturbed l
    have := decidableUndisturbed r
    inferInstanceAs (Decidable (l.Undisturbed ∧ r.Undisturbed))
  | .negation _ e => decidableUndisturbed e

@[inherit_doc Expr.Undisturbed]
def Statement.Undisturbed : Statement → Prop
  | .assign target value _ => target.Undisturbed ∧ value.Undisturbed
  | .output _ value _ => value.Undisturbed
  | .step _ target _ _ => target.Undisturbed

instance (stmt : Statement) : Decidable stmt.Undisturbed := by
  cases stmt <;> unfold Statement.Undisturbed <;> infer_instance

/-- A poetic number is a number without its comments, too. -/
def Expr.Legible : Expr → Prop
  | .poetic _ text _ => (Poetic.number? (overwrite 0 text.toList)).isSome = true
  | _ => True

@[inherit_doc Expr.Legible]
def Statement.Legible : Statement → Prop
  | .assign _ value _ => value.Legible
  | _ => True

instance (e : Expr) : Decidable e.Legible := by
  cases e <;> unfold Expr.Legible <;> infer_instance

instance (stmt : Statement) : Decidable stmt.Legible := by
  cases stmt <;> unfold Statement.Legible <;> infer_instance

theorem Statement.Undisturbed.legible {stmt : Statement} (h : stmt.Undisturbed) :
    stmt.Legible := by
  cases stmt with
  | assign target value span =>
    cases value with
    | poetic x text span =>
      have hnumber : Poetic.number? (overwrite 0 text.toList) = some x := h.2
      show (Poetic.number? (overwrite 0 text.toList)).isSome = true
      rw [hnumber]
      rfl
    | _ => trivial
  | _ => trivial

/-- The second reference is the first one, read again without comments. -/
structure Variable.Reread (v v' : Variable) : Prop where
  span : v'.span = v.span
  text : v.Undisturbed → v'.text = v.text

/-- The second expression is the first one, read again without comments. -/
inductive Expr.Reread : Expr → Expr → Prop where
  | literal (v : Value) (s : Span) : Reread (.literal v s) (.literal v s)
  | poetic (x : Float) {x' : Float} {text text' : String} (s : Span) :
      Poetic.number? (overwrite 0 text.toList) = some x' →
      Reread (.poetic x text s) (.poetic x' text' s)
  | «variable» {v v' : Variable} : v.Reread v' → Reread (.variable v) (.variable v')
  | binary (op : BinaryOp) {l l' r r' : Expr} : Reread l l' → Reread r r' →
      Reread (.binary op l r) (.binary op l' r')
  | negation (word : Span) {e e' : Expr} : Reread e e' →
      Reread (.negation word e) (.negation word e')

/-- The second statement is the first one, read again without comments. -/
inductive Statement.Reread : Statement → Statement → Prop where
  | assign {target target' : Variable} {value value' : Expr} (s : Span) :
      target.Reread target' → value.Reread value' →
      Reread (.assign target value s) (.assign target' value' s)
  | output (verb : Verb) {value value' : Expr} (s : Span) : value.Reread value' →
      Reread (.output verb value s) (.output verb value' s)
  | step (direction : Direction) {target target' : Variable} (n : Nat) (s : Span) :
      target.Reread target' → Reread (.step direction target n s) (.step direction target' n s)

theorem Expr.Reread.span_eq {e e' : Expr} (h : e.Reread e') : e'.span = e.span := by
  induction h with
  | literal v s => rfl
  | poetic x s _ => rfl
  | «variable» hv => exact hv.span
  | binary op _ _ ihl ihr => rw [span, span, ihl, ihr]
  | negation word _ ih => rw [span, span, ih]

theorem Expr.Reread.isBefore_eq {e e' : Expr} (h : e.Reread e') (target : Variable) :
    target.isBefore e' = target.isBefore e := by
  unfold Variable.isBefore
  rw [h.span_eq]

/-- What was read again is legible. -/
theorem Statement.Reread.legible {stmt stmt' : Statement} (h : stmt.Reread stmt') :
    stmt.Legible := by
  cases h with
  | assign span _ hvalue =>
    cases hvalue with
    | poetic x span hx => exact Option.isSome_iff_exists.mpr ⟨_, hx⟩
    | _ => trivial
  | _ => trivial

theorem Expr.Reread.attach {tree tree' right right' : Expr} (h : tree.Reread tree')
    (op : BinaryOp) (hright : right.Reread right') :
    (tree.attach op right).Reread (tree'.attach op right') := by
  induction h with
  | binary op' hl hr _ ihr =>
    rw [Expr.attach, Expr.attach]
    split
    · exact .binary op' hl ihr
    · exact .binary op (.binary op' hl hr) hright
  | literal v s => exact .binary op (.literal v s) hright
  | poetic x s hx => exact .binary op (.poetic x s hx) hright
  | «variable» hv => exact .binary op (.variable hv) hright
  | negation word he _ => exact .binary op (.negation word he) hright

/-! ## Readers in step -/

/-- Two errors of the same kind at the same place. -/
def ParseError.Same (e e' : ParseError) : Prop :=
  e'.cause.kind = e.cause.kind ∧ e'.span = e.span

theorem ParseError.Same.refl (e : ParseError) : e.Same e := ⟨rfl, rfl⟩

/-- What a reader makes of a line, and what it makes of the line without comments: results that are
related, or errors of the same kind at the same place, and in both cases the same tokens behind
it. `Lost` are the results that can be missing on the line without comments; they take the whole
rest of the line. -/
inductive Mirrors (keep : Nat) {α : Type} (R : α → α → Prop) (Lost : α → Prop) :
    Except Failure (α × List Token) → Except Failure (α × List Token) → Prop where
  | ok {a a' : α} (rest : List Token) : R a a' →
      Mirrors keep R Lost (.ok (a, rest)) (.ok (a', rest.map (Token.overwrite keep)))
  | error {e e' : ParseError} (rest : List Token) : e.Same e' →
      Mirrors keep R Lost (.error ⟨e, rest⟩) (.error ⟨e', rest.map (Token.overwrite keep)⟩)
  | lost {a : α} (f : Failure) : Lost a → Mirrors keep R Lost (.ok (a, [])) (.error f)

/-- Nothing can be missing. -/
def Never {α : Type} (_ : α) : Prop := False

theorem Mirrors.bind {keep : Nat} {α β : Type} {R : α → α → Prop} {S : β → β → Prop}
    {Lost' : β → Prop} {x x' : Except Failure (α × List Token)}
    {g g' : α × List Token → Except Failure (β × List Token)} (h : Mirrors keep R Never x x')
    (hg : ∀ a a' rest, R a a' →
      Mirrors keep S Lost' (g (a, rest)) (g' (a', rest.map (Token.overwrite keep)))) :
    Mirrors keep S Lost' (x >>= g) (x' >>= g') := by
  cases h with
  | ok rest hR => exact hg _ _ rest hR
  | error rest hsame => exact .error rest hsame
  | lost f hlost => exact hlost.elim

theorem Mirrors.of_never {keep : Nat} {α : Type} {R : α → α → Prop} {Lost : α → Prop}
    {x x' : Except Failure (α × List Token)} (h : Mirrors keep R Never x x') :
    Mirrors keep R Lost x x' := by
  cases h with
  | ok rest hR => exact .ok rest hR
  | error rest hsame => exact .error rest hsame
  | lost f hlost => exact hlost.elim

theorem Mirrors.ite {keep : Nat} {α : Type} {R : α → α → Prop} {Lost : α → Prop} {c : Prop}
    [Decidable c] {x x' y y' : Except Failure (α × List Token)}
    (hx : c → Mirrors keep R Lost x x') (hy : ¬c → Mirrors keep R Lost y y') :
    Mirrors keep R Lost (if c then x else y) (if c then x' else y') := by
  by_cases hc : c
  · rw [if_pos hc, if_pos hc]
    exact hx hc
  · rw [if_neg hc, if_neg hc]
    exact hy hc

namespace Token

variable (keep : Nat) (t : Token)

@[simp] theorem kind_overwrite : (t.overwrite keep).kind = t.kind := rfl

@[simp] theorem lexeme_overwrite : (t.overwrite keep).lexeme = t.lexeme := rfl

@[simp] theorem span_overwrite : (t.overwrite keep).span = t.span := rfl

@[simp] theorem isWord_overwrite (word : String) :
    (t.overwrite keep).isWord word = t.isWord word := rfl

@[simp] theorem isWordIn_overwrite (words : List String) :
    (t.overwrite keep).isWordIn words = t.isWordIn words := rfl

@[simp] theorem literal?_overwrite : (t.overwrite keep).literal? = t.literal? := rfl

@[simp] theorem describe_overwrite : (t.overwrite keep).describe = t.describe := rfl

@[simp] theorem fault?_overwrite : (t.overwrite keep).fault? = t.fault? := rfl

end Token

namespace Reader

variable {r : Reader} {keep : Nat}

theorem mirrors_failAt {α : Type} {R : α → α → Prop} {Lost : α → Prop} (ts : List Token)
    {cause : Token → ParseCause} (hcause : ∀ t, cause (t.overwrite keep) = cause t) :
    Mirrors keep R Lost (.error (r.failAt ts cause))
      (.error (r.failAt (ts.map (Token.overwrite keep)) cause)) := by
  cases ts with
  | nil => exact .error [] (.refl _)
  | cons t rest =>
    rw [List.map_cons, failAt, failAt, Token.kind_overwrite, hcause, Token.span_overwrite]
    split
    · exact .error rest (.refl _)
    · exact .error rest (.refl _)

variable (r) (keep)

theorem mirrors_word (word : String) (ts : List Token) :
    Mirrors keep (fun _ _ => True) Never (r.word word ts)
      (r.word word (ts.map (Token.overwrite keep))) := by
  cases ts with
  | nil => exact mirrors_failAt [] fun _ => rfl
  | cons t rest =>
    rw [List.map_cons, Reader.word, Reader.word, Token.isWord_overwrite]
    split
    · exact .ok rest trivial
    · exact mirrors_failAt (t :: rest) fun _ => rfl

/-! ## Expressions -/

theorem reread_reference {keep : Nat} (first last : Token) :
    (reference first last).Reread (reference (first.overwrite keep) (last.overwrite keep)) where
  span := rfl
  text := by
    intro hclear
    have hbeginnings := (overwrites_overwrite keep first.onward).sameBeginnings
    have hparen : '(' ∉ Text.takeBytes (last.span.endCol - first.span.col) first.onward := by
      simpa [Variable.Undisturbed, reference] using hclear
    exact congrArg String.ofList (hbeginnings _ hparen)

theorem mirrors_variableRef (ts : List Token) :
    Mirrors keep Variable.Reread Never (r.variableRef ts)
      (r.variableRef (ts.map (Token.overwrite keep))) := by
  cases ts with
  | nil => exact mirrors_failAt [] fun _ => rfl
  | cons first rest =>
    rw [List.map_cons]
    unfold variableRef
    dsimp only [Token.kind_overwrite, Token.lexeme_overwrite]
    refine .ite (fun _ => mirrors_failAt (first :: rest) fun _ => rfl) fun _ => ?_
    refine .ite (fun _ => .ok rest (reread_reference first first)) fun _ => ?_
    refine .ite (fun _ => ?_) fun _ => .ite (fun _ => ?_) fun _ =>
      .ok rest (reread_reference first first)
    · cases rest with
      | nil => exact mirrors_failAt [] fun _ => rfl
      | cons next rest =>
        exact .ite (fun _ => .ok rest (reread_reference first next)) fun _ =>
          mirrors_failAt (next :: rest) fun _ => rfl
    · -- the words of the name are the same, so its last one is the same
      have hmore : (rest.map (Token.overwrite keep)).takeWhile
            (fun t => t.isCapitalised && r.continuesName t) =
          (rest.takeWhile fun t => t.isCapitalised && r.continuesName t).map
            (Token.overwrite keep) := by
        rw [List.takeWhile_map]
        rfl
      rw [hmore, List.length_map, ← List.map_drop, List.getLast?_map, Option.getD_map]
      exact .ok _ (reread_reference first _)

theorem comparison?_overwrite {keep : Nat} (ts : List Token) :
    comparison? (ts.map (Token.overwrite keep)) = comparison? ts := by
  match ts with
  | [] => rfl
  | [a] => rfl
  | [a, b] => rfl
  | a :: b :: c :: rest => rfl

theorem operator?_overwrite {keep : Nat} (ts : List Token) :
    operator? (ts.map (Token.overwrite keep)) = operator? ts := by
  cases ts with
  | nil => rfl
  | cons t rest =>
    rw [List.map_cons, operator?, operator?, comparison?_overwrite]
    rfl

theorem mirrors_operand (ts : List Token) :
    Mirrors keep Expr.Reread Never (r.operand ts)
      (r.operand (ts.map (Token.overwrite keep))) := by
  induction ts with
  | nil => exact mirrors_failAt [] fun _ => rfl
  | cons t rest ih =>
    rw [List.map_cons, operand, operand, Token.literal?_overwrite]
    cases t.literal? with
    | some value => exact .ok rest (.literal value t.span)
    | none =>
      refine .ite (fun _ => ?_) fun _ => .ite (fun _ => ?_) fun _ =>
        mirrors_failAt (t :: rest) fun _ => rfl
      · revert ih
        generalize r.operand rest = x
        generalize r.operand (rest.map (Token.overwrite keep)) = x'
        intro ih
        cases ih with
        | ok rest he => exact .ok rest (.negation t.span he)
        | error rest hsame => exact .error rest hsame
        | lost f hlost => exact hlost.elim
      · have hvariable := mirrors_variableRef r keep (t :: rest)
        rw [List.map_cons] at hvariable
        revert hvariable
        generalize r.variableRef (t :: rest) = x
        generalize r.variableRef _ = x'
        intro hvariable
        cases hvariable with
        | ok rest hv => exact .ok rest (.variable hv)
        | error rest hsame => exact .error rest hsame
        | lost f hlost => exact hlost.elim

theorem mirrors_continueExpr {tree tree' : Expr} (ts : List Token) (htree : tree.Reread tree') :
    Mirrors keep Expr.Reread Never (r.continueExpr tree ts)
      (r.continueExpr tree' (ts.map (Token.overwrite keep))) := by
  fun_induction r.continueExpr tree ts generalizing tree' with
  | case1 tree ts hop =>
    rw [continueExpr.eq_def r tree', operator?_overwrite, hop]
    exact .ok ts htree
  | case2 tree ts op width hop right rest hoperand ih =>
    -- the operator is the same on both lines, and so is the width of its words
    have hright := mirrors_operand r keep (ts.drop width)
    rw [hoperand, List.map_drop] at hright
    rw [continueExpr.eq_def r tree', operator?_overwrite, hop]
    dsimp only
    split
    next right' rest' hoperand' =>
      rw [hoperand'] at hright
      cases hright with
      | ok rest hright => exact ih (htree.attach op hright)
    next f hoperand' =>
      rw [hoperand'] at hright
      cases hright with
      | lost f hlost => exact hlost.elim
  | case3 tree ts op width hop f hoperand =>
    have hright := mirrors_operand r keep (ts.drop width)
    rw [hoperand, List.map_drop] at hright
    rw [continueExpr.eq_def r tree', operator?_overwrite, hop]
    dsimp only
    split
    next right' rest' hoperand' =>
      rw [hoperand'] at hright
      cases hright
    next f' hoperand' =>
      rw [hoperand'] at hright
      cases hright with
      | error rest hsame => exact .error rest hsame

theorem mirrors_expr (ts : List Token) :
    Mirrors keep Expr.Reread Never (r.expr ts) (r.expr (ts.map (Token.overwrite keep))) := by
  have hfirst := mirrors_operand r keep ts
  unfold expr
  revert hfirst
  generalize r.operand ts = x
  generalize r.operand (ts.map (Token.overwrite keep)) = x'
  intro hfirst
  cases hfirst with
  | ok rest he => exact mirrors_continueExpr r keep rest he
  | error rest hsame => exact .error rest hsame
  | lost f hlost => exact hlost.elim

/-! ## Statements -/

theorem mirrors_put (start : Span) (ts : List Token) :
    Mirrors keep Statement.Reread Never (r.putStatement start ts)
      (r.putStatement start (ts.map (Token.overwrite keep))) := by
  refine .bind (mirrors_expr r keep ts) fun value value' ts hvalue => ?_
  refine .bind (mirrors_word r keep "into" ts) fun _ _ ts _ => ?_
  refine .bind (mirrors_variableRef r keep ts) fun target target' ts htarget => ?_
  dsimp only
  rw [htarget.span]
  exact .ok ts (.assign _ htarget hvalue)

theorem mirrors_let (start : Span) (ts : List Token) :
    Mirrors keep Statement.Reread Never (r.letStatement start ts)
      (r.letStatement start (ts.map (Token.overwrite keep))) := by
  refine .bind (mirrors_variableRef r keep ts) fun target target' ts htarget => ?_
  refine .bind (mirrors_word r keep "be" ts) fun _ _ ts _ => ?_
  refine .bind (mirrors_expr r keep ts) fun value value' ts hvalue => ?_
  dsimp only
  rw [hvalue.span_eq]
  exact .ok ts (.assign _ htarget hvalue)

theorem mirrors_output (verb : Verb) (start : Span) (ts : List Token) :
    Mirrors keep Statement.Reread Never (r.outputStatement verb start ts)
      (r.outputStatement verb start (ts.map (Token.overwrite keep))) := by
  refine .bind (mirrors_expr r keep ts) fun value value' ts hvalue => ?_
  dsimp only
  rw [hvalue.span_eq]
  exact .ok ts (.output verb _ hvalue)

theorem countSteps_overwrite (word : String) (count : Nat) (last : Span) (ts : List Token) :
    countSteps word count last (ts.map (Token.overwrite keep)) =
      ((countSteps word count last ts).1, (countSteps word count last ts).2.1,
        (countSteps word count last ts).2.2.map (Token.overwrite keep)) := by
  induction ts generalizing count last with
  | nil => rfl
  | cons t ts ih =>
    have hhead : (ts.map (Token.overwrite keep)).head?.any (·.isWord word) =
        ts.head?.any (·.isWord word) := by
      cases ts <;> rfl
    rw [List.map_cons, countSteps, countSteps, hhead, Token.isWord_overwrite, Token.kind_overwrite,
      Token.span_overwrite]
    split
    · exact ih _ _
    · split
      · exact ih _ _
      · rfl

theorem mirrors_step (direction : Direction) (start : Span) (ts : List Token) :
    Mirrors keep Statement.Reread Never (r.stepStatement direction start ts)
      (r.stepStatement direction start (ts.map (Token.overwrite keep))) := by
  refine .bind (mirrors_variableRef r keep ts) fun target target' ts htarget => ?_
  dsimp only
  rw [htarget.span, countSteps_overwrite]
  refine .ite (fun _ => mirrors_failAt ts fun _ => rfl) fun _ => ?_
  exact .ok _ (.step direction _ _ htarget)

theorem spanTo_overwrite (first : Token) (ts : List Token) :
    spanTo (first.overwrite keep) (ts.map (Token.overwrite keep)) = spanTo first ts := by
  unfold spanTo
  rw [List.getLast?_map]
  cases ts.getLast? <;> rfl

/-- The value after "is" is read again, or it is a poetic number that is lost. -/
theorem mirrors_isValue (verb : Token) (ts : List Token) :
    Mirrors 0 Expr.Reread (¬·.Legible) (r.isValue verb ts)
      (r.isValue (verb.overwrite 0) (ts.map (Token.overwrite 0))) := by
  cases ts with
  | nil => exact mirrors_failAt [] fun _ => rfl
  | cons first rest =>
    have halone : (rest.map (Token.overwrite 0)).all (·.kind.isTrailing) =
        rest.all (·.kind.isTrailing) := by
      rw [List.all_map]
      rfl
    rw [List.map_cons]
    unfold isValue
    dsimp only [Token.kind_overwrite]
    rw [halone, Token.literal?_overwrite, Token.span_overwrite, spanTo_overwrite]
    split
    next e => exact .error rest (.refl _)
    next =>
      cases (if rest.all (·.kind.isTrailing) = true then first.literal? else none) with
      | some value => exact .ok rest (.literal value first.span)
      | none =>
        have htext : Poetic.number? (overwrite 0 (String.ofList (Text.trim verb.behind)).toList) =
            Poetic.number? (overwrite 0 verb.behind) := by
          rw [String.toList_ofList, Poetic.number?_overwrite_trim]
        -- the texts differ, the numbers may differ, and the second one may be missing
        have hbehind : (verb.overwrite 0).behind = overwrite 0 verb.behind := rfl
        rw [hbehind]
        cases hnumber : Poetic.number? verb.behind with
        | none =>
          rw [Poetic.number?_overwrite_eq_none 0 hnumber]
          exact .error [] ⟨rfl, rfl⟩
        | some x =>
          cases hnumber' : Poetic.number? (overwrite 0 verb.behind) with
          | none =>
            refine .lost _ fun hlegible => ?_
            rw [Expr.Legible, htext, hnumber'] at hlegible
            cases hlegible
          | some x' => exact .ok [] (.poetic x _ (htext.trans hnumber'))

/-- The verb of speech of a line that begins with a name. -/
def speech? (r : Reader) (ts : List Token) : Option Token :=
  match r.variableRef ts with
  | .ok (_, verb :: _) => if verb.isWordIn ["says", "said"] then some verb else none
  | _ => none

theorem not_speech_of_is {t : Token} (h : t.isWordIn ["is", "are", "was", "were"] = true) :
    t.isWordIn ["says", "said"] = false := by
  unfold Token.isWordIn Token.isWord at h ⊢
  grind

theorem spokenValue_overwrite {verb : Token} (h : verb.behind.length ≤ keep) (ts : List Token) :
    spokenValue (verb.overwrite keep) (ts.map (Token.overwrite keep)) = spokenValue verb ts := by
  unfold spokenValue
  rw [spanTo_overwrite, Token.overwrite, overwrite_of_length_le h]

/-- What a line that begins with a name is read as, if what is kept is the text behind a verb of
speech. -/
theorem mirrors_name {ts : List Token}
    (hspeech : ∀ verb, r.speech? ts = some verb → verb.behind.length ≤ keep)
    (hother : r.speech? ts = none → keep = 0) :
    Mirrors keep Statement.Reread (¬·.Legible) (r.nameStatement ts)
      (r.nameStatement (ts.map (Token.overwrite keep))) := by
  have htarget := mirrors_variableRef r keep ts
  unfold nameStatement
  unfold speech? at hspeech hother
  revert hspeech hother htarget
  generalize r.variableRef ts = x
  generalize r.variableRef (ts.map (Token.overwrite keep)) = x'
  intro hspeech hother htarget
  cases htarget with
  | error rest hsame => exact .error rest hsame
  | lost f hlost => exact hlost.elim
  | @ok target target' rest htarget =>
    cases rest with
    | nil => exact mirrors_failAt [] fun _ => rfl
    | cons verb rest =>
      refine .ite (fun his => ?_) fun _ => .ite (fun hsays => ?_) fun _ =>
        mirrors_failAt (verb :: rest) fun _ => rfl
      · -- the line has no verb of speech, so all of its comments are overwritten
        have hkeep : keep = 0 := hother (if_neg (by rw [not_speech_of_is his]; decide))
        subst hkeep
        have hvalue := mirrors_isValue r verb rest
        generalize r.isValue verb rest = y at hvalue ⊢
        generalize r.isValue (verb.overwrite 0) (rest.map (Token.overwrite 0)) = y' at hvalue ⊢
        cases hvalue with
        | @ok value value' rest hvalue =>
          show Mirrors 0 Statement.Reread _ (.ok (.assign target value _, rest))
            (.ok (.assign target' value' _, _))
          rw [htarget.span, hvalue.span_eq]
          exact .ok rest (.assign _ htarget hvalue)
        | error rest hsame => exact .error rest hsame
        | lost f hlost => exact .lost f hlost
      · -- the text that is spoken is kept
        have hkeep : verb.behind.length ≤ keep := hspeech verb (if_pos hsays)
        rw [spokenValue_overwrite keep hkeep]
        show Mirrors keep Statement.Reread _ (.ok (.assign target _ _, []))
          (.ok (.assign target' _ _, []))
        rw [htarget.span]
        exact .ok [] (.assign _ htarget (.literal _ _))

/-- The number of characters at the end of a line that are not read but taken as they are: the text
behind a verb of speech. -/
def verbatim (r : Reader) (ts : List Token) : Nat :=
  match ts with
  | [] => 0
  | t :: _ =>
    if t.isWordIn ["put", "let", "build", "knock"] || (Verb.ofWord? t.lexeme).isSome then 0
    else
      match r.speech? ts with
      | some verb => verb.behind.length
      | none => 0

/-- A statement is read again without the comments that do not belong to spoken text, or it holds a
poetic number that is lost. -/
theorem mirrors_statement (ts : List Token) :
    Mirrors (r.verbatim ts) Statement.Reread (¬·.Legible) (r.statement ts)
      (r.statement (ts.map (Token.overwrite (r.verbatim ts)))) := by
  cases ts with
  | nil => exact mirrors_failAt [] fun _ => rfl
  | cons t rest =>
    generalize hkeep : r.verbatim (t :: rest) = keep
    have hunknown : Mirrors keep Statement.Reread (¬·.Legible)
        (.error (r.failAt (t :: rest) fun t => .expectedStatement t.describe))
        (.error (r.failAt ((t :: rest).map (Token.overwrite keep))
          fun t => .expectedStatement t.describe)) := mirrors_failAt (t :: rest) fun _ => rfl
    rw [List.map_cons] at hunknown ⊢
    unfold statement
    dsimp only [Token.kind_overwrite, Token.isWord_overwrite, Token.lexeme_overwrite]
    refine .ite (fun _ => hunknown) fun _ => ?_
    refine .ite (fun _ => (mirrors_put r keep t.span rest).of_never) fun hput => ?_
    refine .ite (fun _ => (mirrors_let r keep t.span rest).of_never) fun hlet => ?_
    cases hverb : Verb.ofWord? t.lexeme with
    | some verb => exact (mirrors_output r keep verb t.span rest).of_never
    | none =>
      refine .ite (fun _ => (mirrors_step r keep .up t.span rest).of_never) fun hbuild => ?_
      refine .ite (fun _ => (mirrors_step r keep .down t.span rest).of_never) fun hknock => ?_
      refine .ite (fun _ => hunknown) fun _ => ?_
      -- the line begins with a name, so what is kept is the text behind its verb of speech
      have hname : (t.isWordIn ["put", "let", "build", "knock"] ||
          (Verb.ofWord? t.lexeme).isSome) = false := by
        simp [Token.isWordIn, hput, hlet, hbuild, hknock, hverb]
      rw [verbatim, hname, if_neg Bool.false_ne_true] at hkeep
      rw [← List.map_cons]
      refine mirrors_name r keep ?_ ?_
      · intro verb hspeech
        rw [hspeech] at hkeep
        exact Nat.le_of_eq hkeep
      · intro hspeech
        rw [hspeech] at hkeep
        exact hkeep.symm

end Reader

end Rockstar
