import Rockstar.Proofs.Session
import Rockstar.Statement.Parse

/-!
# What is read from a line

A reader takes tokens from the front of a line and leaves the others. What it makes of them keeps
their order: the references of an expression begin at tokens that were taken, from left to right
(`Expr.From.refs`), and the expression itself begins at the first of them (`Expr.From.head`).
Numbers that are read are plain. So the references of a statement, in the order in which it is
compiled, stand in the order of their columns (`Statement.From`).
-/

namespace Rockstar

/-! ## Expressions -/

namespace Expr

/-- The references of an expression, from left to right. -/
def refs : Expr → List Variable
  | .literal _ _ => []
  | .poetic _ _ _ => []
  | .variable v => [v]
  | .binary _ l r => l.refs ++ r.refs
  | .negation _ e => e.refs

/-- Everything in the expression stands on one line. -/
def OnLine (line : Nat) : Expr → Prop
  | .literal _ s => s.line = line
  | .poetic _ _ s => s.line = line
  | .variable v => v.span.line = line
  | .binary _ l r => l.OnLine line ∧ r.OnLine line
  | .negation word e => word.line = line ∧ e.OnLine line

/-- The smallest column of the expression. -/
def firstCol : Expr → Nat
  | .literal _ s => s.col
  | .poetic _ _ s => s.col
  | .variable v => v.span.col
  | .binary _ l r => min l.firstCol r.firstCol
  | .negation word e => min word.col e.firstCol

theorem join_of_line {a b : Span} {line : Nat} (ha : a.line = line) (hb : b.line = line) :
    (a.join b).line = line ∧ (a.join b).col = min a.col b.col := by
  unfold Span.join
  rw [if_pos (ha.trans hb.symm)]
  exact ⟨ha, rfl⟩

theorem OnLine.span {e : Expr} {line : Nat} (h : e.OnLine line) :
    e.span.line = line ∧ e.span.col = e.firstCol := by
  induction e with
  | literal v s => exact ⟨h, rfl⟩
  | poetic y text s => exact ⟨h, rfl⟩
  | «variable» v => exact ⟨h, rfl⟩
  | binary op l r ihl ihr =>
    obtain ⟨hl, hlcol⟩ := ihl h.1
    obtain ⟨hr, hrcol⟩ := ihr h.2
    obtain ⟨hline, hcol⟩ := join_of_line hl hr
    exact ⟨hline, by rw [firstCol, ← hlcol, ← hrcol]; exact hcol⟩
  | negation word e ih =>
    obtain ⟨he, hecol⟩ := ih h.2
    obtain ⟨hline, hcol⟩ := join_of_line h.1 he
    exact ⟨hline, by rw [firstCol, ← hecol]; exact hcol⟩

theorem OnLine.of_mem_refs {e : Expr} {line : Nat} (h : e.OnLine line) {v : Variable}
    (hv : v ∈ e.refs) : v.span.line = line := by
  induction e with
  | literal _ _ => cases hv
  | poetic _ _ _ => cases hv
  | «variable» w =>
    obtain rfl : v = w := by simpa [refs] using hv
    exact h
  | binary op l r ihl ihr =>
    rcases List.mem_append.mp hv with hl | hr
    · exact ihl h.1 hl
    · exact ihr h.2 hr
  | negation word e ih => exact ih h.2 hv

/-! Attaching an operator puts the right operand behind everything else. -/

theorem refs_attach (tree : Expr) (op : BinaryOp) (right : Expr) :
    (tree.attach op right).refs = tree.refs ++ right.refs := by
  induction tree with
  | binary op' l r _ ihr =>
    rw [attach]
    split
    · simp only [refs, ihr, List.append_assoc]
    · rfl
  | _ => rfl

theorem literals_attach (tree : Expr) (op : BinaryOp) (right : Expr) :
    (tree.attach op right).literals = tree.literals ++ right.literals := by
  induction tree with
  | binary op' l r _ ihr =>
    rw [attach]
    split
    · simp only [literals, ihr, List.append_assoc]
    · rfl
  | _ => rfl

theorem firstCol_attach (tree : Expr) (op : BinaryOp) (right : Expr) :
    (tree.attach op right).firstCol = min tree.firstCol right.firstCol := by
  induction tree with
  | binary op' l r _ ihr =>
    rw [attach]
    split
    · simp only [firstCol, ihr]
      omega
    · rfl
  | _ => rfl

theorem OnLine.attach {tree right : Expr} {line : Nat} (h : tree.OnLine line) (op : BinaryOp)
    (hright : right.OnLine line) : (tree.attach op right).OnLine line := by
  induction tree with
  | binary op' l r _ ihr =>
    rw [Expr.attach]
    split
    · exact ⟨h.1, ihr h.2⟩
    · exact ⟨h, hright⟩
  | _ => exact ⟨h, hright⟩

end Expr

/-! ## Tokens of one line -/

/-- The tokens stand on the line, each behind the one before it. -/
structure InOrder (line : Nat) (ts : List Token) : Prop where
  onLine : ∀ t ∈ ts, t.span.line = line
  cols : (ts.map (·.span.col)).Pairwise (· < ·)

theorem InOrder.of_sublist {line : Nat} {ts us : List Token} (h : InOrder line ts)
    (hsub : us.Sublist ts) : InOrder line us :=
  ⟨fun t ht => h.onLine t (hsub.subset ht), h.cols.sublist (hsub.map _)⟩

/-- Tokens behind a token have greater columns. -/
theorem InOrder.col_lt {line : Nat} {before front : List Token}
    (h : InOrder line (before ++ front)) {t : Token} (ht : t ∈ before) {c : Nat}
    (hhead : front.head?.map (·.span.col) = some c) : t.span.col < c := by
  cases front with
  | nil => cases hhead
  | cons u us =>
    cases hhead
    have hcols := h.cols
    rw [List.map_append, List.pairwise_append] at hcols
    exact hcols.2.2 _ (List.mem_map_of_mem ht) _ (by simp)

/-- A span from the first token to one of the tokens begins where the first one does. -/
theorem InOrder.join {line : Nat} {first last : Token} {more : List Token}
    (h : InOrder line (first :: more)) (hlast : last ∈ first :: more) :
    (first.span.join last.span).line = line ∧
      (first.span.join last.span).col = first.span.col := by
  obtain ⟨hline, hcol⟩ :=
    Expr.join_of_line (h.onLine first (by simp)) (h.onLine last hlast)
  refine ⟨hline, hcol.trans (Nat.min_eq_left ?_)⟩
  rcases List.mem_cons.mp hlast with rfl | hmem
  · exact Nat.le_refl _
  · have hcols := h.cols
    rw [List.map_cons, List.pairwise_cons] at hcols
    exact Nat.le_of_lt (hcols.1 _ (List.mem_map_of_mem hmem))

/-- What an expression keeps of the tokens it was read from. -/
structure Expr.From (line : Nat) (front : List Token) (e : Expr) : Prop where
  literals : ∀ v ∈ e.literals, v.IsPlain
  refs : (e.refs.map (·.span.col)).Sublist (front.map (·.span.col))
  onLine : e.OnLine line
  head : front.head?.map (·.span.col) = some e.firstCol

namespace Reader

variable {r : Reader} {line : Nat}

/-- A reference reaches from the first token that was taken to one of them. -/
theorem variableRef_ok {ts rest : List Token} {v : Variable}
    (h : r.variableRef ts = .ok (v, rest)) :
    ∃ first more last, ts = first :: more ++ rest ∧ last ∈ first :: more ∧
      v = reference first last := by
  cases ts with
  | nil => cases h
  | cons first tail =>
    unfold variableRef at h
    dsimp only at h
    split at h
    · cases h
    · split at h
      · cases h
        exact ⟨first, [], first, rfl, by simp, rfl⟩
      · split at h
        · cases tail with
          | nil => cases h
          | cons next tail =>
            dsimp only at h
            split at h
            · cases h
              exact ⟨first, [next], next, rfl, by simp, rfl⟩
            · cases h
        · split at h
          · cases h
            -- all capitalised words that follow belong to the name
            have hmore := List.takeWhile_prefix
              (fun t => t.isCapitalised && r.continuesName t) (l := tail)
            revert hmore
            generalize tail.takeWhile (fun t => t.isCapitalised && r.continuesName t) = more
            intro hmore
            refine ⟨first, more, more.getLast?.getD first, ?_, ?_, rfl⟩
            · rw [List.cons_append, List.prefix_iff_eq_append.mp hmore]
            · cases hlast : more.getLast? with
              | none => simp
              | some last => simp [List.mem_of_getLast? hlast]
          · cases h
            exact ⟨first, [], first, rfl, by simp, rfl⟩

theorem from_variable {ts rest : List Token} {v : Variable}
    (h : r.variableRef ts = .ok (v, rest)) (horder : InOrder line ts) :
    ∃ front, ts = front ++ rest ∧ (Expr.variable v).From line front := by
  obtain ⟨first, more, last, rfl, hlast, rfl⟩ := variableRef_ok h
  obtain ⟨hline, hcol⟩ :=
    (horder.of_sublist (List.sublist_append_left _ _)).join hlast
  refine ⟨first :: more, rfl, ⟨by simp [Expr.literals], ?_, hline, ?_⟩⟩
  · show [(first.span.join last.span).col].Sublist _
    rw [hcol]
    exact (List.nil_sublist _).cons_cons _
  · show some first.span.col = some (first.span.join last.span).col
    rw [hcol]

theorem isPlain_literal {t : Token} {v : Value} (h : t.literal? = some v) : v.IsPlain := by
  unfold Token.literal? at h
  split at h
  · cases h
    exact Decimal.isPlain_read _ _
  · cases h
    trivial
  · obtain ⟨word, -, rfl⟩ := Option.map_eq_some_iff.mp h
    cases word <;> trivial
  · cases h

/-- What an operand is read from. -/
theorem from_operand {ts rest : List Token} {e : Expr} (h : r.operand ts = .ok (e, rest))
    (horder : InOrder line ts) : ∃ front, ts = front ++ rest ∧ e.From line front := by
  induction ts generalizing e rest with
  | nil => cases h
  | cons t tail ih =>
    rw [operand] at h
    split at h
    next v hv =>
      cases h
      refine ⟨[t], rfl, ⟨?_, List.nil_sublist _, horder.onLine t (by simp), rfl⟩⟩
      intro w hw
      obtain rfl : w = v := by simpa [Expr.literals] using hw
      exact isPlain_literal hv
    next =>
      split at h
      · split at h
        next e' rest' hrest =>
          cases h
          obtain ⟨front, rfl, hfrom⟩ := ih hrest (horder.of_sublist (List.sublist_cons_self _ _))
          refine ⟨t :: front, rfl,
            ⟨hfrom.literals, hfrom.refs.cons _, ⟨horder.onLine t (by simp), hfrom.onLine⟩, ?_⟩⟩
          -- the word "not" stands in front of what it negates
          have hfront : InOrder line ([t] ++ front) := horder.of_sublist (by simp)
          have hlt : t.span.col < e'.firstCol := hfront.col_lt (by simp) hfrom.head
          rw [List.head?_cons, Option.map_some, Expr.firstCol, Nat.min_eq_left (Nat.le_of_lt hlt)]
        next => cases h
      · split at h
        · split at h
          next v rest' hvar =>
            cases h
            exact from_variable hvar horder
          next => cases h
        · cases h

/-- Attaching an operand that was read behind an expression. -/
theorem from_attach {front between behind : List Token} {tree right : Expr} (op : BinaryOp)
    (htree : tree.From line front) (hright : right.From line behind)
    (horder : InOrder line (front ++ between ++ behind)) :
    (tree.attach op right).From line (front ++ between ++ behind) where
  literals := by
    intro v hv
    rw [Expr.literals_attach] at hv
    rcases List.mem_append.mp hv with hl | hr
    · exact htree.literals v hl
    · exact hright.literals v hr
  refs := by
    rw [Expr.refs_attach, List.map_append, List.map_append, List.map_append]
    exact (htree.refs.trans (List.sublist_append_left _ _)).append hright.refs
  onLine := htree.onLine.attach op hright.onLine
  head := by
    have hhead := htree.head
    cases front with
    | nil => cases hhead
    | cons t more =>
      -- what is attached was read later, so it begins further right
      have hcol : t.span.col = tree.firstCol := by simpa using hhead
      have hlt : t.span.col < right.firstCol := horder.col_lt (by simp) hright.head
      rw [Expr.firstCol_attach, ← hcol, Nat.min_eq_left (Nat.le_of_lt hlt)]
      rfl

theorem from_continueExpr {ts front rest : List Token} {tree e : Expr}
    (h : r.continueExpr tree ts = .ok (e, rest)) (htree : tree.From line front)
    (horder : InOrder line (front ++ ts)) :
    ∃ more, ts = more ++ rest ∧ e.From line (front ++ more) := by
  fun_induction r.continueExpr tree ts generalizing front with
  | case1 tree ts hop =>
    cases h
    exact ⟨[], rfl, by simpa using htree⟩
  | case2 tree ts op width hop right rest' hoperand ih =>
    have hdrop : InOrder line (ts.drop width) :=
      horder.of_sublist ((List.drop_sublist _ _).trans (List.sublist_append_right _ _))
    obtain ⟨behind, hbehind, hright⟩ := from_operand hoperand hdrop
    have hts : ts = ts.take width ++ behind ++ rest' := by
      rw [List.append_assoc, ← hbehind, List.take_append_drop]
    rw [hts, ← List.append_assoc, ← List.append_assoc] at horder
    have hattach := from_attach op htree hright (horder.of_sublist (List.sublist_append_left _ _))
    obtain ⟨more, rfl, hfrom⟩ := ih h hattach horder
    exact ⟨ts.take width ++ behind ++ more, by rw [List.append_assoc _ more]; exact hts,
      by simpa using hfrom⟩
  | case3 tree ts op width hop f hoperand => cases h

/-- What an expression is read from. -/
theorem from_expr {ts rest : List Token} {e : Expr} (h : r.expr ts = .ok (e, rest))
    (horder : InOrder line ts) : ∃ front, ts = front ++ rest ∧ e.From line front := by
  unfold expr at h
  split at h
  next first rest' hfirst =>
    obtain ⟨front, rfl, hfrom⟩ := from_operand hfirst horder
    obtain ⟨more, rfl, hfrom'⟩ := from_continueExpr h hfrom horder
    exact ⟨front ++ more, by simp, hfrom'⟩
  next => cases h

end Reader

/-! ## Statements -/

/-- The references of a statement, in the order in which it is compiled. -/
def Statement.refs : Statement → List Variable
  | .assign target value _ =>
    if target.isBefore value then target :: value.refs else value.refs ++ [target]
  | .output _ value _ => value.refs
  | .step _ target _ _ => [target]

theorem Statement.mem_refs_assign {target ref : Variable} {value : Expr} {span : Span} :
    ref ∈ (Statement.assign target value span).refs ↔ ref = target ∨ ref ∈ value.refs := by
  show ref ∈ (if target.isBefore value then target :: value.refs else value.refs ++ [target]) ↔ _
  split
  · exact List.mem_cons
  · rw [List.mem_append, List.mem_singleton, or_comm]

/-- What a statement keeps of the line it was read from. -/
structure Statement.From (line : Nat) (stmt : Statement) : Prop where
  literals : ∀ v ∈ stmt.literals, v.IsPlain
  onLine : ∀ v ∈ stmt.refs, v.span.line = line
  cols : (stmt.refs.map (·.span.col)).Pairwise (· < ·)

/-- Where an expression begins that was read behind another one. -/
theorem Expr.From.col_lt {line : Nat} {front behind : List Token} {e e' : Expr}
    (h : e.From line front) (h' : e'.From line behind)
    (horder : InOrder line (front ++ behind)) : e.span.col < e'.span.col := by
  have hhead := h.head
  cases front with
  | nil => cases hhead
  | cons t more =>
    have hcol : t.span.col = e.firstCol := by simpa using hhead
    rw [h.onLine.span.2, h'.onLine.span.2, ← hcol]
    exact horder.col_lt (by simp) h'.head

/-- An assignment whose target is written before the value. -/
theorem Statement.from_targetFirst {line : Nat} {target : Variable} {value : Expr} {span : Span}
    {front behind : List Token} (htarget : (Expr.variable target).From line front)
    (hvalue : value.From line behind) (horder : InOrder line (front ++ behind)) :
    (Statement.assign target value span).From line := by
  have hbefore : target.isBefore value = true := by
    simpa [Variable.isBefore, Expr.span] using htarget.col_lt hvalue horder
  have hrefs : (Statement.assign target value span).refs = target :: value.refs := by
    rw [refs, if_pos hbefore]
  refine ⟨hvalue.literals, fun v hv => ?_, ?_⟩
  · rw [hrefs] at hv
    rcases List.mem_cons.mp hv with rfl | hmem
    · exact htarget.onLine
    · exact hvalue.onLine.of_mem_refs hmem
  · rw [hrefs]
    refine horder.cols.sublist ?_
    rw [List.map_append]
    exact htarget.refs.append hvalue.refs

/-- An assignment whose value is written before the target. -/
theorem Statement.from_valueFirst {line : Nat} {target : Variable} {value : Expr} {span : Span}
    {front behind : List Token} (hvalue : value.From line front)
    (htarget : (Expr.variable target).From line behind) (horder : InOrder line (front ++ behind)) :
    (Statement.assign target value span).From line := by
  have hlt := hvalue.col_lt htarget horder
  have hbefore : ¬target.isBefore value = true := by
    simpa [Variable.isBefore, Expr.span] using Nat.le_of_lt hlt
  have hrefs : (Statement.assign target value span).refs = value.refs ++ [target] := by
    rw [refs, if_neg hbefore]
  refine ⟨hvalue.literals, fun v hv => ?_, ?_⟩
  · rw [hrefs] at hv
    rcases List.mem_append.mp hv with hmem | hmem
    · exact hvalue.onLine.of_mem_refs hmem
    · obtain rfl : v = target := by simpa using hmem
      exact htarget.onLine
  · rw [hrefs, List.map_append]
    refine horder.cols.sublist ?_
    rw [List.map_append]
    exact hvalue.refs.append htarget.refs

/-- Of two steps in a row both succeed. -/
theorem bind_ok {ε α β : Type} {f : Except ε α} {g : α → Except ε β} {b : β}
    (h : (f >>= g) = .ok b) : ∃ a, f = .ok a ∧ g a = .ok b := by
  cases f with
  | error e => cases h
  | ok a => exact ⟨a, rfl, h⟩

namespace Reader

variable {r : Reader} {line : Nat}

theorem word_ok {w : String} {ts rest : List Token} {t : Token}
    (h : r.word w ts = .ok (t, rest)) : ts = t :: rest := by
  unfold word at h
  split at h
  · split at h <;> cases h
    rfl
  · cases h

theorem from_put {start : Span} {ts rest : List Token} {stmt : Statement}
    (h : r.putStatement start ts = .ok (stmt, rest)) (horder : InOrder line ts) :
    stmt.From line := by
  obtain ⟨⟨value, ts₁⟩, hvalue, h⟩ := bind_ok h
  obtain ⟨⟨into, ts₂⟩, hinto, h⟩ := bind_ok h
  obtain ⟨⟨target, ts₃⟩, htarget, h⟩ := bind_ok h
  cases h
  obtain ⟨front, rfl, hfrom⟩ := from_expr hvalue horder
  obtain rfl := word_ok hinto
  obtain ⟨behind, rfl, hfrom'⟩ :=
    from_variable htarget (horder.of_sublist (by simp))
  refine Statement.from_valueFirst hfrom hfrom' (horder.of_sublist ?_)
  simp

theorem from_let {start : Span} {ts rest : List Token} {stmt : Statement}
    (h : r.letStatement start ts = .ok (stmt, rest)) (horder : InOrder line ts) :
    stmt.From line := by
  obtain ⟨⟨target, ts₁⟩, htarget, h⟩ := bind_ok h
  obtain ⟨⟨be, ts₂⟩, hbe, h⟩ := bind_ok h
  obtain ⟨⟨value, ts₃⟩, hvalue, h⟩ := bind_ok h
  cases h
  obtain ⟨front, rfl, hfrom⟩ := from_variable htarget horder
  obtain rfl := word_ok hbe
  obtain ⟨behind, rfl, hfrom'⟩ := from_expr hvalue (horder.of_sublist (by simp))
  refine Statement.from_targetFirst hfrom hfrom' (horder.of_sublist ?_)
  simp

theorem from_output {verb : Verb} {start : Span} {ts rest : List Token} {stmt : Statement}
    (h : r.outputStatement verb start ts = .ok (stmt, rest)) (horder : InOrder line ts) :
    stmt.From line := by
  obtain ⟨⟨value, ts₁⟩, hvalue, h⟩ := bind_ok h
  cases h
  obtain ⟨front, rfl, hfrom⟩ := from_expr hvalue horder
  refine ⟨hfrom.literals, fun v hv => hfrom.onLine.of_mem_refs hv, ?_⟩
  exact (horder.of_sublist (List.sublist_append_left _ _)).cols.sublist hfrom.refs

theorem from_step {direction : Direction} {start : Span} {ts rest : List Token}
    {stmt : Statement} (h : r.stepStatement direction start ts = .ok (stmt, rest))
    (horder : InOrder line ts) : stmt.From line := by
  obtain ⟨⟨target, ts₁⟩, htarget, hrest⟩ := bind_ok h
  obtain ⟨front, rfl, hfrom⟩ := from_variable htarget horder
  dsimp only at hrest
  split at hrest
  · cases hrest
  · cases hrest
    refine ⟨?_, ?_, List.pairwise_singleton _ _⟩
    · intro v hv
      obtain rfl := List.mem_singleton.mp hv
      exact Decimal.isPlain_ofNat _
    · intro v hv
      obtain rfl := List.mem_singleton.mp hv
      exact hfrom.onLine

theorem span_spanTo {first : Token} {ts : List Token} (horder : InOrder line (first :: ts)) :
    (spanTo first ts).line = line ∧ (spanTo first ts).col = first.span.col := by
  unfold spanTo
  split
  next last hlast => exact horder.join (List.mem_cons_of_mem _ (List.mem_of_getLast? hlast))
  next => exact ⟨horder.onLine first (by simp), rfl⟩

theorem isPlain_poetic {text : List Char} {x : Float} (h : Poetic.number? text = some x) :
    Decimal.IsPlain x := by
  unfold Poetic.number? Poetic.Count.number? at h
  split at h <;> cases h
  exact Decimal.isPlain_read _ _

/-- The value behind the verb begins at the first token there. -/
theorem from_isValue {verb : Token} {ts rest : List Token} {e : Expr}
    (h : r.isValue verb ts = .ok (e, rest)) (horder : InOrder line ts) : e.From line ts := by
  unfold isValue at h
  split at h
  · cases h
  · rename_i first tail
    split at h
    · cases h
    · dsimp only at h
      split at h
      next v hv =>
        cases h
        refine ⟨?_, List.nil_sublist _, horder.onLine first (by simp), rfl⟩
        intro w hw
        obtain rfl := List.mem_singleton.mp hw
        split at hv
        · exact isPlain_literal hv
        · cases hv
      next =>
        split at h
        next x hx =>
          cases h
          obtain ⟨hline, hcol⟩ := span_spanTo horder
          refine ⟨?_, List.nil_sublist _, hline, ?_⟩
          · intro w hw
            obtain rfl := List.mem_singleton.mp hw
            exact isPlain_poetic hx
          · show some first.span.col = some (spanTo first tail).col
            rw [hcol]
        next => cases h

theorem from_spokenValue {verb : Token} {ts : List Token} (horder : InOrder line (verb :: ts)) :
    (spokenValue verb ts).From line (verb :: ts) := by
  obtain ⟨hline, hcol⟩ := span_spanTo horder
  refine ⟨?_, List.nil_sublist _, hline, ?_⟩
  · intro w hw
    obtain rfl := List.mem_singleton.mp hw
    trivial
  · show some verb.span.col = some (spanTo verb ts).col
    rw [hcol]

theorem from_name {ts rest : List Token} {stmt : Statement}
    (h : r.nameStatement ts = .ok (stmt, rest)) (horder : InOrder line ts) : stmt.From line := by
  obtain ⟨⟨target, ts₁⟩, htarget, hrest⟩ := bind_ok h
  obtain ⟨front, rfl, hfrom⟩ := from_variable htarget horder
  cases ts₁ with
  | nil => cases hrest
  | cons verb tail =>
    dsimp only at hrest
    split at hrest
    · obtain ⟨⟨value, rest'⟩, hvalue, hpure⟩ := bind_ok hrest
      cases hpure
      have hfrom' := from_isValue hvalue (horder.of_sublist (by simp))
      exact Statement.from_targetFirst hfrom hfrom' (horder.of_sublist (by simp))
    · split at hrest
      · cases hrest
        have hfrom' := from_spokenValue
          (horder.of_sublist (List.sublist_append_right front (verb :: tail)))
        exact Statement.from_targetFirst hfrom hfrom' horder
      · cases hrest

/-- What a statement is read from. -/
theorem from_statement {ts rest : List Token} {stmt : Statement}
    (h : r.statement ts = .ok (stmt, rest)) (horder : InOrder line ts) : stmt.From line := by
  cases ts with
  | nil => cases h
  | cons t tail =>
    have htail : InOrder line tail := horder.of_sublist (List.sublist_cons_self _ _)
    unfold statement at h
    dsimp only at h
    split at h
    · cases h
    · split at h
      · exact from_put h htail
      · split at h
        · exact from_let h htail
        · split at h
          · exact from_output h htail
          · split at h
            · exact from_step h htail
            · split at h
              · exact from_step h htail
              · split at h
                · cases h
                · exact from_name h horder

theorem from_wholeLine {ts : List Token} {stmt : Statement} (h : r.wholeLine ts = .ok stmt)
    (horder : InOrder line ts) : stmt.From line := by
  obtain ⟨⟨stmt', rest⟩, hstmt, h⟩ := bind_ok h
  dsimp only at h
  split at h
  · cases h
    exact from_statement hstmt horder
  · cases h

end Reader

end Rockstar
