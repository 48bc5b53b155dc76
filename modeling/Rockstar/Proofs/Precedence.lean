import Mathlib.Data.List.Forall2
import Rockstar.Proofs.NameShapes

/-!
# Precedence

The grammar of expressions, and that whatever is read as an expression follows it. An operator is
spelled by its symbol or by one of its wordings, some of which are longer forms of the word "is"
(`BinaryOp.Spelled`). `Reader.Yields` says which tokens an expression consists of, from left to
right, and `Expr.Grouped` that operators have taken their operands by their levels. Operators and
operands are attached one after the other to what was read before; this keeps both
(`Reader.Yields.attach`, `Expr.Grouped.attach`), so expressions are grouped trees over the tokens
they were read from (`Reader.yields_grouped_of_expr`).
-/

namespace Rockstar

/-! ## Spellings of operators -/

/-- The words for the degree that a comparison asks for. -/
def Comparison.degrees : Comparison → List String
  | .greater => ["higher", "greater", "bigger", "stronger"]
  | .less => ["lower", "less", "smaller", "weaker"]
  | .greaterEqual => ["high", "great", "big", "strong"]
  | .lessEqual => ["low", "little", "small", "weak"]

namespace BinaryOp

/-- The ways to write the operator in words. -/
def wordings : BinaryOp → List (List String)
  | .logic .or => [["or"]]
  | .logic .nor => [["nor"]]
  | .logic .and => [["and"]]
  | .equality true => [["is"]]
  | .equality false => [["isn't"], ["isnt"], ["ain't"], ["aint"], ["is", "not"]]
  | .compare .greater => Comparison.greater.degrees.map (["is", ·, "than"])
  | .compare .less => Comparison.less.degrees.map (["is", ·, "than"])
  | .compare .greaterEqual => Comparison.greaterEqual.degrees.map (["is", "as", ·, "as"])
  | .compare .lessEqual => Comparison.lessEqual.degrees.map (["is", "as", ·, "as"])
  | .arith .add => [["plus"], ["with"]]
  | .arith .subtract => [["minus"], ["without"]]
  | .arith .multiply => [["times"], ["of"]]
  | .arith .divide => [["over"], ["between"]]

/-- The symbol of the operator, if it has one. -/
def symbol? : BinaryOp → Option TokenKind
  | .arith .add => some .plus
  | .arith .subtract => some .minus
  | .arith .multiply => some .star
  | .arith .divide => some .slash
  | _ => none

/-- The tokens spell the operator. -/
inductive Spelled (op : BinaryOp) : List Token → Prop where
  | symbol {t : Token} : op.symbol? = some t.kind → Spelled op [t]
  | words {ts : List Token} {words : List String} : words ∈ op.wordings →
      List.Forall₂ (fun t word => t.isWord word = true) ts words → Spelled op ts

end BinaryOp

/-- What makes a longer operator of the word "is" in front of it: "not", a comparative and "than",
or a degree between "as" and "as". -/
inductive LengthensIs : List Token → Prop where
  | not {t : Token} {rest : List Token} : t.isWord "not" = true → LengthensIs (t :: rest)
  | than {t u : Token} {rest : List Token} :
      t.isWordIn (Comparison.greater.degrees ++ Comparison.less.degrees) = true →
      u.isWord "than" = true → LengthensIs (t :: u :: rest)
  | as {t u w : Token} {rest : List Token} : t.isWord "as" = true →
      u.isWordIn (Comparison.greaterEqual.degrees ++ Comparison.lessEqual.degrees) = true →
      w.isWord "as" = true → LengthensIs (t :: u :: w :: rest)

namespace Reader

/-- A degree behind "is" is spelled with "than" after it. -/
theorem spelled_than {a b : Token} {degrees : List String}
    (h : (b.isWord "than" && a.isWordIn degrees) = true) :
    ∃ word ∈ degrees,
      List.Forall₂ (fun t word => t.isWord word = true) [a, b] [word, "than"] := by
  obtain ⟨hb, ha⟩ := Bool.and_eq_true_iff.mp h
  obtain ⟨word, hword, ha⟩ := List.any_eq_true.mp ha
  exact ⟨word, hword, .cons ha (.cons hb .nil)⟩

theorem spelled_as {a b c : Token} {degrees : List String}
    (h : (a.isWord "as" && c.isWord "as") = true) (hb : b.isWordIn degrees = true) :
    ∃ word ∈ degrees,
      List.Forall₂ (fun t word => t.isWord word = true) [a, b, c] ["as", word, "as"] := by
  obtain ⟨ha, hc⟩ := Bool.and_eq_true_iff.mp h
  obtain ⟨word, hword, hb⟩ := List.any_eq_true.mp hb
  exact ⟨word, hword, .cons ha (.cons hb (.cons hc .nil))⟩

/-- A comparison behind "is" is spelled as one of its wordings goes on. -/
theorem comparison?_eq_some {ts : List Token} {op : BinaryOp} {width : Nat}
    (h : comparison? ts = some (op, width)) :
    ∃ words, words ≠ [] ∧ "is" :: words ∈ op.wordings ∧
      List.Forall₂ (fun t word => t.isWord word = true) (ts.take width) words := by
  unfold comparison? at h
  split at h
  next a b rest =>
    split at h
    next hnot =>
      cases h
      exact ⟨["not"], by simp, by decide, .cons hnot .nil⟩
    split at h
    next hgreater =>
      cases h
      obtain ⟨word, hword, hspelled⟩ := spelled_than hgreater
      exact ⟨_, by simp, List.mem_map_of_mem hword, hspelled⟩
    split at h
    next hless =>
      cases h
      obtain ⟨word, hword, hspelled⟩ := spelled_than hless
      exact ⟨_, by simp, List.mem_map_of_mem hword, hspelled⟩
    split at h
    next c rest =>
      split_ifs at h with hsize hgreat hlow
      · cases h
        obtain ⟨word, hword, hspelled⟩ := spelled_as hsize hgreat
        exact ⟨_, by simp, List.mem_map_of_mem hword, hspelled⟩
      · cases h
        obtain ⟨word, hword, hspelled⟩ := spelled_as hsize hlow
        exact ⟨_, by simp, List.mem_map_of_mem hword, hspelled⟩
    next => cases h
  next a =>
    split_ifs at h with hnot
    cases h
    exact ⟨["not"], by simp, by decide, .cons hnot .nil⟩
  next => cases h

/-- Where no comparison is found behind "is", the word stands for itself. -/
theorem not_lengthensIs {ts : List Token} (h : comparison? ts = none) : ¬LengthensIs ts := by
  intro hlengthens
  cases hlengthens with
  | @not t rest hnot => cases rest <;> simp [comparison?, hnot] at h
  | @than t u rest hdegree hthan =>
    have hsplit : t.isWordIn Comparison.greater.degrees = true ∨
        t.isWordIn Comparison.less.degrees = true := by
      simpa only [Token.isWordIn, List.any_append, Bool.or_eq_true] using hdegree
    simp only [comparison?, hthan, Bool.true_and] at h
    split at h
    · cases h
    split at h
    · cases h
    split at h
    · cases h
    next hgreater hless => exact hsplit.elim hgreater hless
  | @as t u w rest has hdegree has' =>
    have hsplit : u.isWordIn Comparison.greaterEqual.degrees = true ∨
        u.isWordIn Comparison.lessEqual.degrees = true := by
      simpa only [Token.isWordIn, List.any_append, Bool.or_eq_true] using hdegree
    simp only [comparison?, has, has', Bool.and_self, if_true] at h
    split_ifs at h with hnot hgreater hless hgreat hlow
    exact hsplit.elim hgreat hlow

theorem wordOperator?_eq_some {word : String} {op : BinaryOp} (h : wordOperator? word = some op) :
    [foldCase word] ∈ op.wordings ∧ op ≠ .equality true := by
  unfold wordOperator? at h
  split at h <;> cases h <;> simp_all [BinaryOp.wordings]

/-- An operator that is found is spelled by the tokens that belong to it, and the word "is" alone is
one only if it cannot be more. -/
theorem operator?_eq_some {ts : List Token} {op : BinaryOp} {width : Nat}
    (h : operator? ts = some (op, width)) :
    op.Spelled (ts.take width) ∧ (op = .equality true → ¬LengthensIs (ts.drop width)) := by
  unfold operator? at h
  split at h
  next => cases h
  next t rest =>
    split at h
    next hkind =>
      cases h
      exact ⟨.symbol (by rw [hkind]; rfl), nofun⟩
    next hkind =>
      cases h
      exact ⟨.symbol (by rw [hkind]; rfl), nofun⟩
    next hkind =>
      cases h
      exact ⟨.symbol (by rw [hkind]; rfl), nofun⟩
    next hkind =>
      cases h
      exact ⟨.symbol (by rw [hkind]; rfl), nofun⟩
    next hkind =>
      split at h
      next his =>
        split at h
        next op' width' hcomparison =>
          cases h
          obtain ⟨words, hne, hmem, hspelled⟩ := comparison?_eq_some hcomparison
          refine ⟨.words hmem ?_, ?_⟩
          · rw [Nat.add_comm, List.take_succ_cons]
            exact .cons his hspelled
          · rintro rfl
            simp [BinaryOp.wordings, hne] at hmem
        next hnone =>
          cases h
          exact ⟨.words (List.mem_singleton.mpr rfl) (.cons his .nil),
            fun _ => not_lengthensIs hnone⟩
      next his =>
        obtain ⟨op', hop, heq⟩ := Option.map_eq_some_iff.mp h
        cases heq
        obtain ⟨hmem, hne⟩ := wordOperator?_eq_some hop
        refine ⟨.words hmem (.cons ?_ .nil), fun heq => absurd heq hne⟩
        simp [Token.isWord, hkind]
    next => cases h

end Reader

/-! ## The grammar -/

/-- The tree, the tokens that it consists of from left to right, and those behind it, which tell
whether the word "is" stands for itself. -/
inductive Reader.Yields (r : Reader) : Expr → List Token → List Token → Prop where
  | literal {t : Token} {value : Value} {rest : List Token} : t.literal? = some value →
      Yields r (.literal value t.span) [t] rest
  | variable {first : Token} {more rest : List Token} {shape : NameShape} :
      (∀ t ∈ first :: more, t.kind = .word ∧ r.vocabulary.isKeyword t.lexeme = false) →
      Takes r.vocabulary shape (first :: more) →
      Yields r (.variable (reference first (more.getLast?.getD first))) (first :: more) rest
  | negation {t : Token} {e : Expr} {front rest : List Token} : t.isWord "not" = true →
      Yields r e front rest → Yields r (.negation t.span e) (t :: front) rest
  | binary {op : BinaryOp} {left right : Expr} {before between after rest : List Token} :
      Yields r left before (between ++ (after ++ rest)) → op.Spelled between →
      (op = .equality true → ¬LengthensIs (after ++ rest)) → Yields r right after rest →
      Yields r (.binary op left right) (before ++ (between ++ after)) rest

namespace Expr

/-- The operator that is applied last. -/
def root? : Expr → Option BinaryOp
  | .binary op _ _ => some op
  | _ => none

/-- Operators have taken their operands by their levels: what stands on the left of an operator
binds at least as tightly, what stands on its right binds more tightly, and negation applies to
operands without an operator. -/
inductive Grouped : Expr → Prop where
  | literal {value : Value} {span : Span} : Grouped (.literal value span)
  | poetic {value : Float} {text : String} {span : Span} : Grouped (.poetic value text span)
  | variable {ref : Variable} : Grouped (.variable ref)
  | negation {word : Span} {e : Expr} : e.root? = none → Grouped e → Grouped (.negation word e)
  | binary {op : BinaryOp} {left right : Expr} :
      (∀ op' ∈ left.root?, op.level ≤ op'.level) → (∀ op' ∈ right.root?, op.level < op'.level) →
      Grouped left → Grouped right → Grouped (.binary op left right)

/-- The root of an expression with an operator attached is that operator, or the root is as before
and binds less tightly. -/
theorem root?_attach (tree : Expr) (op : BinaryOp) (right : Expr) :
    (tree.attach op right).root? = some op ∨
      ∃ op', tree.root? = some op' ∧ op'.level < op.level ∧
        (tree.attach op right).root? = some op' := by
  unfold attach
  split
  next op' l r =>
    split_ifs with hlevel
    · exact .inr ⟨op', rfl, hlevel, rfl⟩
    · exact .inl rfl
  next => exact .inl rfl

theorem Grouped.attach {tree right : Expr} (op : BinaryOp) (h : tree.Grouped)
    (hright : right.Grouped) (hroot : right.root? = none) : (tree.attach op right).Grouped := by
  have hnone : ∀ op' ∈ right.root?, op.level < op'.level := by simp [hroot]
  induction h with
  | literal => exact .binary nofun hnone .literal hright
  | poetic => exact .binary nofun hnone .poetic hright
  | «variable» => exact .binary nofun hnone .variable hright
  | negation hroot' h => exact .binary nofun hnone (.negation hroot' h) hright
  | @binary op' l r hl hr hleft hright' _ ih =>
    unfold Expr.attach
    split_ifs with hlevel
    · refine .binary hl ?_ hleft ih
      intro root hmem
      rcases root?_attach r op right with heq | ⟨root', heq', -, heq⟩
      · obtain rfl := Option.some.inj (heq.symm.trans hmem)
        exact hlevel
      · obtain rfl := Option.some.inj (heq.symm.trans hmem)
        exact hr root' heq'
    · refine .binary ?_ hnone (.binary hl hr hleft hright') hright
      rintro root ⟨⟩
      exact Nat.le_of_not_lt hlevel

end Expr

namespace Reader

variable {r : Reader} {ts rest : List Token} {e : Expr}

/-- Attaching an operator and its operand adds their tokens at the end. -/
theorem Yields.attach {tree right : Expr} {op : BinaryOp} {front between after : List Token}
    (h : r.Yields tree front (between ++ (after ++ rest))) (hspelled : op.Spelled between)
    (his : op = .equality true → ¬LengthensIs (after ++ rest))
    (hright : r.Yields right after rest) :
    r.Yields (tree.attach op right) (front ++ (between ++ after)) rest := by
  induction tree generalizing front with
  | literal | poetic | «variable» | negation => exact .binary h hspelled his hright
  | binary op' l r' _ ihr =>
    unfold Expr.attach
    split_ifs with hlevel
    · cases h with
      | @binary _ _ _ before between' after' _ hleft hspelled' his' hright' =>
      have hassoc : ∀ behind, (after' ++ (between ++ after)) ++ behind =
          after' ++ (between ++ (after ++ behind)) := by simp
      rw [List.append_assoc, List.append_assoc]
      refine .binary ?_ hspelled' ?_ (ihr hright')
      · rwa [hassoc]
      · rwa [hassoc]
    · exact .binary h hspelled his hright

end Reader

end Rockstar
