import Rockstar.Operator
import Rockstar.Span

/-!
# Expressions

The expressions of a program, each with the place it was written at.
-/

namespace Rockstar

/-- A reference to a variable as it was written. -/
structure Variable where
  text : String
  span : Span
  deriving DecidableEq

/-- An expression. -/
inductive Expr where
  | literal (value : Value) (span : Span)
  /-- A number spelled by the lengths of words. -/
  | poetic (value : Float) (text : String) (span : Span)
  | variable (ref : Variable)
  | binary (op : BinaryOp) (left right : Expr)
  /-- Negation; `word` is the place of the word "not". -/
  | negation (word : Span) (operand : Expr)
  deriving DecidableEq

namespace Expr

/-- The place of the whole expression. -/
def span : Expr → Span
  | .literal _ s => s
  | .poetic _ _ s => s
  | .variable v => v.span
  | .binary _ l r => l.span.join r.span
  | .negation word e => word.join e.span

/-- Adds an operator and its right operand at the end of an expression. The operator takes as its
left operand all of the expression that binds at least as tightly as it does. -/
def attach (tree : Expr) (op : BinaryOp) (right : Expr) : Expr :=
  match tree with
  | .binary op' l r =>
    if op'.level < op.level then .binary op' l (r.attach op right)
    else .binary op tree right
  | _ => .binary op tree right

end Expr

end Rockstar
