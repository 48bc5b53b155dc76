import Rockstar.Expr
import Rockstar.Vocabulary

/-!
# Statements

A program is a list of statements, one for each line that is not blank.
-/

namespace Rockstar

/-- Which way a variable is stepped. -/
inductive Direction where
  | up
  | down
  deriving DecidableEq

/-- The word that is repeated for every step. -/
def Direction.word : Direction → String
  | .up => "up"
  | .down => "down"

/-- The operation of a step. -/
def Direction.operation : Direction → Arithmetic
  | .up => .add
  | .down => .subtract

/-- One line of a program. -/
inductive Statement where
  | assign (target : Variable) (value : Expr) (span : Span)
  | output (verb : Verb) (value : Expr) (span : Span)
  | step (direction : Direction) (target : Variable) (count : Nat) (span : Span)
  deriving DecidableEq

namespace Statement

/-- The place of the statement. -/
def span : Statement → Span
  | .assign _ _ s => s
  | .output _ _ s => s
  | .step _ _ _ s => s

end Statement

/-- Whether a target is written before the value that is assigned to it. -/
def Variable.isBefore (target : Variable) (value : Expr) : Bool :=
  target.span.col < value.span.col

end Rockstar
