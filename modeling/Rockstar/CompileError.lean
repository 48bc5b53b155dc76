import Rockstar.Kind
import Rockstar.Operator
import Rockstar.Span

/-!
# Errors of compilation
-/

namespace Rockstar

/-- Why a program that could be read is refused. -/
inductive CompileError where
  | malformedName (text : String) (span : Span)
  | unresolvedPronoun (pronoun : String) (span : Span)
  | unboundVariable (name : String) (span : Span)
  | typeMismatch (op : BinaryOp) (left right : KindSet) (span : Span)
  | tooManyVariables (owner : String) (span : Span)
  | tooManyConstants (span : Span)
  deriving DecidableEq

/-- The number of variables, and of constants, that a unit can hold: as many as a 16-bit index
tells apart. -/
def indexLimit : Nat := 65536

namespace CompileError

/-- Where the error is. -/
def span : CompileError → Span
  | .malformedName _ s => s
  | .unresolvedPronoun _ s => s
  | .unboundVariable _ s => s
  | .typeMismatch _ _ _ s => s
  | .tooManyVariables _ s => s
  | .tooManyConstants s => s

/-- What is wrong, without the place. -/
def reason : CompileError → String
  | .malformedName text _ => s!"'{text}' is not a valid variable name"
  | .unresolvedPronoun pronoun _ =>
    s!"pronoun '{pronoun}' does not refer to any earlier variable"
  | .unboundVariable name _ => s!"variable '{name}' is read before it is assigned"
  | .typeMismatch op left right _ =>
    s!"'{op.text}' cannot be applied to {left.describe} and {right.describe}"
  | .tooManyVariables owner _ => s!"unit '{owner}' cannot hold more than {indexLimit} variables"
  | .tooManyConstants _ => s!"more than {indexLimit} constants"

/-- The error in words. -/
def message (e : CompileError) : String := s!"at {e.span.text}: {e.reason}"

end CompileError

end Rockstar
