import Rockstar.Instr
import Rockstar.Kind
import Rockstar.Operator
import Rockstar.Routine

/-!
# Plans for operators

From the kinds that its operands may have, the compiler chooses how to carry out an operator: by an
instruction on numbers, after a check of each operand that might be something else; by a routine;
or by an instruction that takes values of every kind. Operands that can never work have no plan.
-/

namespace Rockstar

/-- How an operator is carried out once both operands are on the stack. -/
inductive Plan where
  | typed (op : Arithmetic) (checkLeft checkRight : Bool)
  | routine (routine : Routine)
  | dispatch (instr : Instr)
  deriving DecidableEq

namespace Plan

/-- Arithmetic on numbers, with a check of each operand that is not known to be one. -/
def ofNumbers (op : Arithmetic) (left right : KindSet) : Plan :=
  .typed op (!left.isOnly .number) (!right.isOnly .number)

/-- The plan of an addition and the kinds of its result. -/
def addition? (left right : KindSet) : Option (Plan × KindSet) :=
  if left.isOnly .number && right.isOnly .number then
    some (ofNumbers .add left right, .only .number)
  else if left.isOnly .text || right.isOnly .text then some (.routine .concat, .only .text)
  else if !left.text && !right.text && !(left.number && right.number) then none
  else some (.routine .add, (KindSet.only .number).union (.only .text))

/-- The plan of an operator for operands of the given kinds, and the kinds of its result. -/
def binary? (op : BinaryOp) (left right : KindSet) : Option (Plan × KindSet) :=
  match op with
  | .arith .add => addition? left right
  | .arith op =>
    if left.number && right.number then some (ofNumbers op left right, .only .number) else none
  | .equality positive => some (.dispatch (.equality positive), .only .boolean)
  | .compare op =>
    if (left.number && right.number) || (left.text && right.text) then
      some (.dispatch (.compare op), .only .boolean)
    else none
  | .logic op => some (.dispatch (.logic op), .only .boolean)

/-- The plan of a negation and the kinds of its result. -/
def negation : Instr × KindSet := (.not, .only .boolean)

end Plan

end Rockstar
