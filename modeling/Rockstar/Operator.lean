import Rockstar.Value

/-!
# Operators

The operators that stand between two expressions, and how tightly they bind. All of them group to
the left.
-/

namespace Rockstar

/-- An operator between two expressions. -/
inductive BinaryOp where
  | logic (connective : Connective)
  /-- Equality, or inequality when `positive` does not hold. -/
  | equality (positive : Bool)
  | compare (comparison : Comparison)
  | arith (operation : Arithmetic)
  deriving DecidableEq

namespace BinaryOp

/-- All operators. -/
def all : List BinaryOp :=
  [.logic .or, .logic .nor, .logic .and, .equality true, .equality false, .compare .less,
    .compare .lessEqual, .compare .greater, .compare .greaterEqual, .arith .add, .arith .subtract,
    .arith .multiply, .arith .divide]

/-- How tightly the operator binds; a higher level binds more tightly. -/
def level : BinaryOp → Nat
  | .logic .or => 1
  | .logic .nor => 1
  | .logic .and => 2
  | .equality _ => 3
  | .compare _ => 3
  | .arith .add => 4
  | .arith .subtract => 4
  | .arith .multiply => 5
  | .arith .divide => 5

/-- The binding powers to the left and to the right. The right one is the greater, which makes
equal levels group to the left. -/
def power (op : BinaryOp) : Nat × Nat := (2 * op.level - 1, 2 * op.level)

/-- The operator in words. -/
def text : BinaryOp → String
  | .logic .or => "or"
  | .logic .nor => "nor"
  | .logic .and => "and"
  | .equality true => "is"
  | .equality false => "ain't"
  | .compare .less => "is less than"
  | .compare .lessEqual => "is as low as"
  | .compare .greater => "is greater than"
  | .compare .greaterEqual => "is as high as"
  | .arith .add => "plus"
  | .arith .subtract => "minus"
  | .arith .multiply => "times"
  | .arith .divide => "over"

/-- Whether the operator calculates. -/
def isArithmetic : BinaryOp → Bool
  | .arith _ => true
  | _ => false

/-- Whether the operator orders. -/
def isOrdering : BinaryOp → Bool
  | .compare _ => true
  | _ => false

/-- Whether the operator combines truth values. -/
def isLogical : BinaryOp → Bool
  | .logic _ => true
  | _ => false

end BinaryOp

/-- The word of negation. -/
def negationText : String := "not"

/-- The binding power of negation, above that of every operator between two expressions. -/
def negationPower : Nat := 11

end Rockstar
