import Rockstar.Decimal.Text
import Rockstar.Kind

/-!
# Values

The values that programs compute with, and the operations on two values. An operation that has no
meaning for the kinds of its operands yields a `Mismatch`, which names what was tried.
-/

namespace Rockstar

/-- A value of a running program. -/
inductive Value where
  | number (x : Float)
  | text (s : String)
  | boolean (b : Bool)
  | mysterious
  | null
  deriving DecidableEq

/-- The four operations on numbers. -/
inductive Arithmetic where
  | add
  | subtract
  | multiply
  | divide
  deriving DecidableEq

/-- The four orderings. -/
inductive Comparison where
  | less
  | lessEqual
  | greater
  | greaterEqual
  deriving DecidableEq

/-- The three ways to combine truth values. -/
inductive Connective where
  | and
  | or
  | nor
  deriving DecidableEq

/-- An operation that the kinds of its operands do not allow. -/
structure Mismatch where
  verb : String
  left : Kind
  right : Kind
  deriving DecidableEq

/-- What was tried on which kinds. -/
def Mismatch.message (m : Mismatch) : String :=
  s!"cannot {m.verb} {m.left.name} and {m.right.name}"

namespace Arithmetic

/-- The operation as a verb in messages. -/
def verb : Arithmetic → String
  | .add => "add"
  | .subtract => "subtract"
  | .multiply => "multiply"
  | .divide => "divide"

/-- The operation on two numbers. -/
def apply : Arithmetic → Float → Float → Float
  | .add, x, y => x + y
  | .subtract, x, y => x - y
  | .multiply, x, y => x * y
  | .divide, x, y => x / y

end Arithmetic

namespace Comparison

/-- The ordering of two numbers; it never holds of a number that is not one. -/
def ofNumbers : Comparison → Float → Float → Bool
  | .less, x, y => x < y
  | .lessEqual, x, y => x ≤ y
  | .greater, x, y => y < x
  | .greaterEqual, x, y => y ≤ x

/-- The ordering of two texts by their characters. -/
def ofTexts : Comparison → String → String → Bool
  | .less, s, t => s < t
  | .lessEqual, s, t => !decide (t < s)
  | .greater, s, t => t < s
  | .greaterEqual, s, t => !decide (s < t)

end Comparison

/-- The truth value of two combined truth values. -/
def Connective.apply : Connective → Bool → Bool → Bool
  | .and, a, b => a && b
  | .or, a, b => a || b
  | .nor, a, b => !(a || b)

namespace Value

/-- The kind of the value. -/
def kind : Value → Kind
  | .number _ => .number
  | .text _ => .text
  | .boolean _ => .boolean
  | .mysterious => .mysterious
  | .null => .null

/-- The value as output shows it. -/
def toText : Value → String
  | .number x => Decimal.text x
  | .text s => s
  | .boolean b => if b then "true" else "false"
  | .mysterious => "mysterious"
  | .null => "null"

/-- The number that the value is, if it is one. -/
def number? : Value → Option Float
  | .number x => some x
  | _ => none

/-- Whether the value counts as true: all numbers but zero, all texts but the empty one. -/
def truthy : Value → Bool
  | .number x => x != 0
  | .text s => s != ""
  | .boolean b => b
  | .mysterious => false
  | .null => false

/-- Equality of values; values of different kinds are never equal. -/
def equals : Value → Value → Bool
  | .number x, .number y => x == y
  | .text s, .text t => s == t
  | .boolean a, .boolean b => a == b
  | .mysterious, .mysterious => true
  | .null, .null => true
  | _, _ => false

/-- The texts of both values, one after the other. -/
def concat (a b : Value) : Value := .text (a.toText ++ b.toText)

/-- An operation on two numbers; addition with a text on either side joins texts. -/
def arithmetic (op : Arithmetic) (a b : Value) : Except Mismatch Value :=
  match op, a, b with
  | op, .number x, .number y => .ok (.number (op.apply x y))
  | .add, .text _, _ => .ok (a.concat b)
  | .add, _, .text _ => .ok (a.concat b)
  | _, _, _ => .error ⟨op.verb, a.kind, b.kind⟩

/-- An ordering of two numbers or two texts. -/
def compare (op : Comparison) (a b : Value) : Except Mismatch Bool :=
  match a, b with
  | .number x, .number y => .ok (op.ofNumbers x y)
  | .text s, .text t => .ok (op.ofTexts s t)
  | _, _ => .error ⟨"compare", a.kind, b.kind⟩

end Value

end Rockstar
