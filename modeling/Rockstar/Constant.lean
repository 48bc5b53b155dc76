import Rockstar.Registry
import Rockstar.Routine
import Rockstar.Text.Quoted

/-!
# Constants

Code refers to numbers, texts and routines by their number in the constant pool of its unit. The
pool holds each constant once.
-/

namespace Rockstar

/-- An entry of the constant pool. -/
inductive Constant where
  | number (x : Float)
  | text (s : String)
  /-- A routine, by the digest of its name. -/
  | routine (hash : UInt64)
  deriving DecidableEq

namespace Constant

/-- The constant as listings show it. -/
def display : Constant → String
  | .number x => Decimal.text x
  | .text s => Text.quoted s
  | .routine h => hashText h

/-- The value that loading the constant gives; a routine is no value. -/
def value? : Constant → Option Value
  | .number x => some (.number x)
  | .text s => some (.text s)
  | .routine _ => none

/-- What tells constants apart: their kind, and the bits of a number or routine or the characters
of a text. The two zeros are one constant, and so are all numbers that are not one. -/
def key : Constant → List Nat
  | .number x => if x.isNaN then [0] else [0, if x == 0 then 0 else x.toBits.toNat]
  | .text s => 1 :: s.toList.map Char.toNat
  | .routine h => [2, h.toNat]

end Constant

/-- The constants of a unit. -/
structure Pool where
  table : Registry (List Nat) Constant

namespace Pool

/-- The pool without constants. -/
def empty : Pool := ⟨.empty⟩

/-- The number of constants. -/
def size (p : Pool) : Nat := p.table.size

/-- The constant with the given number. -/
def get? (p : Pool) (i : Nat) : Option Constant := p.table.get? i

/-- The number of the constant, which is added if there is none with the same key. -/
def add (p : Pool) (c : Constant) : Nat × Pool :=
  let (i, table) := p.table.enter c.key c
  (i, ⟨table⟩)

end Pool

end Rockstar
