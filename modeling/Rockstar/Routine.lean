import Rockstar.Digest
import Rockstar.Text.Hex
import Rockstar.Value

/-!
# Routines

The operations of the machine that depend on the kinds of their operands are routines. Compiled
code refers to a routine by the digest of its name.
-/

namespace Rockstar

/-- An operation that compiled code calls. -/
inductive Routine where
  | toText
  | add
  | concat
  deriving DecidableEq

namespace Routine

/-- All routines. -/
def all : List Routine := [.toText, .add, .concat]

/-- The name of the routine. -/
def name : Routine → String
  | .toText => "to_text"
  | .add => "add"
  | .concat => "concat"

/-- The number of values that the routine takes. -/
def arity : Routine → Nat
  | .toText => 1
  | .add => 2
  | .concat => 2

/-- The seed of all routine digests. -/
def seed : UInt64 := 0x524f434b53544152

/-- The digest by which code refers to a routine of the given name. -/
def hashOf (name : String) : UInt64 := Digest.ofString seed name

/-- The digest of the routine's name. -/
def hash (r : Routine) : UInt64 := hashOf r.name

/-- The routine with the given digest. -/
def ofHash? (h : UInt64) : Option Routine := all.find? (·.hash == h)

/-- The routine with the given name. -/
def ofName? (name : String) : Option Routine := all.find? (·.name == name)

end Routine

/-- A digest as listings show it. -/
def hashText (h : UInt64) : String := s!"RuntimeFnHash({Text.hexLiteral 16 h.toNat})"

end Rockstar
