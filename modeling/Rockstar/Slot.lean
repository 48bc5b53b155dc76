import Rockstar.CompileError
import Rockstar.Kind
import Rockstar.Registry

/-!
# Storage slots

Every variable of a compiled unit has a slot, a field that lives as long as the program runs. Slots
are numbered in the order in which variables are first assigned.
-/

namespace Rockstar

/-- The field of one variable. -/
structure Slot where
  /-- The number of the slot, which is also the index of the field. -/
  number : Nat
  /-- The canonical name of the variable. -/
  name : String
  /-- The kinds of values that the field is declared to hold. -/
  declared : KindSet
  deriving DecidableEq

/-- A canonical name as a field name: two underscores in place of each space. -/
def fieldName (name : String) : String :=
  String.ofList (name.toList.flatMap fun c => if c = ' ' then ['_', '_'] else [c])

/-- The name of the field. -/
def Slot.fieldName (s : Slot) : String := Rockstar.fieldName s.name

/-- The slots of a unit. -/
structure SlotTable where
  /-- The name of the unit. -/
  owner : String
  slots : Registry String Slot

namespace SlotTable

/-- The table of a unit without variables. -/
def empty (owner : String) : SlotTable := ⟨owner, .empty⟩

/-- The number of slots. -/
def size (t : SlotTable) : Nat := t.slots.size

/-- The number of the variable's slot, if it has one. -/
def find? (t : SlotTable) (name : String) : Option Nat := t.slots.find? name

/-- The slot with the given number. -/
def get? (t : SlotTable) (i : Nat) : Option Slot := t.slots.get? i

/-- The number of the variable's slot, which is created on first use unless the table is full. -/
def enter (t : SlotTable) (name : String) (declared : KindSet) (span : Span) :
    Except CompileError Nat × SlotTable :=
  match t.find? name with
  | some i => (.ok i, t)
  | none =>
    let n := t.size
    if n < indexLimit then (.ok n, { t with slots := t.slots.push name ⟨n, name, declared⟩ })
    else (.error (.tooManyVariables t.owner span), t)

end SlotTable

end Rockstar
