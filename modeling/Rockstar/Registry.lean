import Std.Data.TreeMap

/-!
# Registries

A registry hands out consecutive numbers. Each key gets the next free number when it is first
entered, together with an entry that never changes; entering the key again gives the same number.
-/

namespace Rockstar

/-- Numbered entries and the number of each key. -/
structure Registry (κ : Type) [Ord κ] (α : Type) where
  entries : Array α
  index : Std.TreeMap κ Nat

namespace Registry

variable {κ : Type} [Ord κ] {α : Type}

/-- The registry without entries. -/
def empty : Registry κ α := ⟨#[], ∅⟩

/-- The number of entries. -/
def size (r : Registry κ α) : Nat := r.entries.size

/-- The number of a key. -/
def find? (r : Registry κ α) (key : κ) : Option Nat := r.index[key]?

/-- The entry with the given number. -/
def get? (r : Registry κ α) (i : Nat) : Option α := r.entries[i]?

/-- Enters a new key. -/
def push (r : Registry κ α) (key : κ) (entry : α) : Registry κ α :=
  let n := r.size
  ⟨r.entries.push entry, r.index.insert key n⟩

/-- The number of the key, which is entered if it is new. -/
def enter (r : Registry κ α) (key : κ) (entry : α) : Nat × Registry κ α :=
  match r.find? key with
  | some i => (i, r)
  | none => (r.size, r.push key entry)

end Registry

end Rockstar
