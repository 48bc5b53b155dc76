/-!
# Kinds of values

Every value is of one of five kinds. The compiler knows of an expression only a set of kinds that
its value may have.
-/

namespace Rockstar

/-- What a value is. -/
inductive Kind where
  | number
  | text
  | boolean
  | mysterious
  | null
  deriving DecidableEq

namespace Kind

/-- All kinds, in the order in which descriptions list them. -/
def all : List Kind := [.number, .text, .boolean, .mysterious, .null]

/-- The word for the kind in messages. -/
def name : Kind → String
  | .number => "number"
  | .text => "string"
  | .boolean => "boolean"
  | .mysterious => "mysterious"
  | .null => "null"

/-- The bit of the kind in a set's bit pattern. -/
def bit : Kind → Nat
  | .number => 1
  | .text => 2
  | .boolean => 4
  | .mysterious => 8
  | .null => 16

end Kind

/-- A set of kinds. -/
structure KindSet where
  number : Bool
  text : Bool
  boolean : Bool
  mysterious : Bool
  null : Bool
  deriving DecidableEq

namespace KindSet

/-- Every kind. -/
def any : KindSet := ⟨true, true, true, true, true⟩

/-- Whether a value of the kind is possible. -/
def has (s : KindSet) : Kind → Bool
  | .number => s.number
  | .text => s.text
  | .boolean => s.boolean
  | .mysterious => s.mysterious
  | .null => s.null

/-- The set of one kind. -/
def only : Kind → KindSet
  | .number => ⟨true, false, false, false, false⟩
  | .text => ⟨false, true, false, false, false⟩
  | .boolean => ⟨false, false, true, false, false⟩
  | .mysterious => ⟨false, false, false, true, false⟩
  | .null => ⟨false, false, false, false, true⟩

/-- The kinds of either set. -/
def union (s t : KindSet) : KindSet :=
  ⟨s.number || t.number, s.text || t.text, s.boolean || t.boolean,
    s.mysterious || t.mysterious, s.null || t.null⟩

/-- Whether the kind is the only one possible. -/
def isOnly (s : KindSet) (k : Kind) : Bool := s = only k

/-- The kinds of the set, in order. -/
def toList (s : KindSet) : List Kind := Kind.all.filter s.has

/-- The one kind of the set, if it has exactly one. -/
def single? (s : KindSet) : Option Kind :=
  match s.toList with
  | [k] => some k
  | _ => none

/-- The set as a phrase: its kinds joined by "or", or "any value". -/
def describe (s : KindSet) : String :=
  if s = any then "any value" else " or ".intercalate (s.toList.map Kind.name)

/-- The bit pattern of the set. -/
def bits (s : KindSet) : Nat := s.toList.foldl (fun n k => n + k.bit) 0

/-- The kinds whose bits are set; higher bits are left aside. -/
def ofBits (n : Nat) : KindSet :=
  ⟨n.testBit 0, n.testBit 1, n.testBit 2, n.testBit 3, n.testBit 4⟩

@[simp] theorem has_union (s t : KindSet) (k : Kind) :
    (s.union t).has k = (s.has k || t.has k) := by
  cases k <;> rfl

@[simp] theorem has_only (j k : Kind) : (only j).has k = decide (j = k) := by
  cases j <;> cases k <;> rfl

@[simp] theorem has_any (k : Kind) : any.has k = true := by
  cases k <;> rfl

/-- A set is determined by the kinds that it has. -/
theorem ext_has {s t : KindSet} (h : ∀ k, s.has k = t.has k) : s = t := by
  have hn := h .number
  have ht := h .text
  have hb := h .boolean
  have hm := h .mysterious
  have hu := h .null
  cases s
  cases t
  simp_all [has]

end KindSet

end Rockstar
