import Rockstar.Compile

/-!
# Listings

The fields of a compiled program and its instructions, one on each line, with the constants and
fields that they refer to.
-/

namespace Rockstar

/-- A name or phrase for a missing thing. -/
def absent (what : String) : String := s!"<{what}>"

namespace Executable

/-- The constant with the given number as the listing shows it. -/
def constantText (x : Executable) (i : Nat) : String :=
  match x.pool.get? i with
  | some c => c.display
  | none => absent "missing"

/-- The name of the field with the given number. -/
def fieldText (x : Executable) (i : Nat) : String :=
  match x.fields[i]? with
  | some slot => slot.name
  | none => absent "unknown"

/-- The name of the routine that the constant with the given number refers to. -/
def routineText (x : Executable) (i : Nat) : String :=
  match x.pool.get? i with
  | some (.routine h) =>
    match Routine.ofHash? h with
    | some r => r.name
    | none => absent "unknown"
  | _ => absent "not a function"

/-- An instruction with its operands. -/
def instrText (x : Executable) (i : Instr) : String :=
  let name := i.opcode.name
  match i with
  | .constant c => s!"{name} {c.toNat} ; {x.constantText c.toNat}"
  | .constantWide c => s!"{name} {c.toNat} ; {x.constantText c.toNat}"
  | .getField f => s!"{name} {f.toNat} ; {x.fieldText f.toNat}"
  | .setField f => s!"{name} {f.toNat} ; {x.fieldText f.toNat}"
  | .expectNumber depth => s!"{name} {depth.toNat}"
  | .call r argc => s!"{name} {x.routineText r.toNat}/{argc.toNat}"
  | _ => name

/-- What stands at an offset of the code. -/
def fetchText (x : Executable) : Fetch → String
  | .instr i _ _ => x.instrText i
  | .invalid b _ => absent s!"invalid {Text.hexLiteral 2 b.toNat}"
  | .truncated op _ _ => op.name ++ " " ++ absent "truncated"
  | .ended => ""

/-- The listing of what stands in the code. Offset and source line come first; `previous` is the
line of the instruction before, which is not repeated. -/
def linesFrom (x : Executable) (previous : Option Nat) :
    List (Nat × Fetch) → List String
  | [] => []
  | (offset, f) :: rest =>
    let position := Text.padLeft 4 '0' (toString offset)
    let line := x.code.line? offset
    let margin :=
      match line with
      | some n => if previous = line then "   |" else Text.padLeft 4 ' ' (toString n)
      | none => "   ?"
    s!"{position} {margin} {x.fetchText f}\n" :: linesFrom x line rest

/-- The listing of the fields. -/
def fieldLines (x : Executable) : List String :=
  x.fields.toList.mapIdx fun i slot => s!"field {i} {slot.fieldName} ({slot.name})\n"

/-- The listing of the program. -/
def listing (x : Executable) : String :=
  String.join (s!"== {x.name} ==\n" :: x.fieldLines ++ x.linesFrom none x.code.walk)

end Executable

end Rockstar
