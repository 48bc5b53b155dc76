import Rockstar.Assembler
import Rockstar.Name
import Rockstar.Slot

/-!
# Compilation sessions

The state of a compilation: the variable named last, the slots, and the code so far. The small
steps here are all that compilation does to it. A step that fails keeps what was done before it.
-/

namespace Rockstar

/-- What reading a variable means that was never assigned. -/
inductive UnboundPolicy where
  /-- The program is refused. -/
  | refuse
  /-- The variable is mysterious. -/
  | mysterious
  deriving DecidableEq

/-- What a compilation is told besides the program. -/
structure Options where
  /-- The name of the compiled unit. -/
  unit : String := "Rockstar"
  vocabulary : Vocabulary := .standard
  unbound : UnboundPolicy := .refuse

/-- The state of a compilation. -/
structure Session where
  /-- The variable that a pronoun refers to. -/
  last : Option Identity
  slots : SlotTable
  asm : Assembler

/-- The session before the first statement. -/
def Session.start (o : Options) : Session := ⟨none, .empty o.unit, .start⟩

/-- A step of compilation. -/
abbrev CompileM := ExceptT CompileError (StateM Session)

namespace CompileM

/-- Does something with the assembler. -/
def assemble {α : Type} (f : Assembler → Except CompileError α × Assembler) : CompileM α :=
  fun s =>
    let ⟨last, slots, asm⟩ := s
    let (result, asm) := f asm
    (result, ⟨last, slots, asm⟩)

/-- Appends an instruction. -/
def emit (i : Instr) : CompileM Unit := assemble fun a => (.ok (), a.emit i)

/-- Sets the source line of the instructions that follow. -/
def setLine (line : Nat) : CompileM Unit := assemble fun a => (.ok (), a.setLine line)

/-- Appends the load of a value. -/
def emitValue (v : Value) : CompileM Unit := assemble (·.emitValue v)

/-- Appends the call of a routine. -/
def emitCall (r : Routine) : CompileM Unit := assemble (·.emitCall r)

/-- Finds the variable of a reference. A name becomes the referent of later pronouns. -/
def identify (o : Options) (ref : Variable) : CompileM Identity := fun s =>
  match Name.identify o.vocabulary s.last ref with
  | .ok i => (.ok i, { s with last := i.named s.last })
  | .error e => (.error e, s)

/-- The slot that a read loads from, or none for a variable that is read as mysterious. -/
def slotToRead (o : Options) (i : Identity) (span : Span) : CompileM (Option Nat) := fun s =>
  match s.slots.find? i.name with
  | some slot => (.ok (some slot), s)
  | none =>
    match o.unbound with
    | .refuse => (.error (.unboundVariable i.name span), s)
    | .mysterious => (.ok none, s)

/-- The slot that a store writes to, which is created for a new variable. -/
def slotToWrite (i : Identity) (span : Span) : CompileM Nat := fun s =>
  let ⟨last, slots, asm⟩ := s
  let (result, slots) := slots.enter i.name .any span
  (result, ⟨last, slots, asm⟩)

/-- The kinds that a slot is declared to hold. -/
def declaredKinds (slot : Nat) : CompileM KindSet := fun s =>
  (.ok (((s.slots.get? slot).map (·.declared)).getD .any), s)

end CompileM

end Rockstar
