import Rockstar.Plan
import Rockstar.Session
import Rockstar.Statement

/-!
# Compilation

Every statement becomes code that leaves the stack as it found it, and every expression code that
leaves one value more. Operands are compiled from left to right, and references are resolved in
the order in which they are written. A variable gets its slot only after the value assigned to it
was compiled.
-/

namespace Rockstar

/-- A compiled program. -/
structure Executable where
  /-- The name of the unit. -/
  name : String
  fields : Array Slot
  code : Code
  pool : Pool

namespace CompileM

/-- Compiles the read of a variable and returns the kinds of its value. -/
def readVariable (o : Options) (ref : Variable) : CompileM KindSet := do
  let i ← identify o ref
  match ← slotToRead o i ref.span with
  | some slot =>
    emit (.getField (UInt16.ofNat slot))
    declaredKinds slot
  | none =>
    emit .pushMysterious
    return .only .mysterious

/-- Carries out a plan. -/
def follow (plan : Plan) : CompileM Unit := do
  match plan with
  | .typed op checkLeft checkRight =>
    if checkLeft then emit (.expectNumber 1)
    if checkRight then emit (.expectNumber 0)
    emit (.arith op)
  | .routine r => emitCall r
  | .dispatch i => emit i

/-- Compiles an expression and returns the kinds that its value may have. -/
def expr (o : Options) : Expr → CompileM KindSet
  | .literal v _ => do
    emitValue v
    return .only v.kind
  | .poetic x _ _ => do
    emitValue (.number x)
    return .only .number
  | .variable ref => readVariable o ref
  | .binary op l r => do
    let left ← expr o l
    let right ← expr o r
    match Plan.binary? op left right with
    | some (plan, kinds) =>
      follow plan
      return kinds
    | none => throw (.typeMismatch op left right (l.span.join r.span))
  | .negation _ e => do
    let _ ← expr o e
    emit Plan.negation.1
    return Plan.negation.2

/-- Compiles target and value of an assignment in the order in which they are written, and returns
the target. -/
def assignParts (o : Options) (target : Variable) (value : Expr) : CompileM Identity := do
  if target.isBefore value then
    let i ← identify o target
    let _ ← expr o value
    return i
  else
    let _ ← expr o value
    identify o target

/-- Compiles the store of the top value into a variable. -/
def store (i : Identity) (span : Span) : CompileM Unit := do
  let slot ← slotToWrite i span
  emit (.setField (UInt16.ofNat slot))

/-- Compiles a step of a variable up or down. -/
def step (o : Options) (direction : Direction) (target : Variable) (count : Nat) :
    CompileM Unit := do
  let i ← identify o target
  match ← slotToRead o i target.span with
  | some slot => emit (.getField (UInt16.ofNat slot))
  | none => emit .pushMysterious
  emit (.expectNumber 0)
  emitValue (.number (Float.ofNat count))
  emit (.arith direction.operation)
  store i target.span

/-- Compiles a statement. -/
def statement (o : Options) (s : Statement) : CompileM Unit := do
  setLine s.span.line
  match s with
  | .assign target value _ =>
    let i ← assignParts o target value
    store i target.span
  | .output _ value _ =>
    let _ ← expr o value
    emitCall .toText
    emit .writeLine
  | .step direction target count _ => step o direction target count

/-- Compiles statements one after the other, up to the first error. -/
def statements (o : Options) : List Statement → CompileM Unit
  | [] => return
  | s :: ss => do
    statement o s
    statements o ss

end CompileM

namespace Session

/-- The program compiled so far. -/
def finish (s : Session) : Executable :=
  ⟨s.slots.owner, s.slots.slots.entries, s.asm.finish, s.asm.pool⟩

/-- Compiles every statement, going on after errors. Returns the result of each statement and the
session after it. -/
def each (o : Options) (s : Session) :
    List Statement → List (Except CompileError Unit × Session)
  | [] => []
  | stmt :: rest =>
    let (result, s) := CompileM.statement o stmt s
    (result, s) :: each o s rest

end Session

/-- Compiles the statements of a program. -/
def compile (o : Options) (program : List Statement) : Except CompileError Executable :=
  match CompileM.statements o program (.start o) with
  | (.ok _, s) => .ok s.finish
  | (.error e, _) => .error e

/-- The field with the given name. -/
def Executable.fieldIndex? (x : Executable) (fieldName : String) : Option Nat :=
  x.fields.findIdx? (·.fieldName == fieldName)

end Rockstar
