import Rockstar.Code
import Rockstar.CompileError
import Rockstar.Constant

/-!
# Assembling code

The assembler appends instructions to code, all bytes of an instruction under the current source
line, and enters the constants that they refer to into the pool.
-/

namespace Rockstar

/-- Code under construction and the constants it refers to. -/
structure Assembler where
  code : Code
  /-- The source line of the next instruction. -/
  line : Nat
  pool : Pool

namespace Assembler

/-- Nothing assembled yet. -/
def start : Assembler := ⟨.empty, 1, .empty⟩

/-- Sets the source line of the next instruction. -/
def setLine (a : Assembler) (line : Nat) : Assembler := { a with line := line }

/-- Appends an instruction. -/
def emit (a : Assembler) (i : Instr) : Assembler :=
  { a with code := a.code.append a.line i.bytes }

/-- Appends an operation code without operands. -/
def emitOpcode (a : Assembler) (op : Opcode) : Assembler :=
  { a with code := a.code.push a.line op.byte }

/-- The number of a constant, which is added to the pool if it is new. A constant that no index
reaches is in the pool all the same. -/
def constantIndex (a : Assembler) (c : Constant) : Except CompileError UInt16 × Assembler :=
  let (i, pool) := a.pool.add c
  let result :=
    if i < indexLimit then .ok (UInt16.ofNat i) else .error (.tooManyConstants (.point a.line 1))
  (result, { a with pool := pool })

/-- Appends the load of a constant, narrow if its index fits into a byte. -/
def emitConstant (a : Assembler) (c : Constant) : Except CompileError Unit × Assembler :=
  match a.constantIndex c with
  | (.ok i, a) =>
    (.ok (), a.emit (if i.toNat < 256 then .constant (UInt8.ofNat i.toNat) else .constantWide i))
  | (.error e, a) => (.error e, a)

/-- Appends the load of a value. Numbers and texts are constants, other values have instructions
of their own. -/
def emitValue (a : Assembler) (v : Value) : Except CompileError Unit × Assembler :=
  match v with
  | .number x => a.emitConstant (.number x)
  | .text s => a.emitConstant (.text s)
  | .boolean b => (.ok (), a.emit (.pushBool b))
  | .mysterious => (.ok (), a.emit .pushMysterious)
  | .null => (.ok (), a.emit .pushNull)

/-- Appends the call of a routine. -/
def emitCall (a : Assembler) (r : Routine) : Except CompileError Unit × Assembler :=
  match a.constantIndex (.routine r.hash) with
  | (.ok i, a) => (.ok (), a.emit (.call i (UInt8.ofNat r.arity)))
  | (.error e, a) => (.error e, a)

/-- The code with the instruction that ends it. -/
def finish (a : Assembler) : Code := (a.emit .ret).code

end Assembler

end Rockstar
