import Rockstar.Opcode
import Rockstar.Value

/-!
# Instructions

An instruction is an operation code with its operands. In code it is written as the byte of the
operation code followed by the operand bytes, words with their high byte first.
-/

namespace Rockstar

/-- An instruction of the machine. -/
inductive Instr where
  | constant (index : UInt8)
  | constantWide (index : UInt16)
  | pushBool (b : Bool)
  | pushNull
  | pushMysterious
  | getField (index : UInt16)
  | setField (index : UInt16)
  | arith (op : Arithmetic)
  | expectNumber (depth : UInt8)
  | equality (positive : Bool)
  | compare (op : Comparison)
  | not
  | logic (op : Connective)
  | call (routine : UInt16) (argc : UInt8)
  | writeLine
  | ret
  deriving DecidableEq

/-- The operation code of arithmetic on numbers. -/
def Arithmetic.opcode : Arithmetic → Opcode
  | .add => .add
  | .subtract => .subtract
  | .multiply => .multiply
  | .divide => .divide

/-- The operation code of an ordering. -/
def Comparison.opcode : Comparison → Opcode
  | .less => .less
  | .lessEqual => .lessEqual
  | .greater => .greater
  | .greaterEqual => .greaterEqual

/-- The operation code of a connective. -/
def Connective.opcode : Connective → Opcode
  | .and => .and
  | .or => .or
  | .nor => .nor

/-- The two bytes of a word, the high one first. -/
def wordBytes (w : UInt16) : List UInt8 :=
  [UInt8.ofNat (w.toNat / 256), UInt8.ofNat (w.toNat % 256)]

/-- The word with the given high and low byte. -/
def wordOf (high low : UInt8) : UInt16 := UInt16.ofNat (256 * high.toNat + low.toNat)

namespace Instr

/-- The operation code of the instruction. -/
def opcode : Instr → Opcode
  | .constant _ => .constant
  | .constantWide _ => .constantWide
  | .pushBool true => .pushTrue
  | .pushBool false => .pushFalse
  | .pushNull => .pushNull
  | .pushMysterious => .pushMysterious
  | .getField _ => .getField
  | .setField _ => .setField
  | .arith op => op.opcode
  | .expectNumber _ => .expectNumber
  | .equality true => .equal
  | .equality false => .notEqual
  | .compare op => op.opcode
  | .not => .not
  | .logic op => op.opcode
  | .call _ _ => .callRoutine
  | .writeLine => .writeLine
  | .ret => .return

/-- The operand bytes of the instruction. -/
def operands : Instr → List UInt8
  | .constant i => [i]
  | .constantWide i => wordBytes i
  | .getField i => wordBytes i
  | .setField i => wordBytes i
  | .expectNumber d => [d]
  | .call r argc => wordBytes r ++ [argc]
  | _ => []

/-- The bytes of the instruction. -/
def bytes (i : Instr) : List UInt8 := i.opcode.byte :: i.operands

theorem length_operands (i : Instr) : i.operands.length = i.opcode.operandSize := by
  rcases i with _ | _ | (_ | _) | _ | _ | _ | _ | op | _ | (_ | _) | op | _ | op | _ | _ | _ <;>
    first | rfl | (cases op <;> rfl)

end Instr

theorem wordOf_wordBytes (w : UInt16) :
    wordOf (UInt8.ofNat (w.toNat / 256)) (UInt8.ofNat (w.toNat % 256)) = w := by
  have hw := w.toNat_lt
  apply UInt16.toNat_inj.mp
  simp only [wordOf, UInt8.toNat_ofNat', UInt16.toNat_ofNat']
  omega

end Rockstar
