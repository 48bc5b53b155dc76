/-!
# Operation codes

The first byte of every instruction. The bytes from 26 on are no operation codes.
-/

namespace Rockstar

/-- What an instruction does. -/
inductive Opcode where
  | constant
  | constantWide
  | pushTrue
  | pushFalse
  | pushNull
  | pushMysterious
  | getField
  | setField
  | add
  | subtract
  | multiply
  | divide
  | expectNumber
  | equal
  | notEqual
  | less
  | lessEqual
  | greater
  | greaterEqual
  | not
  | and
  | or
  | nor
  | callRoutine
  | writeLine
  | return
  deriving DecidableEq

namespace Opcode

/-- All operation codes, in the order of their bytes. -/
def all : List Opcode :=
  [.constant, .constantWide, .pushTrue, .pushFalse, .pushNull, .pushMysterious, .getField,
    .setField, .add, .subtract, .multiply, .divide, .expectNumber, .equal, .notEqual, .less,
    .lessEqual, .greater, .greaterEqual, .not, .and, .or, .nor, .callRoutine, .writeLine, .return]

/-- The byte of the code. -/
def byte : Opcode → UInt8
  | .constant => 0
  | .constantWide => 1
  | .pushTrue => 2
  | .pushFalse => 3
  | .pushNull => 4
  | .pushMysterious => 5
  | .getField => 6
  | .setField => 7
  | .add => 8
  | .subtract => 9
  | .multiply => 10
  | .divide => 11
  | .expectNumber => 12
  | .equal => 13
  | .notEqual => 14
  | .less => 15
  | .lessEqual => 16
  | .greater => 17
  | .greaterEqual => 18
  | .not => 19
  | .and => 20
  | .or => 21
  | .nor => 22
  | .callRoutine => 23
  | .writeLine => 24
  | .return => 25

/-- The code of a byte. -/
def ofByte? (b : UInt8) : Option Opcode := all[b.toNat]?

/-- The name of the code in listings. -/
def name : Opcode → String
  | .constant => "CONSTANT"
  | .constantWide => "CONSTANT_WIDE"
  | .pushTrue => "PUSH_TRUE"
  | .pushFalse => "PUSH_FALSE"
  | .pushNull => "PUSH_NULL"
  | .pushMysterious => "PUSH_MYSTERIOUS"
  | .getField => "GET_FIELD"
  | .setField => "SET_FIELD"
  | .add => "ADD_F64"
  | .subtract => "SUB_F64"
  | .multiply => "MUL_F64"
  | .divide => "DIV_F64"
  | .expectNumber => "EXPECT_NUMBER"
  | .equal => "EQUAL"
  | .notEqual => "NOT_EQUAL"
  | .less => "LESS"
  | .lessEqual => "LESS_EQUAL"
  | .greater => "GREATER"
  | .greaterEqual => "GREATER_EQUAL"
  | .not => "NOT"
  | .and => "AND"
  | .or => "OR"
  | .nor => "NOR"
  | .callRoutine => "CALL_RUNTIME"
  | .writeLine => "WRITE_LINE"
  | .return => "RETURN"

/-- The code with the given name. -/
def ofName? (name : String) : Option Opcode := all.find? (·.name == name)

/-- The number of operand bytes after the code. -/
def operandSize : Opcode → Nat
  | .constant => 1
  | .constantWide => 2
  | .getField => 2
  | .setField => 2
  | .expectNumber => 1
  | .callRoutine => 3
  | _ => 0

/-- Reading a code back from its byte. -/
@[simp] theorem ofByte?_byte (op : Opcode) : ofByte? op.byte = some op := by
  cases op <;> rfl

theorem all_ofByte? :
    ∀ n < 256, (ofByte? (UInt8.ofNat n)).all (·.byte = UInt8.ofNat n) = true := by
  decide +kernel

/-- A byte is that of the code it reads as. -/
theorem byte_of_ofByte? {b : UInt8} {op : Opcode} (h : ofByte? b = some op) : op.byte = b := by
  have hall := all_ofByte? b.toNat b.toNat_lt
  rw [UInt8.ofNat_toNat, h] at hall
  simpa using hall

end Opcode

end Rockstar
