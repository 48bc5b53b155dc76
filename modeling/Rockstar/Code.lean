import Rockstar.Instr

/-!
# Code

A sequence of bytes, each with the source line it was compiled from. Three ways lead through it.
The machine reads instructions with `Code.fetch`, operand by operand, and goes on behind the last
operand. `Code.walk`, from which listings are made, goes on after each operation code by the number
of operand bytes that the code has. `Code.opcodes` reads operation codes only.
-/

namespace Rockstar

/-- A byte of code and its source line. -/
structure Cell where
  byte : UInt8
  line : Nat
  deriving DecidableEq

/-- The code of a unit. -/
structure Code where
  cells : Array Cell
  deriving DecidableEq

/-- What stands at an offset of the code. -/
inductive Fetch where
  /-- An instruction on a line, and the offset behind its last operand. -/
  | instr (i : Instr) (line next : Nat)
  /-- A byte that is no operation code. -/
  | invalid (byte : UInt8) (line : Nat)
  /-- An operation code on a line, and the offset of the operand that is not all there. -/
  | truncated (op : Opcode) (line operand : Nat)
  /-- The end of the code. -/
  | ended
  deriving DecidableEq

namespace Fetch

/-- The operation code of what stands at an offset. -/
def opcode? : Fetch → Option Opcode
  | .instr i _ _ => some i.opcode
  | .truncated op _ _ => some op
  | _ => none

/-- The offset at which a walk goes on after what stands at `offset`: behind as many bytes as the
operation code has operands. A byte that is no operation code is passed over alone. -/
def nextOffset (f : Fetch) (offset : Nat) : Nat :=
  match f.opcode? with
  | some op => offset + 1 + op.operandSize
  | none => offset + 1

theorem lt_nextOffset (f : Fetch) (offset : Nat) : offset < f.nextOffset offset := by
  unfold nextOffset
  split <;> omega

end Fetch

namespace Code

/-- Code without bytes. -/
def empty : Code := ⟨#[]⟩

/-- The number of bytes. -/
def size (c : Code) : Nat := c.cells.size

/-- Appends a byte. -/
def push (c : Code) (line : Nat) (b : UInt8) : Code := ⟨c.cells.push ⟨b, line⟩⟩

/-- Appends bytes that belong to one line. -/
def append (c : Code) (line : Nat) (bs : List UInt8) : Code := bs.foldl (·.push line) c

/-- The byte at an offset. -/
def byte? (c : Code) (offset : Nat) : Option UInt8 := c.cells[offset]?.map (·.byte)

/-- The word at an offset, if both of its bytes are there. -/
def word? (c : Code) (offset : Nat) : Option UInt16 := do
  let high ← c.byte? offset
  let low ← c.byte? (offset + 1)
  return wordOf high low

/-- The operation code at an offset. -/
def opcode? (c : Code) (offset : Nat) : Option Opcode := (c.byte? offset).bind Opcode.ofByte?

/-- The source line of an offset. -/
def line? (c : Code) (offset : Nat) : Option Nat := c.cells[offset]?.map (·.line)

/-- The byte operand at an offset and the offset behind it, or else the offset. -/
def byteOperand (c : Code) (offset : Nat) : Except Nat (UInt8 × Nat) :=
  match c.byte? offset with
  | some b => .ok (b, offset + 1)
  | none => .error offset

/-- The word operand at an offset and the offset behind it, or else the offset. -/
def wordOperand (c : Code) (offset : Nat) : Except Nat (UInt16 × Nat) :=
  match c.word? offset with
  | some w => .ok (w, offset + 2)
  | none => .error offset

/-- The instruction with the given operation code whose operands begin at the offset, and the offset
behind them, or else the offset of the first operand that is not all there. -/
def decode (c : Code) (op : Opcode) (offset : Nat) : Except Nat (Instr × Nat) :=
  match op with
  | .constant => do
    let (index, next) ← c.byteOperand offset
    return (.constant index, next)
  | .constantWide => do
    let (index, next) ← c.wordOperand offset
    return (.constantWide index, next)
  | .pushTrue => .ok (.pushBool true, offset)
  | .pushFalse => .ok (.pushBool false, offset)
  | .pushNull => .ok (.pushNull, offset)
  | .pushMysterious => .ok (.pushMysterious, offset)
  | .getField => do
    let (index, next) ← c.wordOperand offset
    return (.getField index, next)
  | .setField => do
    let (index, next) ← c.wordOperand offset
    return (.setField index, next)
  | .add => .ok (.arith .add, offset)
  | .subtract => .ok (.arith .subtract, offset)
  | .multiply => .ok (.arith .multiply, offset)
  | .divide => .ok (.arith .divide, offset)
  | .expectNumber => do
    let (depth, next) ← c.byteOperand offset
    return (.expectNumber depth, next)
  | .equal => .ok (.equality true, offset)
  | .notEqual => .ok (.equality false, offset)
  | .less => .ok (.compare .less, offset)
  | .lessEqual => .ok (.compare .lessEqual, offset)
  | .greater => .ok (.compare .greater, offset)
  | .greaterEqual => .ok (.compare .greaterEqual, offset)
  | .not => .ok (.not, offset)
  | .and => .ok (.logic .and, offset)
  | .or => .ok (.logic .or, offset)
  | .nor => .ok (.logic .nor, offset)
  | .callRoutine => do
    let (routine, next) ← c.wordOperand offset
    let (argc, next) ← c.byteOperand next
    return (.call routine argc, next)
  | .writeLine => .ok (.writeLine, offset)
  | .return => .ok (.ret, offset)

/-- What stands at an offset. -/
def fetch (c : Code) (offset : Nat) : Fetch :=
  match c.cells[offset]? with
  | none => .ended
  | some cell =>
    match Opcode.ofByte? cell.byte with
    | none => .invalid cell.byte cell.line
    | some op =>
      match c.decode op (offset + 1) with
      | .ok (i, next) => .instr i cell.line next
      | .error operand => .truncated op cell.line operand

/-- Only the end of the code holds nothing. -/
theorem fetch_eq_ended_iff (c : Code) (offset : Nat) :
    c.fetch offset = .ended ↔ c.size ≤ offset := by
  unfold fetch
  split
  next h => simpa [size] using h
  next cell h =>
    have hlt : offset < c.size := by
      simp only [Array.getElem?_eq_some_iff] at h
      exact h.1
    constructor
    · intro hended
      split at hended
      · cases hended
      · split at hended <;> cases hended
    · omega

theorem next_of_byteOperand {c : Code} {offset next : Nat} {b : UInt8}
    (h : c.byteOperand offset = .ok (b, next)) : next = offset + 1 := by
  unfold byteOperand at h
  split at h
  · cases h
    rfl
  · cases h

theorem next_of_wordOperand {c : Code} {offset next : Nat} {w : UInt16}
    (h : c.wordOperand offset = .ok (w, next)) : next = offset + 2 := by
  unfold wordOperand at h
  split at h
  · cases h
    rfl
  · cases h

/-- Reading one operand after the other ends behind as many bytes as the operation code has operand
bytes, and the instruction has that operation code. -/
theorem decode_ok {c : Code} {op : Opcode} {offset next : Nat} {i : Instr}
    (h : c.decode op offset = .ok (i, next)) :
    i.opcode = op ∧ next = offset + op.operandSize := by
  have hbyte : ∀ f : UInt8 → Instr,
      (do let (b, n) ← c.byteOperand offset; return (f b, n)) = Except.ok (i, next) →
        (∃ b, i = f b) ∧ next = offset + 1 := by
    intro f hf
    cases hoperand : c.byteOperand offset with
    | error n =>
      rw [hoperand] at hf
      cases hf
    | ok operand =>
      rw [hoperand] at hf
      cases hf
      exact ⟨⟨_, rfl⟩, next_of_byteOperand hoperand⟩
  have hword : ∀ f : UInt16 → Instr,
      (do let (w, n) ← c.wordOperand offset; return (f w, n)) = Except.ok (i, next) →
        (∃ w, i = f w) ∧ next = offset + 2 := by
    intro f hf
    cases hoperand : c.wordOperand offset with
    | error n =>
      rw [hoperand] at hf
      cases hf
    | ok operand =>
      rw [hoperand] at hf
      cases hf
      exact ⟨⟨_, rfl⟩, next_of_wordOperand hoperand⟩
  cases op with
  | constant =>
    obtain ⟨⟨b, rfl⟩, hnext⟩ := hbyte .constant h
    exact ⟨rfl, hnext⟩
  | constantWide =>
    obtain ⟨⟨w, rfl⟩, hnext⟩ := hword .constantWide h
    exact ⟨rfl, hnext⟩
  | getField =>
    obtain ⟨⟨w, rfl⟩, hnext⟩ := hword .getField h
    exact ⟨rfl, hnext⟩
  | setField =>
    obtain ⟨⟨w, rfl⟩, hnext⟩ := hword .setField h
    exact ⟨rfl, hnext⟩
  | expectNumber =>
    obtain ⟨⟨b, rfl⟩, hnext⟩ := hbyte .expectNumber h
    exact ⟨rfl, hnext⟩
  | callRoutine =>
    -- the second operand is read from where the first one ended
    unfold decode at h
    cases hroutine : c.wordOperand offset with
    | error n =>
      rw [hroutine] at h
      cases h
    | ok routine =>
      rw [hroutine] at h
      have hafter := next_of_wordOperand hroutine
      cases hargc : c.byteOperand routine.2 with
      | error n =>
        simp only [bind, Except.bind, hargc] at h
        cases h
      | ok argc =>
        simp only [bind, Except.bind, hargc] at h
        cases h
        have hnext := next_of_byteOperand hargc
        exact ⟨rfl, by rw [hnext, hafter]; rfl⟩
  | _ =>
    cases h
    exact ⟨rfl, rfl⟩

/-- An instruction lies inside the code, and it is as long as its operation code says. -/
theorem fetch_instr {c : Code} {offset line next : Nat} {i : Instr}
    (h : c.fetch offset = .instr i line next) :
    offset < c.size ∧ next = offset + 1 + i.opcode.operandSize := by
  have hlt : offset < c.size := by
    have hne : c.fetch offset ≠ .ended := by rw [h]; exact fun h => Fetch.noConfusion h
    exact Nat.lt_of_not_le fun hle => hne ((fetch_eq_ended_iff c offset).mpr hle)
  refine ⟨hlt, ?_⟩
  unfold fetch at h
  split at h
  · cases h
  · split at h
    · cases h
    · split at h
      next hdecode =>
        cases h
        obtain ⟨hop, hnext⟩ := decode_ok hdecode
        rw [hop, hnext]
      next => cases h

/-- An instruction lies inside the code and has at least one byte. -/
theorem lt_of_fetch_instr {c : Code} {offset line next : Nat} {i : Instr}
    (h : c.fetch offset = .instr i line next) : offset < c.size ∧ offset < next := by
  obtain ⟨hlt, hnext⟩ := fetch_instr h
  omega

/-! ## Walking through the code -/

/-- Everything that stands in the code from an offset on, each with its own offset. -/
def walkFrom (c : Code) (offset : Nat) : List (Nat × Fetch) :=
  if offset < c.size then
    (offset, c.fetch offset) :: walkFrom c ((c.fetch offset).nextOffset offset)
  else []
termination_by c.size - offset
decreasing_by
  have := (c.fetch offset).lt_nextOffset offset
  omega

/-- Everything that stands in the code. -/
def walk (c : Code) : List (Nat × Fetch) := c.walkFrom 0

/-- The operation codes from an offset on, without operands. A byte that is no operation code is
passed over alone. -/
def opcodesFrom (c : Code) (offset : Nat) : List Opcode :=
  if offset < c.size then
    match c.opcode? offset with
    | some op => op :: opcodesFrom c (offset + 1 + op.operandSize)
    | none => opcodesFrom c (offset + 1)
  else []
termination_by c.size - offset

/-- The operation codes of the code, without operands. -/
def opcodes (c : Code) : List Opcode := c.opcodesFrom 0

/-- Whether the code consists of exactly these operation codes. -/
def isSequence (c : Code) (ops : List Opcode) : Bool := c.opcodes == ops

/-- Whether these operation codes occur in the code in this order, perhaps with others between. -/
def hasInOrder (c : Code) (ops : List Opcode) : Bool := ops.isSublist c.opcodes

end Code

end Rockstar
