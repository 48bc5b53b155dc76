import Rockstar.Assembler
import Rockstar.Proofs.Registry

/-!
# Assembled code

Code only grows at its end (`Code.Grows`), so an instruction that was written once stays where it
is. Read back from there it is the same instruction, with the line it was written under and the
offset of the next one (`fetch_of_grows_emit`). Everything else about bytes, operand sizes and
offsets stays inside this module.
-/

namespace Rockstar

namespace Code

/-- The second code is the first one with cells added at its end. -/
def Grows (c c' : Code) : Prop := c.cells.toList <+: c'.cells.toList

theorem Grows.refl (c : Code) : c.Grows c := List.prefix_refl _

theorem Grows.trans {c c' c'' : Code} (h : c.Grows c') (h' : c'.Grows c'') : c.Grows c'' :=
  List.IsPrefix.trans h h'

theorem Grows.size_le {c c' : Code} (h : c.Grows c') : c.size ≤ c'.size := by
  simpa [size] using List.IsPrefix.length_le h

theorem cells_append (c : Code) (line : Nat) (bs : List UInt8) :
    (c.append line bs).cells.toList = c.cells.toList ++ bs.map (⟨·, line⟩) := by
  unfold append
  induction bs generalizing c with
  | nil => simp
  | cons b bs ih =>
    rw [List.foldl_cons, ih]
    simp [push]

theorem grows_append (c : Code) (line : Nat) (bs : List UInt8) : c.Grows (c.append line bs) := by
  unfold Grows
  rw [cells_append]
  exact List.prefix_append _ _

theorem size_append (c : Code) (line : Nat) (bs : List UInt8) :
    (c.append line bs).size = c.size + bs.length := by
  have h := congrArg List.length (cells_append c line bs)
  simpa [size] using h

/-- The code has the given bytes, all of one line, from an offset on. -/
def Holds (c : Code) (offset line : Nat) (bs : List UInt8) : Prop :=
  ∀ k b, bs[k]? = some b → c.cells[offset + k]? = some ⟨b, line⟩

/-- Bytes that were appended are still there when the code has grown further. -/
theorem holds_of_grows_append {c c' : Code} {line : Nat} {bs : List UInt8}
    (h : (c.append line bs).Grows c') : c'.Holds c.size line bs := by
  intro k b hb
  apply getElem?_of_prefix h
  rw [← Array.getElem?_toList, cells_append]
  have hlen : c.cells.toList.length = c.size := by simp [size]
  rw [List.getElem?_append_right (by omega), hlen, Nat.add_sub_cancel_left, List.getElem?_map, hb]
  rfl

theorem byteOperand_of_holds {c : Code} {offset line : Nat} {bs : List UInt8}
    (h : c.Holds offset line bs) {k : Nat} {b : UInt8} (hb : bs[k]? = some b) :
    c.byteOperand (offset + k) = .ok (b, offset + k + 1) := by
  unfold byteOperand byte?
  rw [h k b hb]
  rfl

theorem wordOperand_of_holds {c : Code} {offset line : Nat} {bs : List UInt8}
    (h : c.Holds offset line bs) {k : Nat} {w : UInt16}
    (hhigh : bs[k]? = some (UInt8.ofNat (w.toNat / 256)))
    (hlow : bs[k + 1]? = some (UInt8.ofNat (w.toNat % 256))) :
    c.wordOperand (offset + k) = .ok (w, offset + k + 2) := by
  unfold wordOperand word? byte?
  have hlow' := h (k + 1) _ hlow
  rw [← Nat.add_assoc] at hlow'
  rw [h k _ hhigh, hlow']
  simp [wordOf_wordBytes]

/-- The operands of an instruction are read back as they were written, and reading ends behind
them. -/
theorem decode_of_holds {c : Code} {offset line : Nat} (i : Instr)
    (h : c.Holds offset line i.bytes) :
    c.decode i.opcode (offset + 1) = .ok (i, offset + i.bytes.length) := by
  cases i with
  | constant index =>
    simp only [Instr.opcode, decode]
    rw [byteOperand_of_holds h (b := index) rfl]
    rfl
  | constantWide index =>
    simp only [Instr.opcode, decode]
    rw [wordOperand_of_holds h (w := index) rfl rfl]
    rfl
  | getField index =>
    simp only [Instr.opcode, decode]
    rw [wordOperand_of_holds h (w := index) rfl rfl]
    rfl
  | setField index =>
    simp only [Instr.opcode, decode]
    rw [wordOperand_of_holds h (w := index) rfl rfl]
    rfl
  | expectNumber depth =>
    simp only [Instr.opcode, decode]
    rw [byteOperand_of_holds h (b := depth) rfl]
    rfl
  | call routine argc =>
    have hargc : c.byteOperand (offset + 1 + 2) = .ok (argc, offset + 1 + 2 + 1) :=
      byteOperand_of_holds h (k := 3) rfl
    simp only [Instr.opcode, decode]
    rw [wordOperand_of_holds h (w := routine) rfl rfl]
    simp only [bind, Except.bind, hargc]
    rfl
  -- these are told by their first byte alone
  | pushBool b => cases b <;> rfl
  | arith op => cases op <;> rfl
  | equality positive => cases positive <;> rfl
  | compare op => cases op <;> rfl
  | logic op => cases op <;> rfl
  | pushNull => rfl
  | pushMysterious => rfl
  | not => rfl
  | writeLine => rfl
  | ret => rfl

/-- An instruction that stands in the code is fetched from there. -/
theorem fetch_of_holds {c : Code} {offset line : Nat} {i : Instr}
    (h : c.Holds offset line i.bytes) :
    c.fetch offset = .instr i line (offset + i.bytes.length) := by
  have hop : c.cells[offset]? = some ⟨i.opcode.byte, line⟩ := h 0 _ rfl
  unfold fetch
  rw [hop]
  simp only [Opcode.ofByte?_byte, decode_of_holds i h]

end Code

namespace Assembler

theorem size_emit (a : Assembler) (i : Instr) :
    (a.emit i).code.size = a.code.size + i.bytes.length :=
  Code.size_append _ _ _

theorem grows_emit (a : Assembler) (i : Instr) : a.code.Grows (a.emit i).code :=
  Code.grows_append _ _ _

/-- An instruction is fetched from where it was written, however much was written after it. -/
theorem fetch_of_grows_emit {a : Assembler} {i : Instr} {c : Code} (h : (a.emit i).code.Grows c) :
    c.fetch a.code.size = .instr i a.line (a.emit i).code.size := by
  rw [size_emit]
  exact Code.fetch_of_holds (Code.holds_of_grows_append h)

end Assembler

end Rockstar
