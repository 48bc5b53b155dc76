import Rockstar.Proofs.Session
import Rockstar.Proofs.Walking

/-!
# Assembled code reads back

Code that was written instruction by instruction (`Code.Spells`) is met by a walk instruction by
instruction (`Code.Spells.walk`). Every request to an assembler writes one instruction, or sets the
line, or fails and writes nothing (`Assembler.outcome_perform`), so the code after any number of
requests spells the instructions that were asked for (`Assembler.exists_spells`). What instruction a
request is for is said by operation code and operands as numbers (`Request.Means`), without a word
about bytes, and its line by the requests before it (`Request.lineAfter`).
-/

namespace Rockstar

/-! ## Code as a sequence of instructions -/

/-- An instruction and the source line that it was written under. -/
structure Entry where
  line : Nat
  instr : Instr

/-- The bytes of the instruction, each with the line. -/
def Entry.cells (e : Entry) : List Cell := e.instr.bytes.map (⟨·, e.line⟩)

theorem Entry.length_cells (e : Entry) : e.cells.length = 1 + e.instr.opcode.operandSize := by
  rw [cells, List.length_map, Instr.bytes, List.length_cons, Instr.length_operands, Nat.add_comm]

namespace Code

variable {c : Code} {es : List Entry}

/-- The code consists of the instructions, one behind the other. -/
def Spells (c : Code) (es : List Entry) : Prop := c.cells.toList = es.flatMap Entry.cells

/-- Instructions that stand one behind the other from an offset on, as a walk meets them. -/
def placed (offset : Nat) : List Entry → List (Nat × Fetch)
  | [] => []
  | e :: es =>
    (offset, .instr e.instr e.line (offset + 1 + e.instr.opcode.operandSize)) ::
      placed (offset + 1 + e.instr.opcode.operandSize) es

theorem spells_empty : Code.empty.Spells [] := rfl

theorem Spells.append (h : c.Spells es) (line : Nat) (i : Instr) :
    (c.append line i.bytes).Spells (es ++ [⟨line, i⟩]) := by
  unfold Spells at h ⊢
  rw [cells_append, h, List.flatMap_append]
  simp [Entry.cells]

/-- An instruction is read back where it stands. -/
theorem fetch_of_cells {front back : List Cell} {e : Entry}
    (h : c.cells.toList = front ++ (e.cells ++ back)) :
    c.fetch front.length =
      .instr e.instr e.line (front.length + 1 + e.instr.opcode.operandSize) := by
  have hholds : c.Holds front.length e.line e.instr.bytes := by
    intro k b hb
    have hk : k < e.cells.length := by
      rw [Entry.cells, List.length_map]
      exact (List.getElem?_eq_some_iff.mp hb).1
    rw [← Array.getElem?_toList, h, List.getElem?_append_right (by omega),
      Nat.add_sub_cancel_left, List.getElem?_append_left hk, Entry.cells, List.getElem?_map, hb]
    rfl
  have hfetch := fetch_of_holds hholds
  have hnext := (fetch_instr hfetch).2
  rwa [hnext] at hfetch

/-- Behind whatever stands in front of them, instructions are met one after the other. -/
theorem walkFrom_of_cells (front : List Cell)
    (h : c.cells.toList = front ++ es.flatMap Entry.cells) :
    c.walkFrom front.length = placed front.length es := by
  induction es generalizing front with
  | nil =>
    rw [List.flatMap_nil, List.append_nil] at h
    refine walkFrom_of_le ?_
    rw [← h]
    exact Nat.le_of_eq Array.length_toList.symm
  | cons e es ih =>
    rw [List.flatMap_cons] at h
    have hfetch := fetch_of_cells h
    have hlt := (lt_of_fetch_instr hfetch).1
    have hrest := ih (front ++ e.cells) (by rw [h, List.append_assoc])
    rw [List.length_append, e.length_cells, ← Nat.add_assoc] at hrest
    rw [walkFrom_of_lt hlt, hfetch, placed, ← hrest]
    rfl

theorem placed_append (offset : Nat) (es es' : List Entry) :
    placed offset (es ++ es') =
      placed offset es ++ placed (offset + (es.flatMap Entry.cells).length) es' := by
  induction es generalizing offset with
  | nil => rfl
  | cons e es ih =>
    rw [List.cons_append, placed, placed, ih, List.flatMap_cons, List.length_append,
      e.length_cells, List.cons_append]
    congr 3
    omega

/-- Whatever is met in code that was written comes from one of its instructions, with the
instructions in front of it in front. -/
theorem exists_of_mem_placed {start offset : Nat} {es : List Entry} {f : Fetch}
    (h : (offset, f) ∈ placed start es) :
    ∃ j e next, es[j]? = some e ∧ f = .instr e.instr e.line next ∧
      offset = start + ((es.take j).flatMap Entry.cells).length := by
  induction es generalizing start with
  | nil => cases h
  | cons e es ih =>
    rcases List.mem_cons.mp h with heq | hmem
    · cases heq
      exact ⟨0, e, _, rfl, rfl, rfl⟩
    · obtain ⟨j, e', next, he', hf, hoffset⟩ := ih hmem
      refine ⟨j + 1, e', next, he', hf, ?_⟩
      rw [List.take_succ_cons, List.flatMap_cons, List.length_append, e.length_cells]
      omega

/-- Every instruction is met before the offset where the next one is written. -/
theorem exists_mem_placed (start : Nat) {es : List Entry} {e : Entry} (he : e ∈ es) :
    ∃ offset next, (offset, .instr e.instr e.line next) ∈ placed start es ∧
      offset < start + (es.flatMap Entry.cells).length := by
  induction es generalizing start with
  | nil => cases he
  | cons e' es ih =>
    have hlength := e'.length_cells
    rcases List.mem_cons.mp he with rfl | hmem
    · refine ⟨start, _, List.mem_cons_self, ?_⟩
      rw [List.flatMap_cons, List.length_append]
      omega
    · obtain ⟨offset, next, hmet, hlt⟩ := ih (start + 1 + e'.instr.opcode.operandSize) hmem
      refine ⟨offset, next, List.mem_cons_of_mem _ hmet, ?_⟩
      rw [List.flatMap_cons, List.length_append]
      omega

/-- All bytes of an instruction are on its line. -/
theorem line?_of_cells (front : List Cell) (h : c.cells.toList = front ++ es.flatMap Entry.cells)
    {offset line next k : Nat} {i : Instr}
    (hmem : (offset, .instr i line next) ∈ placed front.length es) (hle : offset ≤ k)
    (hlt : k < next) : c.line? k = some line := by
  induction es generalizing front with
  | nil => cases hmem
  | cons e es ih =>
    rw [List.flatMap_cons] at h
    rcases List.mem_cons.mp hmem with heq | hrest
    · cases heq
      have hk : k - front.length < e.cells.length := by
        rw [e.length_cells]
        omega
      have hcell : c.cells[k]? = e.cells[k - front.length]? := by
        rw [← Array.getElem?_toList, h, List.getElem?_append_right hle,
          List.getElem?_append_left hk]
      rw [line?, hcell, List.getElem?_eq_getElem hk]
      simp [Entry.cells]
    · refine ih (front ++ e.cells) (by rw [h, List.append_assoc]) ?_
      rw [List.length_append, e.length_cells, ← Nat.add_assoc]
      exact hrest

/-- A walk meets the instructions that code was written with. -/
theorem Spells.walk (h : c.Spells es) : c.walk = placed 0 es :=
  walkFrom_of_cells [] h

theorem Spells.length_eq {c : Code} {es : List Entry} (h : c.Spells es) :
    (es.flatMap Entry.cells).length = c.size := by
  rw [← h]
  exact Array.length_toList

/-- What is met before an offset where writing went on was written before. -/
theorem mem_of_mem_walk {c c' : Code} {es more : List Entry} (h : c.Spells es)
    (h' : c'.Spells (es ++ more)) {offset line next : Nat} {i : Instr}
    (hmem : (offset, .instr i line next) ∈ c'.walk) (hlt : offset < c.size) :
    ∃ e ∈ es, e.instr = i := by
  rw [h'.walk, placed_append, h.length_eq] at hmem
  rcases List.mem_append.mp hmem with hmem | hmem
  · obtain ⟨j, e, next', he, hf, -⟩ := exists_of_mem_placed hmem
    simp only [Fetch.instr.injEq] at hf
    exact ⟨e, List.mem_of_getElem? he, hf.1.symm⟩
  · obtain ⟨j, e, next', he, hf, hoffset⟩ := exists_of_mem_placed hmem
    omega

end Code

/-! ## Requests -/

/-- What an assembler can be asked for. -/
inductive Request where
  | setLine (line : Nat)
  | value (v : Value)
  | constant (c : Constant)
  | getField (slot : UInt16)
  | setField (slot : UInt16)
  | expectNumber (depth : UInt8)
  | call (routine : Routine)
  | writeLine
  /-- An operation code without operands. -/
  | opcode (op : Opcode) (h : op.operandSize = 0)

namespace Request

/-- The constant that the instruction of a request refers to. -/
def constant? : Request → Option Constant
  | .value (.number x) => some (.number x)
  | .value (.text s) => some (.text s)
  | .constant c => some c
  | .call r => some (.routine r.hash)
  | _ => none

/-- Whether the request is for an instruction. -/
def isInstr : Request → Bool
  | .setLine _ => false
  | _ => true

/-- The line that a request sets. -/
def line? : Request → Option Nat
  | .setLine line => some line
  | _ => none

/-- The line in force behind requests: the last one that was set, or else the one before them. -/
def lineAfter (line : Nat) (requests : List Request) : Nat :=
  (requests.filterMap line?).getLast?.getD line

theorem lineAfter_cons (line : Nat) (r : Request) (requests : List Request) :
    lineAfter line (r :: requests) = lineAfter (r.line?.getD line) requests := by
  unfold lineAfter
  cases hline : r.line? with
  | none => rw [List.filterMap_cons_none hline, Option.getD_none]
  | some line' => rw [List.filterMap_cons_some hline, List.getLast?_cons]; rfl

end Request

namespace Assembler

/-- Carries out a request. -/
def perform (a : Assembler) : Request → Except CompileError Unit × Assembler
  | .setLine line => (.ok (), a.setLine line)
  | .value v => a.emitValue v
  | .constant c => a.emitConstant c
  | .getField slot => (.ok (), a.emit (.getField slot))
  | .setField slot => (.ok (), a.emit (.setField slot))
  | .expectNumber depth => (.ok (), a.emit (.expectNumber depth))
  | .call r => a.emitCall r
  | .writeLine => (.ok (), a.emit .writeLine)
  | .opcode op _ => (.ok (), a.emitOpcode op)

/-- Carries out requests, going on after those that fail. -/
def performAll (a : Assembler) (requests : List Request) : Assembler :=
  requests.foldl (fun a r => (a.perform r).2) a

/-- The requests for an instruction that succeed, each with the requests made before it. -/
def successes (a : Assembler) : List Request → List (List Request × Request)
  | [] => []
  | r :: rs =>
    let (result, a') := a.perform r
    let later := (a'.successes rs).map fun made => (r :: made.1, made.2)
    if r.isInstr && result.isOk then ([], r) :: later else later

end Assembler

/-! ## What was asked for -/

/-- The operands of an instruction as numbers. -/
def Instr.numbers : Instr → List Nat
  | .constant i => [i.toNat]
  | .constantWide i => [i.toNat]
  | .getField i => [i.toNat]
  | .setField i => [i.toNat]
  | .expectNumber d => [d.toNat]
  | .call r argc => [r.toNat, argc.toNat]
  | _ => []

/-- A constant has the number in the pool. Constants with the same key share a number. -/
def Pool.Has (p : Pool) (k : Nat) (c : Constant) : Prop :=
  ∃ found, p.get? k = some found ∧ found.key = c.key

/-- The instruction loads the constant, with a number of one byte where that suffices. -/
def Instr.Loads (p : Pool) (c : Constant) (i : Instr) : Prop :=
  ∃ k, p.Has k c ∧ i.opcode = (if k < 256 then .constant else .constantWide) ∧ i.numbers = [k]

/-- The instruction is what the request asks for. -/
def Request.Means (p : Pool) (i : Instr) : Request → Prop
  | .setLine _ => False
  | .value (.number x) => i.Loads p (.number x)
  | .value (.text s) => i.Loads p (.text s)
  | .value (.boolean b) => i.opcode = if b then .pushTrue else .pushFalse
  | .value .mysterious => i.opcode = .pushMysterious
  | .value .null => i.opcode = .pushNull
  | .constant c => i.Loads p c
  | .getField slot => i.opcode = .getField ∧ i.numbers = [slot.toNat]
  | .setField slot => i.opcode = .setField ∧ i.numbers = [slot.toNat]
  | .expectNumber depth => i.opcode = .expectNumber ∧ i.numbers = [depth.toNat]
  | .call r => ∃ k, p.Has k (.routine r.hash) ∧ i.opcode = .callRoutine ∧ i.numbers = [k, r.arity]
  | .writeLine => i.opcode = .writeLine
  | .opcode op _ => i.opcode = op

section Growing

variable {p p' : Pool} (h : p.table.Grows p'.table)
include h

theorem Pool.Has.of_grows {k : Nat} {c : Constant} (hk : p.Has k c) : p'.Has k c := by
  obtain ⟨found, hget, hkey⟩ := hk
  exact ⟨found, h.get? hget, hkey⟩

theorem Instr.Loads.of_grows {c : Constant} {i : Instr} (hi : i.Loads p c) : i.Loads p' c := by
  obtain ⟨k, hk, hi⟩ := hi
  exact ⟨k, hk.of_grows h, hi⟩

/-- The number of a constant stays what it is when more constants are added. -/
theorem Request.Means.of_grows {r : Request} {i : Instr} (hi : r.Means p i) : r.Means p' i := by
  cases r with
  | value v =>
    cases v with
    | number x => exact Instr.Loads.of_grows h hi
    | text s => exact Instr.Loads.of_grows h hi
    | boolean b => exact hi
    | mysterious => exact hi
    | null => exact hi
  | constant c => exact Instr.Loads.of_grows h hi
  | call routine =>
    obtain ⟨k, hk, hi⟩ := hi
    exact ⟨k, hk.of_grows h, hi⟩
  | setLine line => exact hi
  | getField slot => exact hi
  | setField slot => exact hi
  | expectNumber depth => exact hi
  | writeLine => exact hi
  | opcode op hop => exact hi

end Growing

/-! ## One request -/

/-- An operation code without operands is a whole instruction. -/
theorem Opcode.exists_instr {op : Opcode} (h : op.operandSize = 0) :
    ∃ i : Instr, i.opcode = op ∧ i.operands = [] := by
  have hdecode : ∃ i, Code.empty.decode op 0 = .ok (i, 0) := by
    cases op with
    | constant => cases h
    | constantWide => cases h
    | getField => cases h
    | setField => cases h
    | expectNumber => cases h
    | callRoutine => cases h
    | _ => exact ⟨_, rfl⟩
  obtain ⟨i, hi⟩ := hdecode
  have hop := (Code.decode_ok hi).1
  refine ⟨i, hop, List.eq_nil_of_length_eq_zero ?_⟩
  rw [i.length_operands, hop, h]

namespace Assembler

/-- What a request does: the line is set; or one instruction is written that is what was asked for;
or there is no number for the constant, and no byte is written. -/
inductive Outcome (a : Assembler) (r : Request) : Except CompileError Unit × Assembler → Prop where
  | line {line : Nat} : r = .setLine line → Outcome a r (.ok (), { a with line := line })
  | written {p : Pool} (i : Instr) : r.isInstr = true →
      (∀ c, r.constant? = some c → (a.pool.add c).1 < indexLimit) →
      a.pool.table.Grows p.table → p.table.Keyed Constant.key → r.Means p i →
      Outcome a r (.ok (), { a with code := a.code.append a.line i.bytes, pool := p })
  | refused {c : Constant} : r.constant? = some c → indexLimit ≤ (a.pool.add c).1 →
      (a.pool.add c).2.table.Keyed Constant.key →
      Outcome a r
        (.error (.tooManyConstants (.point a.line 1)), { a with pool := (a.pool.add c).2 })

variable {a : Assembler}

/-- A number below the limit is encoded in full, in one byte or in two. -/
theorem loads_loadInstr {p : Pool} {c : Constant} {k : Nat} (hk : k < indexLimit)
    (hc : p.Has k c) : (loadInstr (UInt16.ofNat k)).Loads p c := by
  have hword : (UInt16.ofNat k).toNat = k := UInt16.toNat_ofNat_of_lt' hk
  refine ⟨k, hc, ?_⟩
  unfold loadInstr
  rw [hword]
  by_cases hnarrow : k < 256
  · have hbyte : (UInt8.ofNat k).toNat = k := UInt8.toNat_ofNat_of_lt' hnarrow
    simp [hnarrow, Instr.opcode, Instr.numbers, hbyte]
  · simp [hnarrow, Instr.opcode, Instr.numbers, hword]

/-- A request whose instruction refers to a constant. -/
theorem outcome_emitIndexed (hkeyed : a.pool.table.Keyed Constant.key) {r : Request}
    {c : Constant} {instr : UInt16 → Instr} (hr : r.isInstr = true) (hc : r.constant? = some c)
    (hmeans : ∀ k < indexLimit, ∀ p : Pool, p.Has k c → r.Means p (instr (UInt16.ofNat k))) :
    Outcome a r (a.emitIndexed c instr) := by
  obtain ⟨hkeyed', found, hfound, hkey⟩ := hkeyed.enter c
  have hhas : (a.pool.add c).2.Has (a.pool.add c).1 c := ⟨found, hfound, hkey⟩
  rw [emitIndexed_eq]
  by_cases hlt : (a.pool.add c).1 < indexLimit
  · rw [if_pos hlt]
    refine .written _ hr (fun d hd => ?_) (Pool.grows_add _ _) hkeyed' (hmeans _ hlt _ hhas)
    rw [hc] at hd
    cases hd
    exact hlt
  · rw [if_neg hlt]
    exact .refused hc (by omega) hkeyed'

/-- A request whose instruction refers to no constant. -/
theorem outcome_emit (hkeyed : a.pool.table.Keyed Constant.key) {r : Request} {i : Instr}
    (hr : r.isInstr = true) (hc : r.constant? = none) (hmeans : r.Means a.pool i) :
    Outcome a r (.ok (), a.emit i) := by
  refine .written i hr (fun c hsome => ?_) (.refl _) hkeyed hmeans
  rw [hc] at hsome
  cases hsome

/-- Every request has one of the three outcomes. -/
theorem outcome_perform (hkeyed : a.pool.table.Keyed Constant.key) (r : Request) :
    Outcome a r (a.perform r) := by
  cases r with
  | setLine line => exact .line rfl
  | value v =>
    cases v with
    | number x =>
      exact outcome_emitIndexed hkeyed rfl rfl fun k hk p hp => loads_loadInstr hk hp
    | text t =>
      exact outcome_emitIndexed hkeyed rfl rfl fun k hk p hp => loads_loadInstr hk hp
    | boolean b =>
      refine outcome_emit hkeyed rfl rfl ?_
      cases b <;> rfl
    | mysterious => exact outcome_emit hkeyed rfl rfl rfl
    | null => exact outcome_emit hkeyed rfl rfl rfl
  | constant c =>
    exact outcome_emitIndexed hkeyed rfl rfl fun k hk p hp => loads_loadInstr hk hp
  | getField slot => exact outcome_emit hkeyed rfl rfl ⟨rfl, rfl⟩
  | setField slot => exact outcome_emit hkeyed rfl rfl ⟨rfl, rfl⟩
  | expectNumber depth => exact outcome_emit hkeyed rfl rfl ⟨rfl, rfl⟩
  | call routine =>
    show Outcome a _
      (a.emitIndexed (.routine routine.hash) (.call · (UInt8.ofNat routine.arity)))
    refine outcome_emitIndexed hkeyed rfl rfl ?_
    intro k hk p hp
    have hword : (UInt16.ofNat k).toNat = k := UInt16.toNat_ofNat_of_lt' hk
    refine ⟨k, hp, rfl, ?_⟩
    cases routine <;> simp [Instr.numbers, hword, Routine.arity]
  | writeLine => exact outcome_emit hkeyed rfl rfl rfl
  | opcode op hop =>
    obtain ⟨i, hi, hoperands⟩ := Opcode.exists_instr hop
    have hbytes : i.bytes = [op.byte] := by rw [Instr.bytes, hi, hoperands]
    have hemit : a.emitOpcode op = a.emit i := by
      rw [emit, hbytes]
      rfl
    rw [perform, hemit]
    exact outcome_emit hkeyed rfl rfl hi

/-- No request but one for a line changes the line. -/
theorem line_perform (a : Assembler) (r : Request) :
    (a.perform r).2.line = r.line?.getD a.line := by
  cases r with
  | value v => exact a.line_emitValue v
  | constant c => exact a.line_emitIndexed c loadInstr
  | call routine => exact a.line_emitIndexed _ _
  | setLine line => rfl
  | getField slot => rfl
  | setField slot => rfl
  | expectNumber depth => rfl
  | writeLine => rfl
  | opcode op hop => rfl

/-! ## All requests -/

theorem line_performAll (a : Assembler) (requests : List Request) :
    (a.performAll requests).line = Request.lineAfter a.line requests := by
  induction requests generalizing a with
  | nil => rfl
  | cons r rs ih =>
    calc (a.performAll (r :: rs)).line
      _ = ((a.perform r).2.performAll rs).line := rfl
      _ = Request.lineAfter (a.perform r).2.line rs := ih _
      _ = Request.lineAfter a.line (r :: rs) := by rw [line_perform, Request.lineAfter_cons]

/-- What holds of requests with respect to those behind the first one, holds of them with respect
to all. -/
theorem forall₂_later {line line' : Nat} {r : Request} {p : Pool}
    {made : List (List Request × Request)} {es : List Entry}
    (hline : ∀ before, Request.lineAfter line' before = Request.lineAfter line (r :: before))
    (h : List.Forall₂ (fun made e =>
      e.line = Request.lineAfter line' made.1 ∧ made.2.Means p e.instr) made es) :
    List.Forall₂ (fun made e => e.line = Request.lineAfter line made.1 ∧ made.2.Means p e.instr)
      (made.map fun made => (r :: made.1, made.2)) es := by
  rw [List.forall₂_map_left_iff]
  exact h.imp fun made e he => ⟨he.1.trans (hline made.1), he.2⟩

/-- After any requests the code spells what it spelled before and, behind it, what was asked for by
the requests that succeeded, each under the line that was in force when it was made. -/
theorem exists_spells (hkeyed : a.pool.table.Keyed Constant.key) {es : List Entry}
    (hspells : a.code.Spells es) (requests : List Request) :
    ∃ written, (a.performAll requests).code.Spells (es ++ written) ∧
      List.Forall₂ (fun made (e : Entry) => e.line = Request.lineAfter a.line made.1 ∧
          made.2.Means (a.performAll requests).pool e.instr)
        (a.successes requests) written ∧
      a.pool.table.Grows (a.performAll requests).pool.table := by
  induction requests generalizing a es with
  | nil => exact ⟨[], by simpa [performAll] using hspells, .nil, .refl _⟩
  | cons r rs ih =>
    have hall : a.performAll (r :: rs) = (a.perform r).2.performAll rs := rfl
    have hcase := outcome_perform hkeyed r
    -- the line in force behind the first request, for the requests behind it
    have hline (before : List Request) :
        Request.lineAfter (a.perform r).2.line before = Request.lineAfter a.line (r :: before) := by
      rw [line_perform, Request.lineAfter_cons]
    rw [hall, successes]
    revert hcase hline
    generalize a.perform r = result
    intro hcase hline
    cases hcase with
    | @line line hr =>
      subst hr
      obtain ⟨written, hcode, hforall, hgrows'⟩ :=
        ih (a := { a with line := line }) hkeyed hspells
      exact ⟨written, hcode, forall₂_later hline hforall, hgrows'⟩
    | @written p i hr _ hgrows hkeyed' hmeans =>
      obtain ⟨written, hcode, hforall, hgrows'⟩ :=
        ih (a := { a with code := a.code.append a.line i.bytes, pool := p }) hkeyed'
          (hspells.append a.line i)
      refine ⟨⟨a.line, i⟩ :: written, ?_, ?_, hgrows.trans hgrows'⟩
      · rw [List.append_assoc] at hcode
        exact hcode
      · rw [hr]
        exact .cons ⟨rfl, hmeans.of_grows hgrows'⟩ (forall₂_later hline hforall)
    | @refused c hc hlimit hkeyed' =>
      obtain ⟨written, hcode, hforall, hgrows'⟩ :=
        ih (a := { a with pool := (a.pool.add c).2 }) hkeyed' hspells
      refine ⟨written, hcode, ?_, (Pool.grows_add a.pool c).trans hgrows'⟩
      have hlater := forall₂_later hline hforall
      simpa [Except.isOk, Except.toBool] using hlater

theorem keyed_performAll (hkeyed : a.pool.table.Keyed Constant.key) (requests : List Request) :
    (a.performAll requests).pool.table.Keyed Constant.key := by
  induction requests generalizing a with
  | nil => exact hkeyed
  | cons r rs ih =>
    refine ih (a := (a.perform r).2) ?_
    have hcase := outcome_perform hkeyed r
    revert hcase
    generalize a.perform r = result
    intro hcase
    cases hcase with
    | line hr => exact hkeyed
    | written i _ _ _ hkeyed' _ => exact hkeyed'
    | refused _ _ hkeyed' => exact hkeyed'

/-- A request fails exactly when the number of its constant is beyond the limit, and then no byte
is written. -/
theorem perform_eq_error_iff (hkeyed : a.pool.table.Keyed Constant.key) (r : Request) :
    ((∃ e, (a.perform r).1 = .error e) ↔
        ∃ c, r.constant? = some c ∧ indexLimit ≤ (a.pool.add c).1) ∧
      ∀ e, (a.perform r).1 = .error e → (a.perform r).2.code = a.code := by
  have hcase := outcome_perform hkeyed r
  revert hcase
  generalize a.perform r = result
  intro hcase
  cases hcase with
  | line hr =>
    subst hr
    refine ⟨⟨?_, ?_⟩, fun e he => by cases he⟩
    · rintro ⟨e, he⟩
      cases he
    · rintro ⟨c, hc, -⟩
      cases hc
  | written i _ hroom _ _ _ =>
    refine ⟨⟨?_, ?_⟩, fun e he => by cases he⟩
    · rintro ⟨e, he⟩
      cases he
    · rintro ⟨c, hc, hlimit⟩
      have hlt := hroom c hc
      omega
  | @refused c hc hlimit _ => exact ⟨⟨fun _ => ⟨c, hc, hlimit⟩, fun _ => ⟨_, rfl⟩⟩, fun _ _ => rfl⟩

end Assembler

/-- The pool with all of the constants added. -/
def Pool.addAll (p : Pool) (constants : List Constant) : Pool :=
  constants.foldl (fun p c => (p.add c).2) p

theorem Pool.keyed_addAll {p : Pool} (h : p.table.Keyed Constant.key) (constants : List Constant) :
    (p.addAll constants).table.Keyed Constant.key := by
  induction constants generalizing p with
  | nil => exact h
  | cons c cs ih => exact ih (p := (p.add c).2) (h.enter c).1

/-- Whatever an assembler is asked for, the code in the end reads back as it. Walked through from
its first byte, it shows one instruction for each request for one that succeeded, in the order of
the requests, then the return, which ends where the code ends. Each instruction is what its request
asked for, with the full value of every operand: a constant's number in the pool, whether written in
one byte or in two, a slot, a depth, a number of arguments. Every byte has a line, and all bytes of
an instruction have the line that was set last among the requests before its own, or line 1. A
request fails exactly when its constant has the number 65536 or more, and then it writes no byte. -/
theorem walk_finish_performAll (constants : List Constant) (requests : List Request) :
    let start : Assembler := { Assembler.start with pool := Pool.empty.addAll constants }
    let a := start.performAll requests
    (∃ written : List Entry,
      a.finish.walk = Code.placed 0 written ++
        [(a.code.size, .instr .ret (Request.lineAfter 1 requests) a.finish.size)] ∧
      List.Forall₂
        (fun made e => e.line = Request.lineAfter 1 made.1 ∧ made.2.Means a.pool e.instr)
        (start.successes requests) written) ∧
    (∀ k, a.finish.line? k = none ↔ a.finish.byte? k = none) ∧
    (∀ offset i line next, (offset, .instr i line next) ∈ a.finish.walk →
      ∀ k, offset ≤ k → k < next → a.finish.line? k = some line) ∧
    ∀ before r after, requests = before ++ r :: after →
      let b := start.performAll before
      ((∃ e, (b.perform r).1 = .error e) ↔ ∃ c, r.constant? = some c ∧ 65536 ≤ (b.pool.add c).1) ∧
      ∀ e, (b.perform r).1 = .error e → (b.perform r).2.code = b.code := by
  intro start a
  have hkeyed : start.pool.table.Keyed Constant.key :=
    Pool.keyed_addAll (Registry.keyed_empty _) constants
  obtain ⟨written, hspells, hforall, -⟩ :=
    Assembler.exists_spells hkeyed Code.spells_empty requests
  rw [List.nil_append] at hspells
  have hfinish : a.finish.Spells (written ++ [⟨a.line, .ret⟩]) := hspells.append a.line .ret
  have hline : a.line = Request.lineAfter 1 requests := start.line_performAll requests
  have hwalk : a.finish.walk = Code.placed 0 written ++
      [(a.code.size, .instr .ret (Request.lineAfter 1 requests) a.finish.size)] := by
    have hsize : a.finish.size = a.code.size + 1 := Code.size_append _ _ _
    rw [hfinish.walk, Code.placed_append, hspells.length_eq, Nat.zero_add, hsize, ← hline]
    rfl
  refine ⟨⟨written, hwalk, hforall⟩, fun k => ?_, ?_, ?_⟩
  · rw [Code.line?, Code.byte?, Option.map_eq_none_iff, Option.map_eq_none_iff]
  · intro offset i line next hmem k hle hlt
    rw [hfinish.walk] at hmem
    exact Code.line?_of_cells [] hfinish hmem hle hlt
  · rintro before r after rfl
    exact Assembler.perform_eq_error_iff (Assembler.keyed_performAll hkeyed before) r

end Rockstar
