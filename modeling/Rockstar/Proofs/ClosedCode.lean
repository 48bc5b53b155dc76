import Rockstar.Proofs.DefiniteAssignment

/-!
# Compiled code is closed

Every field and every constant that compiled code refers to is there. For fields this is part of
definite assignment; for constants, the number that an instruction gets is that of an entry of the
pool, and entries stay where they are (`Session.Referring`). All steps of compilation keep it so,
also those that fail (`CompileM.keepsReferring_statements`). Both together say that the code of a
session needs nothing beyond the session (`CompileM.fits_of_statements`).
-/

namespace Rockstar

/-! ## Instructions and what they refer to -/

/-- The constant that an instruction refers to. -/
def Instr.constant? : Instr → Option Nat
  | .constant i => some i.toNat
  | .constantWide i => some i.toNat
  | .call i _ => some i.toNat
  | _ => none

/-- With this many fields and constants, there are those that the instruction refers to. -/
structure Instr.Fits (fields constants : Nat) (i : Instr) : Prop where
  origin : ∀ k, i.origin? = some k → k < fields
  target : ∀ k, i.target? = some k → k < fields
  constant : ∀ k, i.constant? = some k → k < constants

theorem Assembler.constant?_loadInstr {k : Nat} (hk : k < indexLimit) :
    (loadInstr (UInt16.ofNat k)).constant? = some k := by
  have hword : (UInt16.ofNat k).toNat = k := UInt16.toNat_ofNat_of_lt' hk
  unfold loadInstr
  rw [hword]
  split
  next hnarrow => rw [Instr.constant?, UInt8.toNat_ofNat_of_lt' hnarrow]
  next => rw [Instr.constant?, hword]

theorem Instr.constant?_of_operands {i : Instr} (h : i.operands = []) : i.constant? = none := by
  cases i with
  | constant k => cases h
  | constantWide k => cases h
  | call k argc => cases h
  | _ => rfl

/-! ## One reading of code -/

namespace Code

theorem placed_injective {offset : Nat} {es es' : List Entry}
    (h : placed offset es = placed offset es') : es = es' := by
  induction es generalizing offset es' with
  | nil =>
    cases es' with
    | nil => rfl
    | cons e' es' => cases h
  | cons e es ih =>
    cases es' with
    | nil => cases h
    | cons e' es' =>
      obtain ⟨line, i⟩ := e
      obtain ⟨line', i'⟩ := e'
      simp only [placed, List.cons.injEq, Prod.mk.injEq, Fetch.instr.injEq] at h
      obtain ⟨⟨-, rfl, rfl, -⟩, hrest⟩ := h
      rw [ih hrest]

/-- Code is the spelling of one list of instructions only. -/
theorem Spells.unique {c : Code} {es es' : List Entry} (h : c.Spells es) (h' : c.Spells es') :
    es = es' :=
  placed_injective (h.walk.symm.trans h'.walk)

end Code

/-! ## Constants -/

/-- Constants are found by their keys, and the code refers to constants of the pool only. -/
structure Session.Referring (s : Session) : Prop where
  keyed : s.asm.pool.table.Keyed Constant.key
  code : ∃ es, s.asm.code.Spells es ∧
    ∀ e ∈ es, ∀ k, e.instr.constant? = some k → k < s.asm.pool.size

theorem Session.referring_start (o : Options) : (Session.start o).Referring :=
  ⟨Registry.keyed_empty _, [], rfl, by simp⟩

/-- With the same code and more constants the code still refers to constants of the pool. -/
theorem Session.Referring.of_grows {s s' : Session} (h : s.Referring)
    (hkeyed : s'.asm.pool.table.Keyed Constant.key) (hcode : s'.asm.code = s.asm.code)
    (hpool : s.asm.pool.table.Grows s'.asm.pool.table) : s'.Referring := by
  obtain ⟨-, es, hspells, hes⟩ := h
  refine ⟨hkeyed, es, hcode ▸ hspells, fun e he k hk => ?_⟩
  exact Nat.lt_of_lt_of_le (hes e he k hk) hpool.size_le

theorem Session.Referring.of_emits {s s' : Session} {i : Instr} (h : s.Referring)
    (hemits : s.Emits i s') (hpool : s'.asm.pool = s.asm.pool)
    (hi : ∀ k, i.constant? = some k → k < s.asm.pool.size) : s'.Referring := by
  obtain ⟨hkeyed, es, hspells, hes⟩ := h
  refine ⟨hpool ▸ hkeyed, es ++ [⟨s.asm.line, i⟩], hemits.writes.spells hspells, ?_⟩
  intro e he k hk
  rw [hpool]
  rcases List.mem_append.mp he with he | he
  · exact hes e he k hk
  · obtain rfl := List.mem_singleton.mp he
    exact hi k hk

namespace CompileM

variable {α β : Type} {o : Options}

/-- The code goes on referring to constants of the pool, whatever the outcome. -/
def KeepsReferring (f : CompileM α) : Prop := Respects (fun s s' => s.Referring → s'.Referring) f

theorem referring_isPreorder : IsPreorder fun s s' => s.Referring → s'.Referring :=
  ⟨fun _ h => h, fun h h' hs => h' (h hs)⟩

theorem KeepsReferring.bind {f : CompileM α} {g : α → CompileM β} (hf : KeepsReferring f)
    (hg : ∀ a, KeepsReferring (g a)) : KeepsReferring (f >>= g) :=
  Respects.bind referring_isPreorder hf hg

/-- A step that touches neither code nor constants. -/
theorem keepsReferring_of_same {f : CompileM α} (hcode : ∀ s, (f s).2.asm.code = s.asm.code)
    (hpool : ∀ s, (f s).2.asm.pool = s.asm.pool) : KeepsReferring f := fun s h =>
  h.of_grows (hpool s ▸ h.keyed) (hcode s) (hpool s ▸ .refl _)

theorem keepsReferring_identify (ref : Variable) : KeepsReferring (identify o ref) := by
  have hasm : ∀ s, (identify o ref s).2.asm = s.asm := by
    intro s
    obtain ⟨last, hlast⟩ := identify_last o ref s
    rw [hlast]
  exact keepsReferring_of_same (fun s => by rw [hasm]) fun s => by rw [hasm]

theorem keepsReferring_slotToRead (i : Identity) (span : Span) :
    KeepsReferring (slotToRead o i span) :=
  respects_slotToRead referring_isPreorder i span

theorem keepsReferring_emit {i : Instr} (hi : i.constant? = none) : KeepsReferring (emit i) := by
  intro s h
  refine h.of_emits (i := i) rfl rfl fun k hk => ?_
  rw [hi] at hk
  cases hk

/-- The number that an instruction gets for a constant is that of an entry. -/
theorem keepsReferring_emitIndexed {c : Constant} {instr : UInt16 → Instr}
    {f : Assembler → Except CompileError Unit × Assembler}
    (hf : ∀ a, f a = a.emitIndexed c instr)
    (hinstr : ∀ k < indexLimit, (instr (UInt16.ofNat k)).constant? = some k) :
    KeepsReferring (assemble f) := by
  intro s h
  obtain ⟨hkeyed, found, hfound, -⟩ := h.keyed.enter c
  -- the constant is entered in any case, the instruction is written into the session that has it
  have hentered : Session.Referring { s with asm := { s.asm with pool := (s.asm.pool.add c).2 } } :=
    h.of_grows hkeyed rfl (Pool.grows_add _ _)
  rw [assemble_apply, hf, Assembler.emitIndexed_eq]
  split
  next hlt =>
    refine hentered.of_emits (i := instr (UInt16.ofNat (s.asm.pool.add c).1)) rfl rfl ?_
    intro k hk
    rw [hinstr _ hlt] at hk
    cases hk
    exact Registry.lt_size_of_get? hfound
  next => exact hentered

theorem keepsReferring_emitValue (v : Value) : KeepsReferring (emitValue v) := by
  cases v with
  | number x =>
    exact keepsReferring_emitIndexed (c := .number x) (fun _ => rfl) fun k hk =>
      Assembler.constant?_loadInstr hk
  | text t =>
    exact keepsReferring_emitIndexed (c := .text t) (fun _ => rfl) fun k hk =>
      Assembler.constant?_loadInstr hk
  | boolean b => exact keepsReferring_emit (i := .pushBool b) rfl
  | mysterious => exact keepsReferring_emit (i := .pushMysterious) rfl
  | null => exact keepsReferring_emit (i := .pushNull) rfl

theorem keepsReferring_emitCall (r : Routine) : KeepsReferring (emitCall r) :=
  keepsReferring_emitIndexed (c := .routine r.hash) (fun _ => rfl) fun k hk => by
    rw [Instr.constant?, UInt16.toNat_ofNat_of_lt' hk]

theorem keepsReferring_readVariable (ref : Variable) : KeepsReferring (readVariable o ref) := by
  refine (keepsReferring_identify ref).bind fun i => ?_
  refine (keepsReferring_slotToRead i ref.span).bind fun slot? => ?_
  cases slot? with
  | some slot => exact (keepsReferring_emit rfl).bind fun _ => fun _ h => h
  | none => exact (keepsReferring_emit rfl).bind fun _ => fun _ h => h

theorem keepsReferring_follow {op : BinaryOp} {left right kinds : KindSet} {plan : Plan}
    (hplan : Plan.binary? op left right = some (plan, kinds)) : KeepsReferring (follow plan) := by
  cases plan with
  | typed op checkLeft checkRight =>
    cases checkLeft with
    | false =>
      cases checkRight with
      | false => exact keepsReferring_emit rfl
      | true => exact (keepsReferring_emit rfl).bind fun _ => keepsReferring_emit rfl
    | true =>
      refine (keepsReferring_emit rfl).bind fun _ => ?_
      cases checkRight with
      | false => exact keepsReferring_emit rfl
      | true => exact (keepsReferring_emit rfl).bind fun _ => keepsReferring_emit rfl
  | routine r => exact keepsReferring_emitCall r
  | dispatch i =>
    exact keepsReferring_emit (Instr.constant?_of_operands (operands_of_binary? hplan))

theorem keepsReferring_expr (e : Expr) : KeepsReferring (expr o e) := by
  induction e with
  | literal v span => exact (keepsReferring_emitValue v).bind fun _ => fun _ h => h
  | poetic x text span => exact (keepsReferring_emitValue _).bind fun _ => fun _ h => h
  | «variable» ref => exact keepsReferring_readVariable ref
  | binary op l r ihl ihr =>
    refine ihl.bind fun left => ihr.bind fun right => ?_
    split
    next plan kinds hplan => exact (keepsReferring_follow hplan).bind fun _ => fun _ h => h
    next => exact fun _ h => h
  | negation word e ih =>
    exact ih.bind fun _ => (keepsReferring_emit rfl).bind fun _ => fun _ h => h

theorem keepsReferring_store (i : Identity) (span : Span) : KeepsReferring (store i span) := by
  refine KeepsReferring.bind ?_ fun slot => keepsReferring_emit rfl
  exact keepsReferring_of_same (fun _ => rfl) fun _ => rfl

theorem keepsReferring_assignParts (target : Variable) (value : Expr) :
    KeepsReferring (assignParts o target value) := by
  unfold assignParts
  split
  · exact (keepsReferring_identify target).bind fun _ =>
      (keepsReferring_expr value).bind fun _ => fun _ h => h
  · exact (keepsReferring_expr value).bind fun _ => keepsReferring_identify target

theorem keepsReferring_step (direction : Direction) (target : Variable) (count : Nat) :
    KeepsReferring (step o direction target count) := by
  refine (keepsReferring_identify target).bind fun i => ?_
  refine (keepsReferring_slotToRead i target.span).bind fun slot? => ?_
  have hrest : KeepsReferring (do
      emit (.expectNumber 0)
      emitValue (.number (Float.ofNat count))
      emit (.arith direction.operation)
      store i target.span) :=
    (keepsReferring_emit rfl).bind fun _ => (keepsReferring_emitValue _).bind fun _ =>
      (keepsReferring_emit rfl).bind fun _ => keepsReferring_store i target.span
  cases slot? with
  | some slot => exact (keepsReferring_emit rfl).bind fun _ => hrest
  | none => exact (keepsReferring_emit rfl).bind fun _ => hrest

theorem keepsReferring_statement (stmt : Statement) : KeepsReferring (statement o stmt) := by
  refine KeepsReferring.bind (keepsReferring_of_same (fun _ => rfl) fun _ => rfl) fun _ => ?_
  cases stmt with
  | assign target value span =>
    exact (keepsReferring_assignParts target value).bind fun i => keepsReferring_store i target.span
  | output verb value span =>
    exact (keepsReferring_expr value).bind fun _ =>
      (keepsReferring_emitCall .toText).bind fun _ => keepsReferring_emit rfl
  | step direction target count span => exact keepsReferring_step direction target count

theorem keepsReferring_statements (program : List Statement) :
    KeepsReferring (statements o program) := by
  induction program with
  | nil => exact fun _ h => h
  | cons stmt rest ih => exact (keepsReferring_statement stmt).bind fun _ => ih

/-! ## Fields and constants -/

/-- The code of a program refers to nothing that its session does not have. -/
theorem fits_of_statements {program : List Statement} {s : Session}
    (h : statements o program (.start o) = (.ok (), s)) :
    ∃ es, s.asm.code.Spells es ∧ ∀ e ∈ es, e.instr.Fits s.slots.size s.asm.pool.size := by
  obtain ⟨es, hassigned⟩ := assigned_statements (Session.assigned_start o) h
  obtain ⟨-, es', hspells, hconstants⟩ :=
    Respects.of_ok (keepsReferring_statements program) h (Session.referring_start o)
  obtain rfl := hassigned.code.unique hspells
  refine ⟨_, hassigned.code, fun e he => ⟨?_, ?_, hconstants e he⟩⟩
  · exact fun k hk => hassigned.order.origin_lt he hk
  · exact fun k hk => hassigned.order.mem_targets_iff.mp (List.mem_filterMap.mpr ⟨e, he, hk⟩)

end CompileM

end Rockstar
