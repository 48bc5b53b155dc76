import Rockstar.Compile
import Rockstar.Proofs.Assembly

/-!
# Steps of compilation

A run of compilation that succeeds comes apart into runs of its steps (`bind_eq_ok`), and each step
has one lemma that says what it does to the session. What no step undoes is proved for all of them
at once: `Respects R f` says that `f` leads from every session to one that is related to it, also
when it fails, and a relation that is reflexive and transitive passes from the steps to
expressions, statements and programs. Two such relations are used throughout: a session only grows
(`Session.Grows`), and it stays well formed (`Session.Wf`).
-/

namespace Rockstar

namespace CompileM

variable {α β : Type}

/-! ## Taking computations apart -/

theorem bind_apply (f : CompileM α) (g : α → CompileM β) (s : Session) :
    (f >>= g) s = match f s with
      | (.ok a, s') => g a s'
      | (.error e, s') => (.error e, s') := by
  show (ExceptT.bind f g) s = _
  simp only [ExceptT.bind, ExceptT.mk, bind, StateT.bind]
  cases f s with
  | mk result s' => cases result <;> rfl

@[simp] theorem pure_apply (a : α) (s : Session) : (pure a : CompileM α) s = (.ok a, s) := rfl

@[simp] theorem throw_apply (e : CompileError) (s : Session) :
    (throw e : CompileM α) s = (.error e, s) := rfl

/-- Two steps in a row succeed only when both do. -/
theorem bind_eq_ok {f : CompileM α} {g : α → CompileM β} {s s' : Session} {b : β}
    (h : (f >>= g) s = (.ok b, s')) :
    ∃ a s₁, f s = (.ok a, s₁) ∧ g a s₁ = (.ok b, s') := by
  rw [bind_apply] at h
  split at h
  next a s₁ hf => exact ⟨a, s₁, hf, h⟩
  next e s₁ hf => cases h

/-- The parts of the compilation of an operator. -/
theorem expr_binary_ok {o : Options} {op : BinaryOp} {l r : Expr} {s s' : Session}
    {kinds : KindSet} (h : expr o (.binary op l r) s = (.ok kinds, s')) :
    ∃ left s₁ right s₂ plan, expr o l s = (.ok left, s₁) ∧ expr o r s₁ = (.ok right, s₂) ∧
      Plan.binary? op left right = some (plan, kinds) ∧ follow plan s₂ = (.ok (), s') := by
  obtain ⟨left, s₁, hl, h⟩ := bind_eq_ok h
  obtain ⟨right, s₂, hr, h⟩ := bind_eq_ok h
  cases hplan : Plan.binary? op left right with
  | none =>
    rw [hplan] at h
    cases h
  | some planned =>
    rw [hplan] at h
    obtain ⟨_, s₃, hfollow, hpure⟩ := bind_eq_ok h
    cases hpure
    exact ⟨left, s₁, right, s₂, planned.1, hl, hr, hplan, hfollow⟩

/-- The parts of the compilation of a negation. -/
theorem expr_negation_ok {o : Options} {word : Span} {e : Expr} {s s' : Session}
    {kinds : KindSet} (h : expr o (.negation word e) s = (.ok kinds, s')) :
    ∃ kinds₁ s₁, expr o e s = (.ok kinds₁, s₁) ∧ emit .not s₁ = (.ok (), s') ∧
      kinds = .only .boolean := by
  obtain ⟨kinds₁, s₁, he, h⟩ := bind_eq_ok h
  obtain ⟨_, s₂, hemit, hpure⟩ := bind_eq_ok h
  cases hpure
  exact ⟨kinds₁, s₁, he, hemit, rfl⟩

/-! ## Relations that every step respects -/

/-- Whatever the outcome, the computation leads to a related session. -/
def Respects (R : Session → Session → Prop) (f : CompileM α) : Prop := ∀ s, R s (f s).2

/-- A relation that sequences of steps hand on. -/
structure IsPreorder (R : Session → Session → Prop) : Prop where
  refl : ∀ s, R s s
  trans : ∀ {s s' s''}, R s s' → R s' s'' → R s s''

variable {R : Session → Session → Prop}

theorem respects_pure (hR : IsPreorder R) (a : α) : Respects R (pure a : CompileM α) := hR.refl

theorem respects_throw (hR : IsPreorder R) (e : CompileError) :
    Respects R (throw e : CompileM α) :=
  hR.refl

theorem Respects.bind (hR : IsPreorder R) {f : CompileM α} {g : α → CompileM β}
    (hf : Respects R f) (hg : ∀ a, Respects R (g a)) : Respects R (f >>= g) := by
  intro s
  have hfs := hf s
  rw [bind_apply]
  split
  next a s' heq =>
    rw [heq] at hfs
    exact hR.trans hfs (hg a s')
  next e s' heq =>
    rw [heq] at hfs
    exact hfs

theorem Respects.of_ok {f : CompileM α} (hf : Respects R f) {s s' : Session} {a : α}
    (h : f s = (.ok a, s')) : R s s' := by
  have hs := hf s
  rw [h] at hs
  exact hs

/-- The relation passes through the steps that write instructions. -/
structure PassesCode (R : Session → Session → Prop) : Prop extends IsPreorder R where
  emit : ∀ i, Respects R (emit i)
  emitCall : ∀ r, Respects R (emitCall r)

/-- The relation passes through the steps that expressions are compiled by. -/
structure Passes (R : Session → Session → Prop) (o : Options) : Prop extends PassesCode R where
  identify : ∀ ref, Respects R (identify o ref)

end CompileM

/-- The values that stand in an expression as literals. -/
def Expr.literals : Expr → List Value
  | .literal v _ => [v]
  | .poetic x _ _ => [.number x]
  | .variable _ => []
  | .binary _ l r => l.literals ++ r.literals
  | .negation _ e => e.literals

/-- The values that stand in a statement as literals; the count of a step is one. -/
def Statement.literals : Statement → List Value
  | .assign _ value _ => value.literals
  | .output _ value _ => value.literals
  | .step _ _ count _ => [.number (Float.ofNat count)]

namespace CompileM

variable {R : Session → Session → Prop} {o : Options}

theorem respects_slotToRead (hR : IsPreorder R) (i : Identity) (span : Span) :
    Respects R (slotToRead o i span) := by
  intro s
  unfold slotToRead
  split
  · exact hR.refl s
  · split <;> exact hR.refl s

theorem respects_readVariable (hR : Passes R o) (ref : Variable) :
    Respects R (readVariable o ref) := by
  refine (hR.identify ref).bind hR.toIsPreorder fun i => ?_
  refine (respects_slotToRead hR.toIsPreorder i ref.span).bind hR.toIsPreorder fun slot? => ?_
  cases slot? with
  | some slot =>
    exact (hR.emit _).bind hR.toIsPreorder fun _ s => hR.refl s
  | none => exact (hR.emit _).bind hR.toIsPreorder fun _ => respects_pure hR.toIsPreorder _

theorem respects_follow (hR : PassesCode R) (plan : Plan) : Respects R (follow plan) := by
  cases plan with
  | typed op checkLeft checkRight =>
    cases checkLeft with
    | false =>
      cases checkRight with
      | false => exact hR.emit _
      | true => exact (hR.emit _).bind hR.toIsPreorder fun _ => hR.emit _
    | true =>
      refine (hR.emit _).bind hR.toIsPreorder fun _ => ?_
      cases checkRight with
      | false => exact hR.emit _
      | true => exact (hR.emit _).bind hR.toIsPreorder fun _ => hR.emit _
  | routine r => exact hR.emitCall r
  | dispatch i => exact hR.emit i

/-- What passes through the steps passes through expressions. -/
theorem respects_expr (hR : Passes R o) (e : Expr)
    (hvalue : ∀ v ∈ e.literals, Respects R (emitValue v)) : Respects R (expr o e) := by
  induction e with
  | literal v span =>
    exact (hvalue v (by simp [Expr.literals])).bind hR.toIsPreorder fun _ =>
      respects_pure hR.toIsPreorder _
  | poetic x text span =>
    exact (hvalue (.number x) (by simp [Expr.literals])).bind hR.toIsPreorder fun _ =>
      respects_pure hR.toIsPreorder _
  | «variable» ref => exact respects_readVariable hR ref
  | binary op l r ihl ihr =>
    refine (ihl fun v hv => hvalue v (by simp [Expr.literals, hv])).bind hR.toIsPreorder
      fun left => ?_
    refine (ihr fun v hv => hvalue v (by simp [Expr.literals, hv])).bind hR.toIsPreorder
      fun right => ?_
    split
    · exact (respects_follow hR.toPassesCode _).bind hR.toIsPreorder fun _ =>
        respects_pure hR.toIsPreorder _
    · exact respects_throw hR.toIsPreorder _
  | negation word e ih =>
    exact (ih hvalue).bind hR.toIsPreorder fun _ =>
      (hR.emit _).bind hR.toIsPreorder fun _ => respects_pure hR.toIsPreorder _

/-- The relation passes through all steps of compilation but the load of a literal. -/
structure PassesAll (R : Session → Session → Prop) (o : Options) : Prop extends Passes R o where
  setLine : ∀ line, Respects R (setLine line)
  slotToWrite : ∀ i span, Respects R (slotToWrite i span)

theorem respects_store (hR : PassesAll R o) (i : Identity) (span : Span) :
    Respects R (store i span) :=
  (hR.slotToWrite i span).bind hR.toIsPreorder fun _ => hR.emit _

theorem respects_assignParts (hR : Passes R o) (target : Variable) (value : Expr)
    (hvalue : ∀ v ∈ value.literals, Respects R (emitValue v)) :
    Respects R (assignParts o target value) := by
  unfold assignParts
  split
  · exact (hR.identify target).bind hR.toIsPreorder fun _ =>
      (respects_expr hR value hvalue).bind hR.toIsPreorder fun _ =>
        respects_pure hR.toIsPreorder _
  · exact (respects_expr hR value hvalue).bind hR.toIsPreorder fun _ => hR.identify target

theorem respects_step (hR : PassesAll R o) (direction : Direction) (target : Variable)
    (count : Nat) (hvalue : Respects R (emitValue (.number (Float.ofNat count)))) :
    Respects R (step o direction target count) := by
  refine (hR.identify target).bind hR.toIsPreorder fun i => ?_
  refine (respects_slotToRead hR.toIsPreorder i target.span).bind hR.toIsPreorder fun slot? => ?_
  have hrest : Respects R (do
      emit (.expectNumber 0)
      emitValue (.number (Float.ofNat count))
      emit (.arith direction.operation)
      store i target.span) :=
    (hR.emit _).bind hR.toIsPreorder fun _ => hvalue.bind hR.toIsPreorder fun _ =>
      (hR.emit _).bind hR.toIsPreorder fun _ => respects_store hR i target.span
  cases slot? with
  | some slot => exact (hR.emit _).bind hR.toIsPreorder fun _ => hrest
  | none => exact (hR.emit _).bind hR.toIsPreorder fun _ => hrest

/-- What passes through the steps passes through statements. -/
theorem respects_statement (hR : PassesAll R o) (stmt : Statement)
    (hvalue : ∀ v ∈ stmt.literals, Respects R (emitValue v)) :
    Respects R (statement o stmt) := by
  refine (hR.setLine stmt.span.line).bind hR.toIsPreorder fun _ => ?_
  cases stmt with
  | assign target value span =>
    exact (respects_assignParts hR.toPasses target value hvalue).bind hR.toIsPreorder
      fun i => respects_store hR i target.span
  | output verb value span =>
    exact (respects_expr hR.toPasses value hvalue).bind hR.toIsPreorder fun _ =>
      (hR.emitCall _).bind hR.toIsPreorder fun _ => hR.emit _
  | step direction target count span =>
    exact respects_step hR direction target count (hvalue _ (by simp [Statement.literals]))

/-- What passes through the steps passes through programs. -/
theorem respects_statements (hR : PassesAll R o) (program : List Statement)
    (hvalue : ∀ stmt ∈ program, ∀ v ∈ stmt.literals, Respects R (emitValue v)) :
    Respects R (statements o program) := by
  induction program with
  | nil => exact respects_pure hR.toIsPreorder ()
  | cons stmt rest ih =>
    exact (respects_statement hR stmt (hvalue stmt (by simp))).bind hR.toIsPreorder fun _ =>
      ih fun stmt' h => hvalue stmt' (by simp [h])

end CompileM

/-! ## Sessions grow -/

/-- Code, constants and slots of the first session stand in the second one. -/
structure Session.Grows (s s' : Session) : Prop where
  code : s.asm.code.Grows s'.asm.code
  pool : s.asm.pool.table.Grows s'.asm.pool.table
  slots : s.slots.slots.Grows s'.slots.slots

theorem Session.grows_isPreorder : CompileM.IsPreorder Session.Grows where
  refl _ := ⟨.refl _, .refl _, .refl _⟩
  trans h h' := ⟨h.code.trans h'.code, h.pool.trans h'.pool, h.slots.trans h'.slots⟩

namespace Assembler

/-- Enters a constant and appends an instruction that refers to it by its number. -/
def emitIndexed (a : Assembler) (c : Constant) (instr : UInt16 → Instr) :
    Except CompileError Unit × Assembler :=
  match a.constantIndex c with
  | (.ok i, a) => (.ok (), a.emit (instr i))
  | (.error e, a) => (.error e, a)

/-- The load of a constant, narrow if its index fits into a byte. -/
def loadInstr (i : UInt16) : Instr :=
  if i.toNat < 256 then .constant (UInt8.ofNat i.toNat) else .constantWide i

/-- The constant is entered in any case; the instruction is written if the number has an index. -/
theorem emitIndexed_eq (a : Assembler) (c : Constant) (instr : UInt16 → Instr) :
    a.emitIndexed c instr =
      if (a.pool.add c).1 < indexLimit then
        (.ok (), { a with
          code := a.code.append a.line (instr (UInt16.ofNat (a.pool.add c).1)).bytes
          pool := (a.pool.add c).2 })
      else
        (.error (.tooManyConstants (.point a.line 1)), { a with pool := (a.pool.add c).2 }) := by
  unfold emitIndexed constantIndex
  by_cases h : (a.pool.add c).1 < indexLimit
  · simp only [h, if_true]
    rfl
  · simp only [h, if_false]

theorem grows_emitIndexed (a : Assembler) (c : Constant) (instr : UInt16 → Instr) :
    a.code.Grows (a.emitIndexed c instr).2.code ∧
      a.pool.table.Grows (a.emitIndexed c instr).2.pool.table := by
  rw [emitIndexed_eq]
  split
  · exact ⟨Code.grows_append _ _ _, Pool.grows_add _ _⟩
  · exact ⟨.refl _, Pool.grows_add _ _⟩

theorem grows_emitValue (a : Assembler) (v : Value) :
    a.code.Grows (a.emitValue v).2.code ∧ a.pool.table.Grows (a.emitValue v).2.pool.table := by
  cases v with
  | number x => exact grows_emitIndexed a (.number x) loadInstr
  | text t => exact grows_emitIndexed a (.text t) loadInstr
  | boolean b => exact ⟨Code.grows_append _ _ _, .refl _⟩
  | mysterious => exact ⟨Code.grows_append _ _ _, .refl _⟩
  | null => exact ⟨Code.grows_append _ _ _, .refl _⟩

theorem line_emitIndexed (a : Assembler) (c : Constant) (instr : UInt16 → Instr) :
    (a.emitIndexed c instr).2.line = a.line := by
  rw [emitIndexed_eq]
  split <;> rfl

theorem line_emitValue (a : Assembler) (v : Value) : (a.emitValue v).2.line = a.line := by
  cases v with
  | number x => exact line_emitIndexed a (.number x) loadInstr
  | text t => exact line_emitIndexed a (.text t) loadInstr
  | boolean b => rfl
  | mysterious => rfl
  | null => rfl

end Assembler

namespace CompileM

variable {α : Type}

theorem assemble_apply (f : Assembler → Except CompileError α × Assembler) (s : Session) :
    assemble f s = ((f s.asm).1, { s with asm := (f s.asm).2 }) := rfl

theorem identify_last (o : Options) (ref : Variable) (s : Session) :
    ∃ last, (identify o ref s).2 = { s with last := last } := by
  unfold identify
  split
  · exact ⟨_, rfl⟩
  · exact ⟨s.last, rfl⟩

theorem slotToWrite_apply (i : Identity) (span : Span) (s : Session) :
    slotToWrite i span s =
      ((s.slots.enter i.name .any span).1,
        { s with slots := (s.slots.enter i.name .any span).2 }) := rfl

/-- No step takes anything away. -/
theorem grows_passesAll (o : Options) : PassesAll Session.Grows o where
  toIsPreorder := Session.grows_isPreorder
  identify ref s := by
    obtain ⟨last, hlast⟩ := identify_last o ref s
    rw [hlast]
    exact ⟨.refl _, .refl _, .refl _⟩
  emit i s := ⟨Code.grows_append _ _ _, .refl _, .refl _⟩
  emitCall r s := ⟨(s.asm.grows_emitIndexed _ _).1, (s.asm.grows_emitIndexed _ _).2, .refl _⟩
  setLine line s := ⟨.refl _, .refl _, .refl _⟩
  slotToWrite i span s := ⟨.refl _, .refl _, SlotTable.grows_enter _ _ _ _⟩

theorem grows_emitValue (v : Value) : Respects Session.Grows (emitValue v) :=
  fun s => ⟨(s.asm.grows_emitValue v).1, (s.asm.grows_emitValue v).2, .refl _⟩

theorem grows_expr (o : Options) (e : Expr) : Respects Session.Grows (expr o e) :=
  respects_expr (grows_passesAll o).toPasses e fun v _ => grows_emitValue v

theorem grows_statement (o : Options) (stmt : Statement) :
    Respects Session.Grows (statement o stmt) :=
  respects_statement (grows_passesAll o) stmt fun v _ => grows_emitValue v

theorem grows_statements (o : Options) (program : List Statement) :
    Respects Session.Grows (statements o program) :=
  respects_statements (grows_passesAll o) program fun _ _ v _ => grows_emitValue v

end CompileM

/-! ## Sessions stay well formed -/

/-- Every name has its slot and every constant its number. -/
structure Session.Wf (s : Session) : Prop where
  slots : s.slots.Wf
  pool : s.asm.pool.Wf

theorem Session.wf_start (o : Options) : (Session.start o).Wf :=
  ⟨SlotTable.wf_empty _, Pool.wf_empty⟩

/-- A value whose number, if it is one, is plain. -/
def Value.IsPlain : Value → Prop
  | .number x => Decimal.IsPlain x
  | _ => True

namespace CompileM

/-- Being well formed is handed on. -/
def KeepsWf (s s' : Session) : Prop := s.Wf → s'.Wf

theorem wf_emitIndexed {a : Assembler} (h : a.pool.Wf) {c : Constant} (hc : c.IsPlain)
    (instr : UInt16 → Instr) : (a.emitIndexed c instr).2.pool.Wf := by
  rw [Assembler.emitIndexed_eq]
  split
  · exact (h.add hc).1
  · exact (h.add hc).1

theorem wf_passesAll (o : Options) : PassesAll KeepsWf o where
  refl _ h := h
  trans h h' hs := h' (h hs)
  identify ref s h := by
    obtain ⟨last, hlast⟩ := identify_last o ref s
    rw [hlast]
    exact ⟨h.slots, h.pool⟩
  emit i s h := ⟨h.slots, h.pool⟩
  emitCall r s h := ⟨h.slots, wf_emitIndexed h.pool (c := .routine r.hash) trivial _⟩
  setLine line s h := ⟨h.slots, h.pool⟩
  slotToWrite i span s h := ⟨h.slots.enter_any i.name span, h.pool⟩

theorem wf_emitValue {v : Value} (hv : v.IsPlain) : Respects KeepsWf (emitValue v) := by
  intro s h
  refine ⟨h.slots, ?_⟩
  show (s.asm.emitValue v).2.pool.Wf
  cases v with
  | number x => exact wf_emitIndexed h.pool (c := .number x) hv Assembler.loadInstr
  | text t => exact wf_emitIndexed h.pool (c := .text t) trivial Assembler.loadInstr
  | boolean b => exact h.pool
  | mysterious => exact h.pool
  | null => exact h.pool

theorem wf_expr (o : Options) {e : Expr} (he : ∀ v ∈ e.literals, v.IsPlain) :
    Respects KeepsWf (expr o e) :=
  respects_expr (wf_passesAll o).toPasses e fun v hv => wf_emitValue (he v hv)

theorem wf_statement (o : Options) {stmt : Statement} (h : ∀ v ∈ stmt.literals, v.IsPlain) :
    Respects KeepsWf (statement o stmt) :=
  respects_statement (wf_passesAll o) stmt fun v hv => wf_emitValue (h v hv)

end CompileM

end Rockstar
