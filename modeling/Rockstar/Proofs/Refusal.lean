import Rockstar.Proofs.Reading
import Rockstar.Proofs.Simulation

/-!
# What compilation is refused for

Every error of a compilation comes from one of its steps: a reference that is no name or stands for
nothing, a variable that is read too early, a full table, or an operator without a plan.
`FailsWith P f` says that all errors of `f` are among `P`. It passes through steps in a row, and so
from the steps to expressions, statements and programs.
-/

namespace Rockstar

namespace CompileM

variable {α β : Type} {o : Options} {s s' : Session} {err : CompileError}
  {P : CompileError → Prop}

/-- Two steps in a row fail where the first or the second one does. -/
theorem bind_eq_error {f : CompileM α} {g : α → CompileM β}
    (h : (f >>= g) s = (.error err, s')) :
    f s = (.error err, s') ∨ ∃ a s₁, f s = (.ok a, s₁) ∧ g a s₁ = (.error err, s') := by
  rw [bind_apply] at h
  split at h
  next a s₁ hf => exact .inr ⟨a, s₁, hf, h⟩
  next e s₁ hf =>
    cases h
    exact .inl hf

/-- All errors of the step are among the given ones. -/
def FailsWith (P : CompileError → Prop) (f : CompileM α) : Prop :=
  ∀ s s' err, f s = (.error err, s') → P err

theorem FailsWith.bind {f : CompileM α} {g : α → CompileM β} (hf : FailsWith P f)
    (hg : ∀ a, FailsWith P (g a)) : FailsWith P (f >>= g) := by
  intro s s' err h
  rcases bind_eq_error h with hfirst | ⟨a, s₁, -, hsecond⟩
  · exact hf s s' err hfirst
  · exact hg a s₁ s' err hsecond

theorem failsWith_pure (a : α) : FailsWith P (pure a : CompileM α) := by
  intro s s' err h
  cases h

theorem failsWith_emit (i : Instr) : FailsWith P (emit i) := by
  intro s s' err h
  cases h

theorem failsWith_setLine (line : Nat) : FailsWith P (setLine line) := by
  intro s s' err h
  cases h

/-- A step in front that cannot have failed. -/
theorem FailsWith.bind_eq_error {f : CompileM α} {g : α → CompileM β} (hf : FailsWith P f)
    (h : (f >>= g) s = (.error err, s')) (herr : ¬P err) :
    ∃ a s₁, f s = (.ok a, s₁) ∧ g a s₁ = (.error err, s') := by
  rcases CompileM.bind_eq_error h with hfirst | hsecond
  · exact absurd (hf _ _ _ hfirst) herr
  · exact hsecond

/-- A step behind that cannot have failed. -/
theorem FailsWith.eq_error_of_bind {f : CompileM α} {g : α → CompileM β}
    (hg : ∀ a, FailsWith P (g a)) (h : (f >>= g) s = (.error err, s')) (herr : ¬P err) :
    f s = (.error err, s') := by
  rcases CompileM.bind_eq_error h with hfirst | ⟨a, s₁, -, hsecond⟩
  · exact hfirst
  · exact absurd (hg a _ _ _ hsecond) herr

/-! ## Steps -/

/-- The errors that come from tables and from variables read too early are among the given
ones. -/
structure Admits (P : CompileError → Prop) : Prop where
  constants : ∀ span, P (.tooManyConstants span)
  fullSlots : ∀ owner span, P (.tooManyVariables owner span)
  unbound : ∀ name span, P (.unboundVariable name span)

theorem failsWith_emitIndexed (hP : Admits P) (c : Constant) (instr : UInt16 → Instr) :
    FailsWith P (assemble (·.emitIndexed c instr)) := by
  intro s s' err h
  rw [assemble_apply, Assembler.emitIndexed_eq] at h
  split at h <;> cases h
  exact hP.constants _

theorem failsWith_emitValue (hP : Admits P) (v : Value) : FailsWith P (emitValue v) := by
  cases v with
  | number x => exact failsWith_emitIndexed hP (.number x) Assembler.loadInstr
  | text t => exact failsWith_emitIndexed hP (.text t) Assembler.loadInstr
  | boolean b => exact failsWith_emit (.pushBool b)
  | mysterious => exact failsWith_emit .pushMysterious
  | null => exact failsWith_emit .pushNull

theorem failsWith_emitCall (hP : Admits P) (r : Routine) : FailsWith P (emitCall r) :=
  failsWith_emitIndexed hP (.routine r.hash) (.call · (UInt8.ofNat r.arity))

/-- A reference is refused if it is no name, or a pronoun that stands for nothing. -/
theorem failsWith_identify {ref : Variable}
    (hmalformed : Name.shape? o.vocabulary ref.text = none → P (.malformedName ref.text ref.span))
    (hpronoun : P (.unresolvedPronoun ref.text ref.span)) : FailsWith P (identify o ref) := by
  intro s s' err h
  unfold identify Name.identify at h
  cases hshape : Name.shape? o.vocabulary ref.text with
  | none =>
    rw [hshape] at h
    cases h
    exact hmalformed hshape
  | some shape =>
    rw [hshape] at h
    cases shape with
    | pronoun =>
      cases hlast : s.last <;> rw [hlast] at h <;> cases h
      exact hpronoun
    | _ => cases h

theorem failsWith_slotToRead (hP : Admits P) (i : Identity) (span : Span) :
    FailsWith P (slotToRead o i span) := by
  intro s s' err h
  unfold slotToRead at h
  split at h
  · cases h
  · split at h <;> cases h
    exact hP.unbound _ _

theorem failsWith_store (hP : Admits P) (i : Identity) (span : Span) :
    FailsWith P (store i span) := by
  refine FailsWith.bind ?_ fun slot => failsWith_emit _
  intro s s' err h
  rw [slotToWrite_apply] at h
  unfold SlotTable.enter at h
  split at h
  · cases h
  · dsimp only at h
    split at h <;> cases h
    exact hP.fullSlots _ _

theorem failsWith_follow (hP : Admits P) (plan : Plan) : FailsWith P (follow plan) := by
  cases plan with
  | typed op checkLeft checkRight =>
    have hcheck : ∀ needed d, FailsWith P (check needed d) := by
      intro needed d
      cases needed with
      | true => exact failsWith_emit _
      | false => exact failsWith_pure ()
    rw [follow_typed]
    exact (hcheck _ _).bind fun _ => (hcheck _ _).bind fun _ => failsWith_emit _
  | routine r => exact failsWith_emitCall hP r
  | dispatch i => exact failsWith_emit i

/-! ## Expressions, statements and programs -/

theorem failsWith_readVariable (hP : Admits P) {ref : Variable}
    (href : FailsWith P (identify o ref)) : FailsWith P (readVariable o ref) := by
  refine href.bind fun i => (failsWith_slotToRead hP i _).bind fun slot? => ?_
  cases slot? with
  | some slot =>
    refine (failsWith_emit _).bind fun _ => ?_
    intro s s' err h
    cases h
  | none => exact (failsWith_emit _).bind fun _ => failsWith_pure _

theorem failsWith_expr (hP : Admits P)
    (hmismatch : ∀ op left right span, P (.typeMismatch op left right span)) (e : Expr)
    (hrefs : ∀ ref ∈ e.refs, FailsWith P (identify o ref)) : FailsWith P (expr o e) := by
  induction e with
  | literal v span => exact (failsWith_emitValue hP v).bind fun _ => failsWith_pure _
  | poetic x text span =>
    exact (failsWith_emitValue hP (.number x)).bind fun _ => failsWith_pure _
  | «variable» ref => exact failsWith_readVariable hP (hrefs ref (by simp [Expr.refs]))
  | binary op l r ihl ihr =>
    refine (ihl fun ref h => hrefs ref (List.mem_append_left _ h)).bind fun left => ?_
    refine (ihr fun ref h => hrefs ref (List.mem_append_right _ h)).bind fun right => ?_
    split
    · exact (failsWith_follow hP _).bind fun _ => failsWith_pure _
    · intro s s' err h
      cases h
      exact hmismatch _ _ _ _
  | negation word e ih =>
    exact (ih hrefs).bind fun _ => (failsWith_emit _).bind fun _ => failsWith_pure _

theorem failsWith_step (hP : Admits P) (direction : Direction) {target : Variable} (count : Nat)
    (href : FailsWith P (identify o target)) : FailsWith P (step o direction target count) := by
  refine href.bind fun i => (failsWith_slotToRead hP i _).bind fun slot? => ?_
  have hrest : FailsWith P (do
      emit (.expectNumber 0)
      emitValue (.number (Float.ofNat count))
      emit (.arith direction.operation)
      store i target.span) :=
    (failsWith_emit _).bind fun _ => (failsWith_emitValue hP _).bind fun _ =>
      (failsWith_emit _).bind fun _ => failsWith_store hP i target.span
  cases slot? with
  | some slot => exact (failsWith_emit _).bind fun _ => hrest
  | none => exact (failsWith_emit _).bind fun _ => hrest

theorem failsWith_statement (hP : Admits P)
    (hmismatch : ∀ op left right span, P (.typeMismatch op left right span)) (stmt : Statement)
    (hrefs : ∀ ref ∈ stmt.refs, FailsWith P (identify o ref)) :
    FailsWith P (statement o stmt) := by
  refine (failsWith_setLine _).bind fun _ => ?_
  cases stmt with
  | assign target value span =>
    have htarget := hrefs target (Statement.mem_refs_assign.mpr (.inl rfl))
    have hvalue := failsWith_expr hP hmismatch value fun ref h =>
      hrefs ref (Statement.mem_refs_assign.mpr (.inr h))
    refine FailsWith.bind ?_ fun i => failsWith_store hP i target.span
    unfold assignParts
    split
    · exact htarget.bind fun _ => hvalue.bind fun _ => failsWith_pure _
    · exact hvalue.bind fun _ => htarget
  | output verb value span =>
    exact (failsWith_expr hP hmismatch value hrefs).bind fun _ =>
      (failsWith_emitCall hP _).bind fun _ => failsWith_emit _
  | step direction target count span =>
    exact failsWith_step hP direction count (hrefs target (by simp [Statement.refs]))

/-- The errors of a program are those of its statements. -/
theorem failsWith_statements (hP : Admits P)
    (hmismatch : ∀ op left right span, P (.typeMismatch op left right span))
    (program : List Statement)
    (hrefs : ∀ stmt ∈ program, ∀ ref ∈ stmt.refs, FailsWith P (identify o ref)) :
    FailsWith P (statements o program) := by
  induction program with
  | nil => exact failsWith_pure ()
  | cons stmt rest ih =>
    exact (failsWith_statement hP hmismatch stmt (hrefs stmt (by simp))).bind fun _ =>
      ih fun stmt' h => hrefs stmt' (by simp [h])

end CompileM

/-- A program is refused by the error of a statement. -/
theorem exists_session_of_error {o : Options} {program : List Statement} {e : CompileError}
    (h : compile o program = .error e) :
    ∃ s, CompileM.statements o program (.start o) = (.error e, s) := by
  unfold compile at h
  rcases hrun : CompileM.statements o program (.start o) with ⟨result, s⟩
  rw [hrun] at h
  cases result with
  | ok => cases h
  | error e' =>
    cases h
    exact ⟨s, rfl⟩

end Rockstar
