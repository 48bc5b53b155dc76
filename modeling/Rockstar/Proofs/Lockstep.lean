import Rockstar.Proofs.Simulation
import Rockstar.Proofs.Uncommented

/-!
# Compiling with and without comments

What was read with comments and what was read without them are compiled side by side. A reference
with a comment inside is never understood (`Name.shape?_eq_none`), so up to the first of them both
know the same variables, and they stop at the same place with the same error
(`lockstep_statements`). The code is another matter: poetic numbers may differ, and so may the
constants, of which there can be too many for one of the two only.
-/

namespace Rockstar

/-! ## References with a comment inside -/

/-- No pronoun or determiner has a parenthesis in it. -/
def Vocabulary.Plain (v : Vocabulary) : Prop :=
  ∀ word ∈ v.pronouns ++ v.determiners, '(' ∉ word.toList

instance (v : Vocabulary) : Decidable v.Plain := by
  unfold Vocabulary.Plain
  infer_instance

theorem Vocabulary.Plain.not_contains {v : Vocabulary} (h : v.Plain) {word : List Char}
    (hword : '(' ∈ word) :
    v.isPronoun (String.ofList word) = false ∧ v.isDeterminer (String.ofList word) = false := by
  have hfold : '(' ∈ (foldCase (String.ofList word)).toList := by
    unfold foldCase
    rw [String.toList_ofList, String.toList_ofList]
    exact List.mem_map.mpr ⟨'(', hword, by decide⟩
  refine ⟨Bool.eq_false_iff.mpr fun hmem => ?_, Bool.eq_false_iff.mpr fun hmem => ?_⟩
  · exact h _ (List.mem_append_left _ (List.contains_iff_mem.mp hmem)) hfold
  · exact h _ (List.mem_append_right _ (List.contains_iff_mem.mp hmem)) hfold

theorem Text.exists_mem_wordsFrom {c : Char} (hc : isSpace c = false) {word cs : List Char}
    (h : c ∈ word ∨ c ∈ cs) : ∃ w ∈ wordsFrom word cs, c ∈ w := by
  induction cs generalizing word with
  | nil =>
    have hmem : c ∈ word := h.resolve_right (by simp)
    have hne : word.isEmpty = false := by
      cases word with
      | nil => cases hmem
      | cons => rfl
    exact ⟨word.reverse, by simp [wordsFrom, hne], by simpa using hmem⟩
  | cons d cs ih =>
    rw [wordsFrom]
    by_cases hspace : isSpace d = true
    · have hne : c ≠ d := by
        rintro rfl
        rw [hc] at hspace
        cases hspace
      -- a space ends the word, which goes to the result unless it is empty
      rw [if_pos hspace]
      by_cases hempty : word.isEmpty = true
      · rw [if_pos hempty]
        refine ih (.inr ?_)
        rw [List.isEmpty_iff.mp hempty] at h
        simpa [hne] using h
      · rw [if_neg hempty]
        rcases h with hword | hcs
        · exact ⟨word.reverse, by simp, by simpa using hword⟩
        · have hrest : c ∈ ([] : List Char) ∨ c ∈ cs := .inr (by simpa [hne] using hcs)
          obtain ⟨w, hw, hcw⟩ := ih hrest
          exact ⟨w, List.mem_cons_of_mem _ hw, hcw⟩
    · rw [if_neg hspace]
      refine ih ?_
      rcases h with hword | hcs
      · exact .inl (List.mem_cons_of_mem _ hword)
      · rcases List.mem_cons.mp hcs with rfl | hmem
        · exact .inl (by simp)
        · exact .inr hmem

theorem Name.isLetters_eq_false {word : List Char} (h : '(' ∈ word) : isLetters word = false := by
  refine Bool.eq_false_iff.mpr fun hletters => ?_
  unfold isLetters at hletters
  have hall := List.all_eq_true.mp (Bool.and_eq_true_iff.mp hletters).2 '(' h
  exact absurd hall (by decide)

/-- A reference with a comment inside is of no shape. -/
theorem Name.shape?_eq_none {v : Vocabulary} (hv : v.Plain) {text : String}
    (h : '(' ∈ text.toList) : shape? v text = none := by
  have hword : '(' ∈ ([] : List Char) ∨ '(' ∈ text.toList := .inr h
  obtain ⟨w, hw, hparen⟩ := Text.exists_mem_wordsFrom (by decide) hword
  have hletters := isLetters_eq_false hparen
  obtain ⟨hpronoun, hdeterminer⟩ := hv.not_contains hparen
  have hproper : isProperWord v w = false := by simp [isProperWord, hletters]
  unfold shape? words Text.words
  generalize Text.wordsFrom [] text.toList = ws at hw ⊢
  match ws with
  | [] => cases hw
  | [word] =>
    obtain rfl := List.mem_singleton.mp hw
    simp [shapeOfWords?, hpronoun, hletters]
  | first :: second :: rest =>
    -- in a common name the word is the determiner or the noun, and it can be neither
    have hcommon : ¬(rest.isEmpty && v.isDeterminer (String.ofList first) &&
        isLetters second) = true := by
      intro hcommon
      simp only [Bool.and_eq_true, List.isEmpty_iff] at hcommon
      obtain ⟨⟨rfl, hfirst⟩, hsecond⟩ := hcommon
      rcases List.mem_cons.mp hw with rfl | hmem
      · rw [hdeterminer] at hfirst
        cases hfirst
      · obtain rfl := List.mem_singleton.mp hmem
        rw [hletters] at hsecond
        cases hsecond
    have hall : ¬(first :: second :: rest).all (isProperWord v) = true := by
      intro hall
      have hw := List.all_eq_true.mp hall w hw
      rw [hproper] at hw
      cases hw
    rw [shapeOfWords?, if_neg hcommon, if_neg hall]

theorem Variable.Reread.eq {ref ref' : Variable} (h : ref.Reread ref')
    (hclear : ref.Undisturbed) : ref' = ref := by
  have htext := h.text hclear
  have hspan := h.span
  cases ref
  cases ref'
  simp_all

namespace CompileM

/-- A reference that is understood has no comment inside. -/
theorem undisturbed_of_identify {o : Options} (hv : o.vocabulary.Plain) {ref : Variable}
    {i : Identity} {s s' : Session} (h : identify o ref s = (.ok i, s')) : ref.Undisturbed := by
  intro hparen
  unfold identify Name.identify at h
  rw [Name.shape?_eq_none hv hparen] at h
  cases h

end CompileM

/-! ## Side by side -/

namespace CompileError

/-- There are more constants than a unit can hold. -/
def IsFull : CompileError → Prop
  | .tooManyConstants _ => True
  | _ => False

/-- The error is not about a reference with a comment inside. -/
def Undisturbed : CompileError → Prop
  | .malformedName text _ => '(' ∉ text.toList
  | _ => True

end CompileError

/-- Where two compilations lead from sessions with the same variables: to the same result, and to
the same variables again if they succeed. All is lost once the first one has met a reference with a
comment inside, or one of them too many constants. -/
inductive Parallel {α : Type} :
    Except CompileError α × Session → Except CompileError α × Session → Prop where
  | ok (a : α) {s s' : Session} : CompileM.SameVars s s' → Parallel (.ok a, s) (.ok a, s')
  | error (e : CompileError) (s s' : Session) : Parallel (.error e, s) (.error e, s')
  | disturbed {e : CompileError} (s : Session) (x' : Except CompileError α × Session) :
      ¬e.Undisturbed → Parallel (.error e, s) x'
  | fullLeft {e : CompileError} (s : Session) (x' : Except CompileError α × Session) :
      e.IsFull → Parallel (.error e, s) x'
  | fullRight (x : Except CompileError α × Session) {e : CompileError} (s' : Session) :
      e.IsFull → Parallel x (.error e, s')

/-- The two computations run in parallel from any sessions with the same variables. -/
def Lockstep {α : Type} (f f' : CompileM α) : Prop :=
  ∀ s s', CompileM.SameVars s s' → Parallel (f s) (f' s')

namespace Lockstep

variable {α β : Type} {f f' : CompileM α} {g g' : α → CompileM β}

theorem bind (hf : Lockstep f f') (hg : ∀ a, Lockstep (g a) (g' a)) :
    Lockstep (f >>= g) (f' >>= g') := by
  intro s s' hvars
  rw [CompileM.bind_apply, CompileM.bind_apply]
  have hparallel := hf s s' hvars
  revert hparallel
  generalize f s = x
  generalize f' s' = x'
  intro hparallel
  cases hparallel with
  | ok a hvars' => exact hg a _ _ hvars'
  | error e s₁ s₁' => exact .error e s₁ s₁'
  | disturbed s₁ x' he => exact .disturbed s₁ _ he
  | fullLeft s₁ x' he => exact .fullLeft s₁ _ he
  | fullRight x s₁' he => exact .fullRight _ s₁' he

theorem pure (a : α) : Lockstep (Pure.pure a) (Pure.pure a) := fun _ _ hvars => .ok a hvars

theorem throw (e : CompileError) : Lockstep (MonadExcept.throw e : CompileM α)
    (MonadExcept.throw e) := fun s s' _ => .error e s s'

/-- A computation that looks at variables only. -/
theorem of_sameVars (h : ∀ s s', CompileM.SameVars s s' →
    (f s').1 = (f s).1 ∧ CompileM.SameVars (f s).2 (f s').2) : Lockstep f f := by
  intro s s' hvars
  obtain ⟨hresult, hvars'⟩ := h s s' hvars
  revert hresult hvars'
  rcases f s with ⟨x, s₁⟩
  rcases f s' with ⟨x', s₁'⟩
  rintro rfl hvars'
  cases x' with
  | ok a => exact .ok a hvars'
  | error e => exact .error e s₁ s₁'

end Lockstep

namespace CompileM

variable {o : Options}

theorem lockstep_emit (i : Instr) : Lockstep (emit i) (emit i) :=
  .of_sameVars fun _ _ hvars => ⟨rfl, hvars.last, hvars.slots⟩

theorem lockstep_setLine (line : Nat) : Lockstep (setLine line) (setLine line) :=
  .of_sameVars fun _ _ hvars => ⟨rfl, hvars.last, hvars.slots⟩

/-- Two constants are entered alike, unless one of them finds no place. -/
theorem lockstep_emitIndexed (c c' : Constant) (instr : UInt16 → Instr) :
    Lockstep (assemble (·.emitIndexed c instr)) (assemble (·.emitIndexed c' instr)) := by
  intro s s' hvars
  rw [assemble_apply, assemble_apply, Assembler.emitIndexed_eq, Assembler.emitIndexed_eq]
  by_cases h : (s.asm.pool.add c).1 < indexLimit
  · by_cases h' : (s'.asm.pool.add c').1 < indexLimit
    · rw [if_pos h, if_pos h']
      exact .ok () ⟨hvars.last, hvars.slots⟩
    · rw [if_neg h']
      exact .fullRight _ _ trivial
  · rw [if_neg h]
    exact .fullLeft _ _ trivial

theorem lockstep_emitNumber (x x' : Float) :
    Lockstep (emitValue (.number x)) (emitValue (.number x')) :=
  lockstep_emitIndexed (.number x) (.number x') Assembler.loadInstr

theorem lockstep_emitValue (v : Value) : Lockstep (emitValue v) (emitValue v) := by
  cases v with
  | number x => exact lockstep_emitNumber x x
  | text t => exact lockstep_emitIndexed (.text t) (.text t) Assembler.loadInstr
  | boolean b => exact lockstep_emit (.pushBool b)
  | mysterious => exact lockstep_emit .pushMysterious
  | null => exact lockstep_emit .pushNull

theorem lockstep_emitCall (r : Routine) : Lockstep (emitCall r) (emitCall r) :=
  lockstep_emitIndexed (.routine r.hash) (.routine r.hash) (.call · (UInt8.ofNat r.arity))

/-- A reference is the same without comments, or it is not understood. -/
theorem lockstep_identify (hv : o.vocabulary.Plain) {ref ref' : Variable}
    (hre : ref.Reread ref') : Lockstep (identify o ref) (identify o ref') := by
  by_cases hclear : ref.Undisturbed
  · rw [hre.eq hclear]
    refine .of_sameVars fun s s' hvars => ?_
    unfold identify
    rw [hvars.last]
    cases Name.identify o.vocabulary s.last ref with
    | ok i => exact ⟨rfl, rfl, hvars.slots⟩
    | error e => exact ⟨rfl, hvars⟩
  · intro s s' _
    have hparen : '(' ∈ ref.text.toList := Decidable.not_not.mp hclear
    have herror : identify o ref s = (.error (.malformedName ref.text ref.span), s) := by
      unfold identify Name.identify
      rw [Name.shape?_eq_none hv hparen]
    rw [herror]
    exact .disturbed s _ hclear

theorem lockstep_slotToRead (i : Identity) (span : Span) :
    Lockstep (slotToRead o i span) (slotToRead o i span) := by
  refine .of_sameVars fun s s' hvars => ?_
  unfold slotToRead
  rw [hvars.slots]
  cases s.slots.find? i.name with
  | some slot => exact ⟨rfl, hvars⟩
  | none => cases o.unbound <;> exact ⟨rfl, hvars⟩

theorem lockstep_declaredKinds (slot : Nat) :
    Lockstep (declaredKinds slot) (declaredKinds slot) := by
  refine .of_sameVars fun s s' hvars => ⟨?_, hvars⟩
  unfold declaredKinds
  rw [hvars.slots]

theorem lockstep_store (i : Identity) (span : Span) : Lockstep (store i span) (store i span) := by
  refine .bind (.of_sameVars fun s s' hvars => ?_) fun slot => lockstep_emit _
  rw [slotToWrite_apply, slotToWrite_apply, hvars.slots]
  exact ⟨rfl, hvars.last, rfl⟩

/-! ## Expressions and statements -/

theorem lockstep_readVariable (hv : o.vocabulary.Plain) {ref ref' : Variable}
    (hre : ref.Reread ref') : Lockstep (readVariable o ref) (readVariable o ref') := by
  refine (lockstep_identify hv hre).bind fun i => ?_
  rw [hre.span]
  refine (lockstep_slotToRead i ref.span).bind fun slot? => ?_
  cases slot? with
  | some slot => exact (lockstep_emit _).bind fun _ => lockstep_declaredKinds slot
  | none => exact (lockstep_emit _).bind fun _ => .pure _

theorem lockstep_follow (plan : Plan) : Lockstep (follow plan) (follow plan) := by
  cases plan with
  | typed op checkLeft checkRight =>
    have hcheck : ∀ needed d, Lockstep (check needed d) (check needed d) := by
      intro needed d
      cases needed with
      | false => exact .pure ()
      | true => exact lockstep_emit _
    rw [follow_typed]
    exact (hcheck _ _).bind fun _ => (hcheck _ _).bind fun _ => lockstep_emit _
  | routine r => exact lockstep_emitCall r
  | dispatch i => exact lockstep_emit i

theorem lockstep_expr (hv : o.vocabulary.Plain) {e e' : Expr} (hre : e.Reread e') :
    Lockstep (expr o e) (expr o e') := by
  induction hre with
  | literal v span => exact (lockstep_emitValue v).bind fun _ => .pure _
  | @poetic x x' text text' span hx =>
    -- the numbers may differ, but not the kinds that are known of them
    exact (lockstep_emitNumber x x').bind fun _ => .pure _
  | «variable» href => exact lockstep_readVariable hv href
  | @binary op l l' r r' hl hr ihl ihr =>
    rw [expr, expr, hl.span_eq, hr.span_eq]
    refine ihl.bind fun left => ihr.bind fun right => ?_
    cases Plan.binary? op left right with
    | some planned => exact (lockstep_follow planned.1).bind fun _ => .pure _
    | none => exact .throw _
  | negation word _ ih => exact ih.bind fun _ => (lockstep_emit _).bind fun _ => .pure _

theorem lockstep_assignParts (hv : o.vocabulary.Plain) {target target' : Variable}
    {value value' : Expr} (htarget : target.Reread target') (hvalue : value.Reread value') :
    Lockstep (assignParts o target value) (assignParts o target' value') := by
  have hbefore : target'.isBefore value' = target.isBefore value := by
    rw [hvalue.isBefore_eq]
    unfold Variable.isBefore
    rw [htarget.span]
  unfold assignParts
  rw [hbefore]
  by_cases h : target.isBefore value = true
  · rw [if_pos h, if_pos h]
    exact (lockstep_identify hv htarget).bind fun i =>
      (lockstep_expr hv hvalue).bind fun _ => .pure i
  · rw [if_neg h, if_neg h]
    exact (lockstep_expr hv hvalue).bind fun _ => lockstep_identify hv htarget

theorem lockstep_step (hv : o.vocabulary.Plain) {target target' : Variable}
    (htarget : target.Reread target') (direction : Direction) (n : Nat) :
    Lockstep (step o direction target n) (step o direction target' n) := by
  refine (lockstep_identify hv htarget).bind fun i => ?_
  rw [htarget.span]
  refine (lockstep_slotToRead i target.span).bind fun slot? => ?_
  have hrest : Lockstep
      (do emit (.expectNumber 0); emitValue (.number (Float.ofNat n))
          emit (.arith direction.operation); store i target.span)
      (do emit (.expectNumber 0); emitValue (.number (Float.ofNat n))
          emit (.arith direction.operation); store i target.span) :=
    (lockstep_emit _).bind fun _ => (lockstep_emitValue _).bind fun _ =>
      (lockstep_emit _).bind fun _ => lockstep_store i target.span
  cases slot? with
  | some slot => exact (lockstep_emit _).bind fun _ => hrest
  | none => exact (lockstep_emit _).bind fun _ => hrest

theorem lockstep_statement (hv : o.vocabulary.Plain) {stmt stmt' : Statement}
    (hre : stmt.Reread stmt') : Lockstep (statement o stmt) (statement o stmt') := by
  cases hre with
  | @assign target target' value value' span htarget hvalue =>
    refine (lockstep_setLine _).bind fun _ => ?_
    refine (lockstep_assignParts hv htarget hvalue).bind fun i => ?_
    rw [htarget.span]
    exact lockstep_store i target.span
  | output verb span hvalue =>
    refine (lockstep_setLine _).bind fun _ => (lockstep_expr hv hvalue).bind fun _ => ?_
    exact (lockstep_emitCall _).bind fun _ => lockstep_emit _
  | step direction n span htarget =>
    exact (lockstep_setLine _).bind fun _ => lockstep_step hv htarget direction n

/-- The statements of a program, with comments and without. -/
theorem lockstep_statements (hv : o.vocabulary.Plain) {p p' : List Statement}
    (hre : List.Forall₂ Statement.Reread p p') :
    Lockstep (statements o p) (statements o p') := by
  induction hre with
  | nil => exact .pure ()
  | cons hstmt _ ih => exact (lockstep_statement hv hstmt).bind fun _ => ih

end CompileM

/-- A program that is refused is refused for the same reason without its comments, unless the
reason is a comment inside a reference, or the number of constants. -/
theorem compile_error_reread {o : Options} (hv : o.vocabulary.Plain) {p p' : List Statement}
    (hre : List.Forall₂ Statement.Reread p p') {e : CompileError} (h : compile o p = .error e)
    (hclear : e.Undisturbed) (hroom : ¬e.IsFull)
    (hroom' : ∀ e', compile o p' = .error e' → ¬e'.IsFull) : compile o p' = .error e := by
  have hparallel := CompileM.lockstep_statements hv hre (.start o) (.start o) ⟨rfl, rfl⟩
  unfold compile at h hroom' ⊢
  revert h hroom' hparallel
  generalize CompileM.statements o p (.start o) = x
  generalize CompileM.statements o p' (.start o) = x'
  intro h hroom' hparallel
  cases hparallel with
  | ok a _ => cases h
  | error e' s s' =>
    cases h
    rfl
  | disturbed s x' he =>
    cases h
    exact absurd hclear he
  | fullLeft s x' he =>
    cases h
    exact absurd he hroom
  | fullRight x s' he => exact absurd he (hroom' _ rfl)

end Rockstar
