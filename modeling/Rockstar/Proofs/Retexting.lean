import Rockstar.Proofs.Correctness
import Rockstar.Proofs.Referents

/-!
# Other texts for references

The texts of references matter only through what they refer to (`compile_retexted`). Two programs
that differ in these texts alone are compiled step by step alike, as long as their references stand
for the same names: `Twins` relates two computations that lead from equal sessions to equal
sessions, except for the reference that a session remembers for later pronouns.
-/

namespace Rockstar

/-! ## Compiling both -/

/-- Two sessions that differ at most in the reference that was remembered; `last` and `last'` are
the names of these. -/
structure Twin (last last' : Option String) (s s' : Session) : Prop where
  slots : s'.slots = s.slots
  asm : s'.asm = s.asm
  left : s.last.map (·.name) = last
  right : s'.last.map (·.name) = last'

/-- Where the first computation succeeds from one of two twins on, the second one succeeds from the
other on and has the same effect, as long as the references that they look up stand for the same
names. -/
def Twins {α : Type} (v : Vocabulary) (R : α → α → Prop) (refs refs' : List Variable)
    (f f' : CompileM α) : Prop :=
  ∀ (s s₁ s' : Session) (a : α) (last last' : Option String) (more more' : List Variable),
    f s = (.ok a, s₁) → Twin last last' s s' →
    SameNames v last last' (refs ++ more) (refs' ++ more') →
    ∃ a' s₁' last₁ last₁', f' s' = (.ok a', s₁') ∧ R a a' ∧ Twin last₁ last₁' s₁ s₁' ∧
      SameNames v last₁ last₁' more more'

namespace Twins

variable {α β : Type} {v : Vocabulary} {R : α → α → Prop} {S : β → β → Prop}
  {refs refs' : List Variable}

theorem bind {more more' : List Variable} {f f' : CompileM α} {g g' : α → CompileM β}
    (hf : Twins v R refs refs' f f') (hg : ∀ a a', R a a' → Twins v S more more' (g a) (g' a')) :
    Twins v S (refs ++ more) (refs' ++ more') (f >>= g) (f' >>= g') := by
  intro s s₁ s' b last last' rest rest' h htwin hsame
  obtain ⟨a, s₂, hfs, hgs⟩ := CompileM.bind_eq_ok h
  rw [List.append_assoc, List.append_assoc] at hsame
  obtain ⟨a', s₂', last₂, last₂', hfs', hR, htwin₂, hsame₂⟩ := hf _ _ _ _ _ _ _ _ hfs htwin hsame
  obtain ⟨b', s₁', last₁, last₁', hgs', hS, htwin₁, hsame₁⟩ :=
    hg a a' hR _ _ _ _ _ _ _ _ hgs htwin₂ hsame₂
  refine ⟨b', s₁', last₁, last₁', ?_, hS, htwin₁, hsame₁⟩
  rw [CompileM.bind_apply, hfs']
  exact hgs'

theorem pure {a a' : α} (h : R a a') : Twins v R [] [] (Pure.pure a) (Pure.pure a') := by
  intro s s₁ s' b last last' more more' hs htwin hsame
  cases hs
  exact ⟨a', s', last, last', rfl, h, htwin, hsame⟩

/-- A computation that does not look at the reference that was remembered. -/
theorem of_eq {f : CompileM α}
    {g : SlotTable → Assembler → Except CompileError α × SlotTable × Assembler}
    (h : ∀ s : Session, f s =
      ((g s.slots s.asm).1, ⟨s.last, (g s.slots s.asm).2.1, (g s.slots s.asm).2.2⟩)) :
    Twins v Eq [] [] f f := by
  intro s s₁ s' a last last' more more' hs htwin hsame
  rw [h] at hs
  have hresult : (g s.slots s.asm).1 = .ok a := congrArg Prod.fst hs
  have hsession : _ = s₁ := congrArg Prod.snd hs
  subst hsession
  refine ⟨a, ⟨s'.last, (g s.slots s.asm).2.1, (g s.slots s.asm).2.2⟩, last, last', ?_, rfl,
    ⟨rfl, rfl, htwin.left, htwin.right⟩, hsame⟩
  rw [h, htwin.slots, htwin.asm, hresult]

end Twins

namespace CompileM

variable {α : Type} {o : Options} {v : Vocabulary}

theorem twins_assemble (f : Assembler → Except CompileError α × Assembler) :
    Twins v Eq [] [] (assemble f) (assemble f) :=
  .of_eq (g := fun slots asm => ((f asm).1, slots, (f asm).2)) fun _ => rfl

theorem twins_emit (i : Instr) : Twins v Eq [] [] (emit i) (emit i) := twins_assemble _

/-- A reference that is found stands for the name that it resolves to, and leaves behind the name
that was met last. -/
theorem resolve_of_identify {ref : Variable} {s s₁ : Session} {i : Identity}
    (h : identify o ref s = (.ok i, s₁)) :
    ref.resolve o.vocabulary (s.last.map (·.name)) = some i.name ∧
      s₁.last.map (·.name) = ref.next o.vocabulary (s.last.map (·.name)) ∧
      s₁.slots = s.slots ∧ s₁.asm = s.asm := by
  unfold identify Name.identify at h
  unfold Variable.resolve Variable.next Variable.isName
  cases hshape : Name.shape? o.vocabulary ref.text with
  | none =>
    rw [hshape] at h
    cases h
  | some shape =>
    rw [hshape] at h
    cases shape with
    | pronoun =>
      cases hlast : s.last with
      | none =>
        rw [hlast] at h
        cases h
      | some j =>
        rw [hlast] at h
        cases h
        exact ⟨rfl, rfl, rfl, rfl⟩
    | simple =>
      cases h
      exact ⟨rfl, rfl, rfl, rfl⟩
    | common =>
      cases h
      exact ⟨rfl, rfl, rfl, rfl⟩
    | proper =>
      cases h
      exact ⟨rfl, rfl, rfl, rfl⟩

theorem identify_of_resolve {ref : Variable} {s : Session} {name : String}
    (h : ref.resolve o.vocabulary (s.last.map (·.name)) = some name) :
    ∃ i s₁, identify o ref s = (.ok i, s₁) := by
  unfold Variable.resolve at h
  unfold identify Name.identify
  cases hshape : Name.shape? o.vocabulary ref.text with
  | none =>
    rw [hshape] at h
    cases h
  | some shape =>
    rw [hshape] at h
    cases shape with
    | pronoun =>
      obtain ⟨j, hlast, -⟩ := Option.map_eq_some_iff.mp h
      rw [hlast]
      exact ⟨_, _, rfl⟩
    | simple => exact ⟨_, _, rfl⟩
    | common => exact ⟨_, _, rfl⟩
    | proper => exact ⟨_, _, rfl⟩

/-- Finding a variable: the names agree, and so do the names that are remembered. -/
theorem twins_identify (ref ref' : Variable) :
    Twins o.vocabulary (fun i i' => i'.name = i.name) [ref] [ref'] (identify o ref)
      (identify o ref') := by
  intro s s₁ s' i last last' more more' h htwin hsame
  obtain ⟨hsame, hrest⟩ := hsame
  obtain ⟨hresolve, hnext, hslots, hasm⟩ := resolve_of_identify h
  rw [← htwin.left, hresolve, ← htwin.right] at hsame
  obtain ⟨i', s₁', h'⟩ := identify_of_resolve hsame
  obtain ⟨hresolve', hnext', hslots', hasm'⟩ := resolve_of_identify h'
  rw [hsame] at hresolve'
  refine ⟨i', s₁', ref.next o.vocabulary last, ref'.next o.vocabulary last', h',
    (Option.some.inj hresolve').symm, ⟨?_, ?_, ?_, ?_⟩, hrest⟩
  · rw [hslots', hslots, htwin.slots]
  · rw [hasm', hasm, htwin.asm]
  · rw [hnext, htwin.left]
  · rw [hnext', htwin.right]

/-- Reading a slot depends on the name of the variable, not on how it was written. -/
theorem twins_slotToRead {i i' : Identity} (hname : i'.name = i.name) (span : Span) :
    Twins v Eq [] [] (slotToRead o i span) (slotToRead o i' span) := by
  have heq : slotToRead o i' span = slotToRead o i span := by
    unfold slotToRead
    rw [hname]
  rw [heq]
  refine .of_eq (g := fun slots asm =>
    (match slots.find? i.name, o.unbound with
      | some slot, _ => .ok (some slot)
      | none, .refuse => .error (.unboundVariable i.name span)
      | none, .mysterious => .ok none, slots, asm)) fun s => ?_
  unfold slotToRead
  cases s.slots.find? i.name with
  | some slot => rfl
  | none => cases o.unbound <;> rfl

theorem twins_declaredKinds (slot : Nat) :
    Twins v Eq [] [] (declaredKinds slot) (declaredKinds slot) :=
  .of_eq (g := fun slots asm =>
    (.ok (((slots.get? slot).map (·.declared)).getD .any), slots, asm)) fun _ => rfl

theorem twins_store {i i' : Identity} (hname : i'.name = i.name) (span : Span) :
    Twins v Eq [] [] (store i span) (store i' span) := by
  have heq : store i' span = store i span := by
    unfold store slotToWrite
    rw [hname]
  rw [heq]
  refine (Twins.of_eq (g := fun slots asm =>
    ((slots.enter i.name .any span).1, (slots.enter i.name .any span).2, asm)) fun _ => rfl).bind
    fun slot slot' hslot => ?_
  rw [← hslot]
  exact twins_assemble _

theorem twins_readVariable {ref ref' : Variable} (hspan : ref'.span = ref.span) :
    Twins o.vocabulary Eq [ref] [ref'] (readVariable o ref) (readVariable o ref') := by
  show Twins o.vocabulary Eq ([ref] ++ []) ([ref'] ++ []) _ _
  refine (twins_identify ref ref').bind fun i i' hname => ?_
  rw [hspan]
  refine (twins_slotToRead hname ref.span).bind fun slot? slot?' hslot => ?_
  subst hslot
  cases slot? with
  | some slot => exact (twins_assemble _).bind fun _ _ _ => twins_declaredKinds slot
  | none => exact (twins_assemble _).bind fun _ _ _ => .pure rfl

theorem twins_follow (plan : Plan) : Twins v Eq [] [] (follow plan) (follow plan) := by
  cases plan with
  | typed op checkLeft checkRight =>
    have hcheck : ∀ needed d, Twins v Eq [] [] (check needed d) (check needed d) := by
      intro needed d
      cases needed with
      | false => exact .pure rfl
      | true => exact twins_emit _
    rw [follow_typed]
    exact (hcheck _ _).bind fun _ _ _ => (hcheck _ _).bind fun _ _ _ => twins_assemble _
  | routine r =>
    show Twins v Eq [] [] (emitCall r) (emitCall r)
    exact twins_assemble _
  | dispatch i => exact twins_emit i

theorem twins_expr {e e' : Expr} (h : e.Alike e') :
    Twins o.vocabulary Eq e.refs e'.refs (expr o e) (expr o e') := by
  induction h with
  | literal value s => exact (twins_assemble _).bind fun _ _ _ => .pure rfl
  | poetic y text s => exact (twins_assemble _).bind fun _ _ _ => .pure rfl
  | «variable» hspan => exact twins_readVariable hspan
  | @binary op l l' r r' hl hr ihl ihr =>
    refine ihl.bind fun left left' hleft => ?_
    subst hleft
    rw [← List.append_nil r.refs, ← List.append_nil r'.refs, hl.span_eq, hr.span_eq]
    refine ihr.bind fun right right' hright => ?_
    subst hright
    cases Plan.binary? op left right with
    | some planned => exact (twins_follow planned.1).bind fun _ _ _ => .pure rfl
    | none =>
      intro s s₁ s' a last last' more more' hthrow
      cases hthrow
  | @negation word e e' _ ih =>
    show Twins _ _ (e.refs) (e'.refs) _ _
    rw [← List.append_nil e.refs, ← List.append_nil e'.refs]
    exact ih.bind fun _ _ _ => (twins_assemble _).bind fun _ _ _ => .pure rfl

theorem twins_assignParts {target target' : Variable} {value value' : Expr}
    (htarget : target'.span = target.span) (hvalue : value.Alike value') (s : Span) :
    Twins o.vocabulary (fun i i' => i'.name = i.name) (Statement.assign target value s).refs
      (Statement.assign target' value' s).refs (assignParts o target value)
      (assignParts o target' value') := by
  unfold assignParts
  rw [Statement.refs, Statement.refs, Variable.isBefore_congr htarget hvalue]
  by_cases hbefore : target.isBefore value = true
  · rw [if_pos hbefore, if_pos hbefore, if_pos hbefore, if_pos hbefore]
    show Twins _ _ ([target] ++ value.refs) ([target'] ++ value'.refs) _ _
    refine (twins_identify target target').bind fun i i' hname => ?_
    rw [← List.append_nil value.refs, ← List.append_nil value'.refs]
    exact (twins_expr hvalue).bind fun _ _ _ => .pure hname
  · rw [if_neg hbefore, if_neg hbefore, if_neg hbefore, if_neg hbefore]
    exact (twins_expr hvalue).bind fun _ _ _ => twins_identify target target'

theorem twins_step {target target' : Variable} (htarget : target'.span = target.span)
    (direction : Direction) (n : Nat) :
    Twins o.vocabulary Eq [target] [target'] (step o direction target n)
      (step o direction target' n) := by
  show Twins _ _ ([target] ++ []) ([target'] ++ []) _ _
  refine (twins_identify target target').bind fun i i' hname => ?_
  rw [htarget]
  refine (twins_slotToRead hname target.span).bind fun slot? slot?' hslot => ?_
  subst hslot
  have hrest : Twins o.vocabulary Eq [] []
      (do emit (.expectNumber 0); emitValue (.number (Float.ofNat n))
          emit (.arith direction.operation); store i target.span)
      (do emit (.expectNumber 0); emitValue (.number (Float.ofNat n))
          emit (.arith direction.operation); store i' target.span) :=
    (twins_assemble _).bind fun _ _ _ => (twins_assemble _).bind fun _ _ _ =>
      (twins_assemble _).bind fun _ _ _ => twins_store hname target.span
  cases slot? with
  | some slot => exact (twins_assemble _).bind fun _ _ _ => hrest
  | none => exact (twins_assemble _).bind fun _ _ _ => hrest

theorem twins_statement {stmt stmt' : Statement} (h : stmt.Alike stmt') :
    Twins o.vocabulary Eq stmt.refs stmt'.refs (statement o stmt) (statement o stmt') := by
  have hspan : stmt'.span = stmt.span := by cases h <;> rfl
  unfold statement
  rw [hspan]
  show Twins _ _ ([] ++ stmt.refs) ([] ++ stmt'.refs) _ _
  refine (twins_assemble _).bind fun _ _ _ => ?_
  cases h with
  | @assign target target' value value' s htarget hvalue =>
    have hparts := (twins_assignParts (o := o) htarget hvalue s).bind fun i i' hname =>
      twins_store hname target.span
    rw [List.append_nil, List.append_nil] at hparts
    show Twins _ _ _ _ _ (assignParts o target' value' >>= fun i => store i target'.span)
    rw [htarget]
    exact hparts
  | @output verb value value' s hvalue =>
    show Twins _ _ value.refs value'.refs _ _
    rw [← List.append_nil value.refs, ← List.append_nil value'.refs]
    exact (twins_expr hvalue).bind fun _ _ _ => (twins_assemble _).bind fun _ _ _ =>
      twins_assemble _
  | step direction n s htarget => exact twins_step htarget direction n

theorem twins_statements {p p' : List Statement} (h : List.Forall₂ Statement.Alike p p') :
    Twins o.vocabulary Eq (p.flatMap Statement.refs) (p'.flatMap Statement.refs)
      (statements o p) (statements o p') := by
  induction h with
  | nil => exact .pure rfl
  | cons hstmt _ ih => exact (twins_statement hstmt).bind fun _ _ _ => ih

end CompileM

/-- Two programs whose references stand for the same names, one by one, compile to the same. -/
theorem compile_of_sameNames {o : Options} {p p' : List Statement} {x : Executable}
    (h : compile o p = .ok x) (halike : List.Forall₂ Statement.Alike p p')
    (hsame : SameNames o.vocabulary none none (p.flatMap Statement.refs)
      (p'.flatMap Statement.refs)) : compile o p' = .ok x := by
  unfold compile at h ⊢
  rcases hrun : CompileM.statements o p (.start o) with ⟨result, s⟩
  rw [hrun] at h
  cases result with
  | error e => cases h
  | ok =>
    cases h
    rw [← List.append_nil (p.flatMap _), ← List.append_nil (p'.flatMap _)] at hsame
    obtain ⟨_, s', _, _, hrun', -, htwin, -⟩ :=
      CompileM.twins_statements halike _ _ _ _ _ _ _ _ hrun ⟨rfl, rfl, rfl, rfl⟩ hsame
    rw [hrun']
    simp only [Session.finish, htwin.slots, htwin.asm]

/-! ## Names in place of pronouns -/

/-- The expression with other references. -/
def Expr.mapRefs (f : Variable → Variable) : Expr → Expr
  | .literal v s => .literal v s
  | .poetic y text s => .poetic y text s
  | .variable ref => .variable (f ref)
  | .binary op l r => .binary op (l.mapRefs f) (r.mapRefs f)
  | .negation word e => .negation word (e.mapRefs f)

/-- The statement with other references. -/
def Statement.mapRefs (f : Variable → Variable) : Statement → Statement
  | .assign target value s => .assign (f target) (value.mapRefs f) s
  | .output verb value s => .output verb (value.mapRefs f) s
  | .step direction target n s => .step direction (f target) n s

/-- The reference with the text of the name it stands for in place of a pronoun. -/
def Variable.spelledOut (v : Vocabulary) (refs : List Variable) (ref : Variable) : Variable :=
  if Name.shape? v ref.text = some .pronoun then
    { ref with text := ((antecedent? v refs ref).map (·.text)).getD ref.text }
  else ref

section MapRefs

variable {f : Variable → Variable} (hspan : ∀ ref, (f ref).span = ref.span)

include hspan

theorem Expr.alike_mapRefs (e : Expr) : e.Alike (e.mapRefs f) := by
  induction e with
  | literal v s => exact .literal v s
  | poetic y text s => exact .poetic y text s
  | «variable» ref => exact .variable (hspan ref)
  | binary op l r ihl ihr => exact .binary op ihl ihr
  | negation word e ih => exact .negation word ih

theorem Statement.alike_mapRefs (stmt : Statement) : stmt.Alike (stmt.mapRefs f) := by
  cases stmt with
  | assign target value s => exact .assign s (hspan target) (value.alike_mapRefs hspan)
  | output verb value s => exact .output verb s (value.alike_mapRefs hspan)
  | step direction target n s => exact .step direction n s (hspan target)

omit hspan in
theorem Expr.refs_mapRefs (e : Expr) : (e.mapRefs f).refs = e.refs.map f := by
  induction e with
  | literal v s => rfl
  | poetic y text s => rfl
  | «variable» ref => rfl
  | binary op l r ihl ihr => rw [mapRefs, refs, refs, List.map_append, ihl, ihr]
  | negation word e ih => exact ih

theorem Statement.refs_mapRefs (stmt : Statement) : (stmt.mapRefs f).refs = stmt.refs.map f := by
  cases stmt with
  | assign target value s =>
    rw [mapRefs, refs, refs,
      Variable.isBefore_congr (hspan target) (value.alike_mapRefs hspan), value.refs_mapRefs]
    split
    · rfl
    · rw [List.map_append]
      rfl
  | output verb value s => exact value.refs_mapRefs
  | step direction target n s => rfl

theorem refs_map_mapRefs (p : List Statement) :
    (p.map (Statement.mapRefs f)).flatMap Statement.refs = (p.flatMap Statement.refs).map f := by
  induction p with
  | nil => rfl
  | cons stmt rest ih =>
    rw [List.map_cons, List.flatMap_cons, List.flatMap_cons, List.map_append, ih,
      stmt.refs_mapRefs hspan]

theorem alike_map_mapRefs (p : List Statement) :
    List.Forall₂ Statement.Alike p (p.map (Statement.mapRefs f)) := by
  induction p with
  | nil => exact .nil
  | cons stmt rest ih => exact .cons (stmt.alike_mapRefs hspan) ih

end MapRefs

theorem Variable.span_spelledOut (v : Vocabulary) (refs : List Variable) (ref : Variable) :
    (ref.spelledOut v refs).span = ref.span := by
  unfold spelledOut
  split <;> rfl

theorem Variable.resolve_of_isName {v : Vocabulary} {ref : Variable} (h : ref.isName v = true)
    (last : Option String) : ref.resolve v last = some (Name.canonical ref.text) := by
  unfold isName at h
  unfold resolve
  cases hshape : Name.shape? v ref.text with
  | none =>
    rw [hshape] at h
    cases h
  | some shape =>
    rw [hshape] at h
    cases shape with
    | pronoun => cases h
    | simple => rfl
    | common => rfl
    | proper => rfl

theorem Variable.of_pronoun {v : Vocabulary} {ref : Variable}
    (h : Name.shape? v ref.text = some .pronoun) (last : Option String) :
    ref.resolve v last = last ∧ ref.next v last = last := by
  unfold resolve next isName
  rw [h]
  exact ⟨rfl, rfl⟩

/-- A pronoun and the name it stands for are met with the same effect. -/
theorem spelledOut_same {v : Vocabulary} {before after : List Variable} {ref : Variable}
    (h : (before ++ ref :: after).Pairwise Variable.Precedes) :
    let spelled := ref.spelledOut v (before ++ ref :: after)
    spelled.resolve v (lastName v before) = ref.resolve v (lastName v before) ∧
      spelled.next v (lastName v before) = ref.next v (lastName v before) := by
  by_cases hpronoun : Name.shape? v ref.text = some .pronoun
  · obtain ⟨hresolve, hnext⟩ := Variable.of_pronoun hpronoun (lastName v before)
    dsimp only
    rw [Variable.spelledOut, if_pos hpronoun, antecedent?_of_pairwise h, hresolve, hnext]
    cases hlast : (before.filter (·.isName v)).getLast? with
    | none => exact Variable.of_pronoun hpronoun (lastName v before)
    -- the pronoun turns into a name, and that name was the last one already
    | some a =>
      have hname : a.isName v = true := (List.mem_filter.mp (List.mem_of_getLast? hlast)).2
      have hlastName : lastName v before = some (Name.canonical a.text) := by
        unfold lastName
        rw [hlast]
        rfl
      have hspelled : Variable.isName v { ref with text := a.text } = true := hname
      rw [hlastName]
      refine ⟨Variable.resolve_of_isName hspelled _, ?_⟩
      show (if Variable.isName v { ref with text := a.text } = true then _ else _) = _
      rw [if_pos hspelled]
      rfl
  · dsimp only
    rw [Variable.spelledOut, if_neg hpronoun]
    exact ⟨rfl, rfl⟩

theorem sameNames_spelledOut {v : Vocabulary} (before : List Variable) {refs : List Variable}
    (h : (before ++ refs).Pairwise Variable.Precedes) :
    SameNames v (lastName v before) (lastName v before) refs
      (refs.map (Variable.spelledOut v (before ++ refs))) := by
  induction refs generalizing before with
  | nil => trivial
  | cons ref refs ih =>
    obtain ⟨hresolve, hnext⟩ := spelledOut_same h
    refine ⟨hresolve, ?_⟩
    rw [hnext, ← lastName_append]
    have hsplit : before ++ ref :: refs = before ++ [ref] ++ refs := by simp
    rw [hsplit] at h ⊢
    exact ih _ h

/-- References matter only through what they refer to. Take a program that was read and compiled,
and give its references other texts in such a way that each of them keeps its referent: the result
compiles too, and to the same. In particular every pronoun can be replaced by the name it stands
for. -/
theorem compile_retexted {o : Options} {source : String} {p : List Statement} {x : Executable}
    (hparse : parse o.vocabulary source.toList = .ok p) (hcompile : compile o p = .ok x) :
    (∀ p', List.Forall₂ Statement.Alike p p' →
      (∀ ref ∈ p.flatMap Statement.refs, ∀ ref' ∈ p'.flatMap Statement.refs,
        ref'.span = ref.span →
        referent? o.vocabulary (p'.flatMap Statement.refs) ref' =
          referent? o.vocabulary (p.flatMap Statement.refs) ref) →
      compile o p' = .ok x) ∧
    compile o (p.map (Statement.mapRefs
      (Variable.spelledOut o.vocabulary (p.flatMap Statement.refs)))) = .ok x := by
  have horder := (source_of_parse hparse).refs
  refine ⟨fun p' halike hsame => ?_, ?_⟩
  · have hspans := refs_span_of_alike halike
    refine compile_of_sameNames hcompile halike ?_
    exact sameNames_of_referents [] [] hspans horder
      (pairwise_precedes_of_spans hspans horder) hsame
  · have hspan := Variable.span_spelledOut o.vocabulary (p.flatMap Statement.refs)
    refine compile_of_sameNames hcompile (alike_map_mapRefs hspan p) ?_
    rw [refs_map_mapRefs hspan]
    exact sameNames_spelledOut [] horder

/-- `skySource` with other texts: the name in capitals, once in place of a pronoun, and another
pronoun. -/
def skyRetold : List Statement :=
  [.assign ⟨"THE SKY", ⟨1, 1, 7⟩⟩ (.literal (.number 5) ⟨1, 12, 1⟩) ⟨1, 1, 12⟩,
    .output .say (.variable ⟨"the  Sky", ⟨2, 5, 2⟩⟩) ⟨2, 1, 6⟩,
    .output .say (.binary (.arith .add) (.variable ⟨"her", ⟨3, 5, 2⟩⟩) (.literal .null ⟨3, 13, 4⟩))
      ⟨3, 1, 16⟩]

theorem alike_skyRetold : List.Forall₂ Statement.Alike skyProgram skyRetold :=
  .cons (.assign _ rfl (.literal _ _)) <|
    .cons (.output _ _ (.variable rfl)) <|
      .cons (.output _ _ (.binary _ (.variable rfl) (.literal _ _))) .nil

/-- Both texts of the sky compile to the same. -/
theorem compile_retexted_sky :
    ∃ x, parse (Options.vocabulary {}) skySource.toList = .ok skyProgram ∧
      compile {} skyProgram = .ok x ∧ compile {} skyRetold = .ok x := by
  obtain ⟨x, hx⟩ := exists_compile_skyProgram
  refine ⟨x, parse_skySource, hx, ?_⟩
  refine (compile_retexted parse_skySource hx).1 skyRetold alike_skyRetold ?_
  decide +kernel

end Rockstar
