import Rockstar.Proofs.Allocation
import Rockstar.Proofs.Refusal
import Rockstar.Proofs.Retexting

/-!
# When slots are created

A statement asks for a slot last of all that can fail, and only for the slot of its target. So a
statement that fails to compile leaves all slots alone, whatever it did to the code and the pool
before it failed, and one that compiles adds at most the slot of its target
(`CompileM.allocates_statement`). Of a session that goes on after errors this says which variables
have slots: those that had one, and the targets of the statements that compiled
(`Session.isSome_find?_after`).
-/

namespace Rockstar

/-- The name of the variable that a statement assigns to, where `last` is the name that was met
last before the statement. A target behind the value may refer to a name in it. -/
def Statement.targetName? (v : Vocabulary) (last : Option String) : Statement → Option String
  | .assign target value _ =>
    target.resolve v
      (if target.isBefore value then last else value.refs.foldl (Variable.next v) last)
  | .output _ _ _ => none
  | .step _ target _ _ => target.resolve v last

/-- The name that a pronoun would refer to next. -/
def Session.lastName? (s : Session) : Option String := s.last.map (·.name)

/-- The session after all statements were compiled, going on after errors. -/
def Session.after (o : Options) (s : Session) (program : List Statement) : Session :=
  ((s.each o program).getLast?.map (·.2)).getD s

theorem Session.after_cons (o : Options) (s : Session) (stmt : Statement)
    (rest : List Statement) :
    s.after o (stmt :: rest) = (CompileM.statement o stmt s).2.after o rest := by
  have heach : s.each o (stmt :: rest) =
      CompileM.statement o stmt s :: (CompileM.statement o stmt s).2.each o rest := rfl
  unfold Session.after
  rw [heach, List.getLast?_cons]
  cases ((CompileM.statement o stmt s).2.each o rest).getLast? <;> rfl

/-- A request for a slot that succeeds adds its name to those that are found, and no other. -/
theorem SlotTable.isSome_find?_enter {t t' : SlotTable} {target : String} {kinds : KindSet}
    {span : Span} {i : Nat} (h : t.enter target kinds span = (.ok i, t')) (name : String) :
    (t'.find? name).isSome ↔ (t.find? name).isSome ∨ target = name := by
  rcases enter_cases h with ⟨hold, rfl⟩ | ⟨-, -, -, rfl⟩
  · constructor
    · exact .inl
    · rintro (hname | rfl)
      · exact hname
      · simp [hold]
  · show ((t.slots.push target _).find? name).isSome ↔ (t.slots.find? name).isSome ∨ target = name
    rw [Registry.find?_push]
    by_cases heq : target = name
    · simp [heq]
    · simp [heq]

namespace CompileM

variable {α : Type} {o : Options} {s s' : Session}

/-! ## The name met last -/

theorem lastName?_of_sameVars {f : CompileM α} (hf : Respects SameVars f) {a : α}
    (h : f s = (.ok a, s')) : s'.lastName? = s.lastName? := by
  unfold Session.lastName?
  rw [(hf.of_ok h).last]

theorem lastName?_of_assemble {f : Assembler → Except CompileError α × Assembler} {a : α}
    (h : assemble f s = (.ok a, s')) : s'.lastName? = s.lastName? :=
  lastName?_of_sameVars (sameVars_assemble f) h

theorem lastName?_of_identify {ref : Variable} {i : Identity}
    (h : identify o ref s = (.ok i, s')) :
    s'.lastName? = ref.next o.vocabulary s.lastName? :=
  (resolve_of_identify h).2.1

/-- The references of an expression that compiles are met from left to right. -/
theorem lastName?_of_expr {e : Expr} {kinds : KindSet} (h : expr o e s = (.ok kinds, s')) :
    s'.lastName? = e.refs.foldl (Variable.next o.vocabulary) s.lastName? := by
  induction e generalizing s s' kinds with
  | literal v span =>
    obtain ⟨_, s₁, hemit, hpure⟩ := bind_eq_ok h
    cases hpure
    exact lastName?_of_assemble hemit
  | poetic x text span =>
    obtain ⟨_, s₁, hemit, hpure⟩ := bind_eq_ok h
    cases hpure
    exact lastName?_of_assemble hemit
  | «variable» ref =>
    obtain ⟨i, slot?, s₁, hidentify, hemit⟩ := readVariable_ok h
    rw [lastName?_of_assemble hemit]
    exact lastName?_of_identify hidentify
  | binary op l r ihl ihr =>
    obtain ⟨left, s₁, right, s₂, plan, hl, hr, -, hfollow⟩ := expr_binary_ok h
    rw [lastName?_of_sameVars (respects_follow sameVars_passesCode plan) hfollow, ihr hr, ihl hl]
    simp only [Expr.refs, List.foldl_append]
  | negation word e ih =>
    obtain ⟨kinds₁, s₁, he, hemit, -⟩ := expr_negation_ok h
    rw [lastName?_of_assemble hemit, ih he]
    rfl

theorem lastName?_of_store {i : Identity} {span : Span} (h : store i span s = (.ok (), s')) :
    s'.lastName? = s.lastName? := by
  obtain ⟨slot, s₁, hslot, hemit⟩ := bind_eq_ok h
  rw [slotToWrite_apply] at hslot
  rw [lastName?_of_assemble hemit, ← (Prod.mk.inj hslot).2]
  rfl

theorem lastName?_of_step {direction : Direction} {target : Variable} {count : Nat}
    (h : step o direction target count s = (.ok (), s')) :
    s'.lastName? = target.next o.vocabulary s.lastName? := by
  obtain ⟨i, slot?, s₁, s₂, s₃, s₄, s₅, hidentify, hread, hcheck, hcount, harith, hstore⟩ :=
    step_parts_ok h
  rw [lastName?_of_store hstore, lastName?_of_assemble harith, lastName?_of_assemble hcount,
    lastName?_of_assemble hcheck, lastName?_of_assemble hread]
  exact lastName?_of_identify hidentify

theorem lastName?_of_assignParts {target : Variable} {value : Expr} {i : Identity}
    (h : assignParts o target value s = (.ok i, s')) (span : Span) :
    s'.lastName? =
      (Statement.assign target value span).refs.foldl (Variable.next o.vocabulary)
        s.lastName? := by
  unfold assignParts at h
  simp only [Statement.refs]
  by_cases hbefore : target.isBefore value = true
  · rw [if_pos hbefore] at h ⊢
    obtain ⟨j, s₁, hidentify, h⟩ := bind_eq_ok h
    obtain ⟨kinds, s₂, hexpr, hpure⟩ := bind_eq_ok h
    cases hpure
    rw [lastName?_of_expr hexpr, List.foldl_cons, lastName?_of_identify hidentify]
  · rw [if_neg hbefore] at h ⊢
    obtain ⟨kinds, s₁, hexpr, hidentify⟩ := bind_eq_ok h
    rw [List.foldl_append, ← lastName?_of_expr hexpr]
    exact lastName?_of_identify hidentify

/-- The references of a statement that compiles are met in the order in which it is compiled. -/
theorem lastName?_of_statement {stmt : Statement} (h : statement o stmt s = (.ok (), s')) :
    s'.lastName? = stmt.refs.foldl (Variable.next o.vocabulary) s.lastName? := by
  obtain ⟨_, s₁, hline, h⟩ := bind_eq_ok h
  rw [← lastName?_of_assemble hline]
  cases stmt with
  | assign target value span =>
    obtain ⟨i, s₂, hparts, hstore⟩ := bind_eq_ok h
    rw [lastName?_of_store hstore, lastName?_of_assignParts hparts span]
  | output verb value span =>
    obtain ⟨kinds, s₂, hexpr, h⟩ := bind_eq_ok h
    obtain ⟨_, s₃, hcall, hwrite⟩ := bind_eq_ok h
    rw [lastName?_of_assemble hwrite, lastName?_of_assemble hcall]
    exact lastName?_of_expr hexpr
  | step direction target count span => exact lastName?_of_step h

/-- The target of an assignment is resolved where it is written, before or behind the value. -/
theorem resolve_of_assignParts {target : Variable} {value : Expr} {i : Identity}
    (h : assignParts o target value s = (.ok i, s')) (span : Span) :
    (Statement.assign target value span).targetName? o.vocabulary s.lastName? = some i.name := by
  unfold assignParts at h
  simp only [Statement.targetName?]
  by_cases hbefore : target.isBefore value = true
  · rw [if_pos hbefore] at h ⊢
    obtain ⟨j, s₁, hidentify, h⟩ := bind_eq_ok h
    obtain ⟨kinds, s₂, -, hpure⟩ := bind_eq_ok h
    cases hpure
    exact (resolve_of_identify hidentify).1
  · rw [if_neg hbefore] at h ⊢
    obtain ⟨kinds, s₁, hexpr, hidentify⟩ := bind_eq_ok h
    rw [← lastName?_of_expr hexpr]
    exact (resolve_of_identify hidentify).1

/-! ## Steps that end in a store -/

/-- What a computation can have done to the slots it started with. It leaves them alone when it
fails; when it succeeds, it has entered the name, if there is one to enter. -/
inductive Allocates (name? : Option String) (slots : SlotTable) :
    Except CompileError Unit × Session → Prop
  | failed {e : CompileError} {s' : Session} (h : s'.slots = slots) :
    Allocates name? slots (.error e, s')
  | kept {s' : Session} (hname : name? = none) (h : s'.slots = slots) :
    Allocates name? slots (.ok (), s')
  | entered {name : String} {span : Span} {i : Nat} {s' : Session} (hname : name? = some name)
    (h : slots.enter name .any span = (.ok i, s'.slots)) : Allocates name? slots (.ok (), s')

variable {name? : Option String}

/-- What comes before the store may fail, but does not touch the slots. -/
theorem Allocates.bind {f : CompileM α} {g : α → CompileM Unit}
    (hf : ∀ s, (f s).2.slots = s.slots)
    (hg : ∀ a s₁, f s = (.ok a, s₁) → Allocates name? s₁.slots (g a s₁)) :
    Allocates name? s.slots ((f >>= g) s) := by
  have hkept := hf s
  rw [bind_apply]
  split
  next a s₁ hok =>
    rw [hok] at hkept
    rw [← show s₁.slots = s.slots from hkept]
    exact hg a s₁ hok
  next e s₁ herror =>
    rw [herror] at hkept
    exact .failed hkept

theorem allocates_of_keeps {f : CompileM Unit} (hf : Respects Session.Keeps f) (s : Session) :
    Allocates none s.slots (f s) := by
  have hkept := (hf s).slots
  rcases hresult : f s with ⟨result, s'⟩
  rw [hresult] at hkept
  cases result with
  | error e => exact .failed hkept
  | ok u => exact .kept rfl hkept

/-- A store can fail only for want of a slot. -/
theorem allocates_store (i : Identity) (span : Span) (s : Session) :
    Allocates (some i.name) s.slots (store i span s) := by
  unfold store
  rw [bind_apply, slotToWrite_apply]
  rcases henter : s.slots.enter i.name .any span with ⟨result, slots⟩
  cases result with
  | error e => exact .failed (SlotTable.enter_error henter)
  | ok slot => exact .entered rfl henter

theorem allocates_step (o : Options) (direction : Direction) (target : Variable) (count : Nat)
    (s : Session) :
    Allocates (target.resolve o.vocabulary s.lastName?) s.slots
      (step o direction target count s) := by
  have hR := keeps_passes o
  refine .bind (fun s => (hR.identify target s).slots) fun i s₁ hidentify => ?_
  have hname : target.resolve o.vocabulary s.lastName? = some i.name :=
    (resolve_of_identify hidentify).1
  rw [hname]
  refine .bind (fun s => (respects_slotToRead hR.toIsPreorder i target.span s).slots)
    fun slot? s₂ _ => ?_
  have hrest : ∀ instr s, Allocates (some i.name) s.slots ((do
      emit instr
      emit (.expectNumber 0)
      emitValue (.number (Float.ofNat count))
      emit (.arith direction.operation)
      store i target.span) s) := by
    intro instr s
    refine .bind (fun s => (hR.emit _ s).slots) fun _ s₃ _ => ?_
    refine .bind (fun s => (hR.emit _ s).slots) fun _ s₄ _ => ?_
    refine .bind (fun s => (keeps_emitValue _ s).slots) fun _ s₅ _ => ?_
    refine .bind (fun s => (hR.emit _ s).slots) fun _ s₆ _ => ?_
    exact allocates_store i target.span s₆
  cases slot? with
  | some slot => exact hrest _ s₂
  | none => exact hrest _ s₂

/-- What compiling a statement does to the slots: nothing when it fails, and nothing but to enter
the target when it succeeds. -/
theorem allocates_statement (o : Options) (stmt : Statement) (s : Session) :
    Allocates (stmt.targetName? o.vocabulary s.lastName?) s.slots (statement o stmt s) := by
  have hR := keeps_passes o
  refine .bind (fun _ => rfl) fun _ s₁ hline => ?_
  have hlast : s.lastName? = s₁.lastName? := by
    cases hline
    rfl
  rw [hlast]
  cases stmt with
  | assign target value span =>
    have hparts : Respects Session.Keeps (assignParts o target value) :=
      respects_assignParts hR target value fun v _ => keeps_emitValue v
    refine .bind (fun s => (hparts s).slots) fun i s₂ hi => ?_
    rw [resolve_of_assignParts hi span]
    exact allocates_store i target.span s₂
  | output verb value span =>
    refine allocates_of_keeps ?_ s₁
    exact (keeps_expr o value).bind hR.toIsPreorder fun _ =>
      (hR.emitCall _).bind hR.toIsPreorder fun _ => hR.emit _
  | step direction target count span => exact allocates_step o direction target count s₁

/-! ## Which variables have slots -/

/-- After a statement, the variables with a slot are those that had one and the target, if the
statement compiled. -/
theorem isSome_find?_statement (o : Options) (stmt : Statement) (s : Session) (name : String) :
    ((statement o stmt s).2.slots.find? name).isSome ↔
      (s.slots.find? name).isSome ∨
        ((statement o stmt s).1 = .ok () ∧
          stmt.targetName? o.vocabulary s.lastName? = some name) := by
  have hall := allocates_statement o stmt s
  rcases hresult : statement o stmt s with ⟨result, s'⟩
  rw [hresult] at hall
  cases hall with
  | failed h => simp [h]
  | kept hname h => simp [h, hname]
  | entered hname h =>
    rw [SlotTable.isSome_find?_enter h name, hname]
    simp

end CompileM

/-- One of the statements, compiled one after the other whether or not they fail, compiles and has
the variable as its target. -/
def Session.Assigns (o : Options) (s : Session) (program : List Statement) (name : String) :
    Prop :=
  ∃ earlier stmt later, program = earlier ++ stmt :: later ∧
    (CompileM.statement o stmt (s.after o earlier)).1 = .ok () ∧
    stmt.targetName? o.vocabulary (s.after o earlier).lastName? = some name

theorem Session.assigns_cons (o : Options) (s : Session) (stmt : Statement)
    (rest : List Statement) (name : String) :
    s.Assigns o (stmt :: rest) name ↔
      ((CompileM.statement o stmt s).1 = .ok () ∧
        stmt.targetName? o.vocabulary s.lastName? = some name) ∨
      (CompileM.statement o stmt s).2.Assigns o rest name := by
  constructor
  · rintro ⟨earlier, stmt', later, hprogram, hok, htarget⟩
    cases earlier with
    | nil =>
      obtain ⟨rfl, rfl⟩ := List.cons.inj hprogram
      exact .inl ⟨hok, htarget⟩
    | cons first earlier =>
      obtain ⟨rfl, rfl⟩ := List.cons.inj hprogram
      rw [Session.after_cons] at hok htarget
      exact .inr ⟨earlier, stmt', later, rfl, hok, htarget⟩
  · rintro (⟨hok, htarget⟩ | ⟨earlier, stmt', later, rfl, hok, htarget⟩)
    · exact ⟨[], stmt, rest, rfl, hok, htarget⟩
    · refine ⟨stmt :: earlier, stmt', later, rfl, ?_, ?_⟩
      · rw [Session.after_cons]
        exact hok
      · rw [Session.after_cons]
        exact htarget

/-- Along a session that goes on after errors, a variable has a slot only from before or from a
statement that compiled. -/
theorem Session.isSome_find?_after (o : Options) (s : Session) (program : List Statement)
    (name : String) :
    ((s.after o program).slots.find? name).isSome ↔
      (s.slots.find? name).isSome ∨ s.Assigns o program name := by
  induction program generalizing s with
  | nil =>
    constructor
    · exact .inl
    · rintro (h | ⟨earlier, stmt, later, hprogram, -, -⟩)
      · exact h
      · simp at hprogram
  | cons stmt rest ih =>
    rw [Session.after_cons, ih, CompileM.isSome_find?_statement, Session.assigns_cons, or_assoc]

/-- In whatever state a compilation is, a statement that fails leaves the table of slots exactly as
it was, and one that compiles adds at most one slot, that of its target. Either way code, lines and
pool are only continued. So, where statements are compiled one after the other whether or not they
fail, the variables with a slot are those that had one at the start and the targets of the
statements that compiled. -/
theorem slots_of_statement (o : Options) (s : Session) (stmt : Statement) :
    let result := (CompileM.statement o stmt s).1
    let s' := (CompileM.statement o stmt s).2
    (∀ e, result = .error e → s'.slots = s.slots) ∧
    (result = .ok () →
      s'.slots = s.slots ∨
      ∃ name, stmt.targetName? o.vocabulary s.lastName? = some name ∧
        s.slots.find? name = none ∧
        s'.slots =
          { s.slots with slots := s.slots.slots.push name ⟨s.slots.size, name, .any⟩ }) ∧
    s.asm.code.cells.toList <+: s'.asm.code.cells.toList ∧
    s.asm.pool.table.entries.toList <+: s'.asm.pool.table.entries.toList ∧
    ∀ program name, ((s.after o program).slots.find? name).isSome ↔
      (s.slots.find? name).isSome ∨ s.Assigns o program name := by
  intro result s'
  have hall : CompileM.Allocates (stmt.targetName? o.vocabulary s.lastName?) s.slots (result, s') :=
    CompileM.allocates_statement o stmt s
  have hgrows : s.Grows s' := CompileM.grows_statement o stmt s
  refine ⟨?_, ?_, hgrows.code, hgrows.pool, s.isSome_find?_after o⟩
  · rintro e herror
    rw [herror] at hall
    cases hall with
    | failed h => exact h
  · intro hok
    rw [hok] at hall
    cases hall with
    | kept hname h => exact .inl h
    | entered hname h =>
      rcases SlotTable.enter_cases h with ⟨-, hsame⟩ | ⟨hnew, -, -, hpush⟩
      · exact .inl hsame
      · exact .inr ⟨_, hname, hnew, hpush⟩

end Rockstar
