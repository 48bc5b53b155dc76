import Rockstar.Proofs.Correctness

/-!
# Compiled code is safe

A compiled program never meets a fault of the machine itself (`execute_safe`): no stack runs empty,
no byte, constant, field or routine is missing, whatever the sink does. Behind this stand two facts
about stretches of code. The code of an expression, wherever it occurs in the program, leaves
exactly one value more on any stack, or stops because of a kind (`ExprAt`). And the stack is empty
wherever the code of a statement begins, and where the program returns.
-/

namespace Rockstar

/-! ## Where expressions are compiled -/

/-- While the first expression is compiled from the first session on, the second one is compiled
from the second session on. -/
inductive Expr.Inside (o : Options) : Expr → Session → Expr → Session → Prop where
  | self (e : Expr) (s : Session) : Inside o e s e s
  | left {op : BinaryOp} {l r e : Expr} {s s₁ : Session} :
      Inside o l s e s₁ → Inside o (.binary op l r) s e s₁
  | right {op : BinaryOp} {l r e : Expr} {s s₁ : Session} :
      Inside o r (CompileM.expr o l s).2 e s₁ → Inside o (.binary op l r) s e s₁
  | operand {word : Span} {e' e : Expr} {s s₁ : Session} :
      Inside o e' s e s₁ → Inside o (.negation word e') s e s₁

/-- The expression that a statement compiles, if it has one, and the session from which on it does
so. -/
def Statement.value? (o : Options) (stmt : Statement) (s : Session) : Option (Expr × Session) :=
  let s := (CompileM.setLine stmt.span.line s).2
  match stmt with
  | .assign target value _ =>
    some (value, if target.isBefore value then (CompileM.identify o target s).2 else s)
  | .output _ value _ => some (value, s)
  | .step _ _ _ _ => none

/-- Somewhere in the program the expression is compiled from the session on. -/
def ExprAt (o : Options) (program : List Statement) (e : Expr) (s : Session) : Prop :=
  ∃ before stmt after value s₀, program = before ++ stmt :: after ∧
    stmt.value? o (CompileM.statements o before (.start o)).2 = some (value, s₀) ∧
    Expr.Inside o value s₀ e s

/-- What is known of an expression that is compiled on the way to an executable. -/
structure Compiled (o : Options) (x : Executable) (e : Expr) (s : Session) : Prop where
  ok : ∃ kinds s', CompileM.expr o e s = (.ok kinds, s') ∧ s'.Within x
  plain : ∀ v ∈ e.literals, v.IsPlain
  wf : s.Wf

section Places

open CompileM

variable {R : Session → Session → Prop} {o : Options} {e₀ e : Expr} {s₀ s : Session}

theorem Expr.Inside.literals (h : e₀.Inside o s₀ e s) : e.literals ⊆ e₀.literals := by
  induction h with
  | self => exact List.Subset.refl _
  | left _ ih => exact List.Subset.trans ih (List.subset_append_left _ _)
  | right _ ih => exact List.Subset.trans ih (List.subset_append_right _ _)
  | operand _ ih => exact ih

/-- What passes through the steps of compilation gets to every part of an expression. -/
theorem Expr.Inside.respected (h : e₀.Inside o s₀ e s) (hR : Passes R o)
    (hvalue : ∀ v ∈ e₀.literals, Respects R (emitValue v)) : R s₀ s := by
  induction h with
  | self e s => exact hR.refl s
  | left _ ih => exact ih fun v hv => hvalue v (List.mem_append_left _ hv)
  | @right op l r e s s₁ _ ih =>
    have hleft := respects_expr hR l fun v hv => hvalue v (List.mem_append_left _ hv)
    exact hR.trans (hleft s) (ih fun v hv => hvalue v (List.mem_append_right _ hv))
  | operand _ ih => exact ih hvalue

/-- The expression of a statement has its literals, and is reached by passing some of its steps. -/
theorem Statement.of_value? {stmt : Statement} {value : Expr}
    (h : stmt.value? o s = some (value, s₀)) :
    stmt.literals = value.literals ∧
      ∀ {R : Session → Session → Prop}, PassesAll R o → R s s₀ := by
  unfold Statement.value? at h
  cases stmt with
  | assign target value' span =>
    cases h
    refine ⟨rfl, fun hR => hR.trans (hR.setLine span.line s) ?_⟩
    split
    · exact hR.identify target _
    · exact hR.refl _
  | output verb value' span =>
    cases h
    exact ⟨rfl, fun hR => hR.setLine span.line s⟩
  | step direction target n span => cases h

theorem ExprAt.literals {program : List Statement} (h : ExprAt o program e s) :
    ∃ stmt ∈ program, e.literals ⊆ stmt.literals := by
  obtain ⟨before, stmt, after, value, s₀, rfl, hvalue, hinside⟩ := h
  exact ⟨stmt, by simp, (Statement.of_value? hvalue).1 ▸ hinside.literals⟩

/-- What passes through the steps of compilation gets to every expression of a program. -/
theorem ExprAt.respected {program : List Statement} (h : ExprAt o program e s) (hR : PassesAll R o)
    (hvalue : ∀ stmt ∈ program, ∀ v ∈ stmt.literals, Respects R (emitValue v)) :
    R (.start o) s := by
  obtain ⟨before, stmt, after, value, s₀, rfl, hstmt, hinside⟩ := h
  obtain ⟨hliterals, hsteps⟩ := Statement.of_value? hstmt
  have hbefore := respects_statements hR before fun stmt' hmem => hvalue stmt' (by simp [hmem])
  refine hR.trans (hbefore _) (hR.trans (hsteps hR) (hinside.respected hR.toPasses ?_))
  exact fun v hv => hvalue stmt (by simp) v (hliterals ▸ hv)

theorem ExprAt.wf {program : List Statement} (h : ExprAt o program e s)
    (hplain : ∀ stmt ∈ program, ∀ v ∈ stmt.literals, v.IsPlain) : s.Wf :=
  h.respected (wf_passesAll o) (fun stmt hmem v hv => wf_emitValue (hplain stmt hmem v hv))
    (Session.wf_start o)

end Places

namespace CompileM

variable {o : Options} {x : Executable} {s s' : Session}

theorem statements_append {before after : List Statement}
    (h : statements o (before ++ after) s = (.ok (), s')) :
    ∃ s₁, statements o before s = (.ok (), s₁) ∧ statements o after s₁ = (.ok (), s') := by
  induction before generalizing s with
  | nil => exact ⟨s, rfl, h⟩
  | cons stmt before ih =>
    obtain ⟨_, s₁, hstmt, hrest⟩ := bind_eq_ok h
    obtain ⟨s₂, hbefore, hafter⟩ := ih hrest
    refine ⟨s₂, ?_, hafter⟩
    show (statement o stmt >>= fun _ => statements o before) s = _
    rw [bind_apply, hstmt]
    exact hbefore

/-- Inside an expression that compiles, every part does. -/
theorem ok_inside {e₀ e : Expr} {s₀ : Session} (hinside : e₀.Inside o s₀ e s)
    (h : ∃ kinds s', expr o e₀ s₀ = (.ok kinds, s') ∧ s'.Within x) :
    ∃ kinds s', expr o e s = (.ok kinds, s') ∧ s'.Within x := by
  induction hinside with
  | self e s => exact h
  | @left op l r e s s₁ _ ih =>
    obtain ⟨kinds, s', hok, hin⟩ := h
    obtain ⟨left, s₂, right, s₃, plan, hl, hr, hplan, hfollow⟩ := expr_binary_ok hok
    have hin₃ := hin.of_grows
      ((respects_follow (grows_passesAll o).toPassesCode plan).of_ok hfollow)
    exact ih ⟨left, s₂, hl, hin₃.of_grows ((grows_expr o r).of_ok hr)⟩
  | @right op l r e s s₁ _ ih =>
    obtain ⟨kinds, s', hok, hin⟩ := h
    obtain ⟨left, s₂, right, s₃, plan, hl, hr, hplan, hfollow⟩ := expr_binary_ok hok
    -- the right operand begins where the code of the left one ends
    rw [hl] at ih
    exact ih ⟨right, s₃, hr, hin.of_grows
      ((respects_follow (grows_passesAll o).toPassesCode plan).of_ok hfollow)⟩
  | @operand word e' e s s₁ _ ih =>
    obtain ⟨kinds, s', hok, hin⟩ := h
    obtain ⟨kinds₁, s₂, he, hemit, -⟩ := expr_negation_ok hok
    exact ih ⟨kinds₁, s₂, he, hin.of_grows (((grows_passesAll o).emit _).of_ok hemit)⟩

/-- Inside an expression that is compiled, so is every part of it. -/
theorem compiled_inside {e₀ e : Expr} {s₀ : Session} (hinside : e₀.Inside o s₀ e s)
    (h : Compiled o x e₀ s₀) : Compiled o x e s :=
  ⟨ok_inside hinside h.ok, fun v hv => h.plain v (hinside.literals hv),
    hinside.respected (wf_passesAll o).toPasses (fun v hv => wf_emitValue (h.plain v hv)) h.wf⟩

/-- The expression of a statement that compiles. -/
theorem ok_value {stmt : Statement} (h : statement o stmt s = (.ok (), s')) (hin : s'.Within x)
    {value : Expr} {s₀ : Session} (hvalue : stmt.value? o s = some (value, s₀)) :
    ∃ kinds s', expr o value s₀ = (.ok kinds, s') ∧ s'.Within x := by
  obtain ⟨_, s₁, hset, h⟩ := bind_eq_ok h
  have hs₁ : (setLine stmt.span.line s).2 = s₁ := by rw [hset]
  unfold Statement.value? at hvalue
  rw [hs₁] at hvalue
  cases stmt with
  | assign target value' span =>
    cases hvalue
    obtain ⟨i, s₂, hparts, hstore⟩ := bind_eq_ok h
    have hin₂ := hin.of_grows ((respects_store (grows_passesAll o) i target.span).of_ok hstore)
    unfold assignParts at hparts
    by_cases hbefore : target.isBefore value = true
    · rw [if_pos hbefore] at hparts ⊢
      obtain ⟨j, s₃, hidentify, hparts⟩ := bind_eq_ok hparts
      obtain ⟨kinds, s₄, hexpr, hpure⟩ := bind_eq_ok hparts
      cases hpure
      rw [hidentify]
      exact ⟨kinds, s₂, hexpr, hin₂⟩
    · rw [if_neg hbefore] at hparts ⊢
      obtain ⟨kinds, s₃, hexpr, hidentify⟩ := bind_eq_ok hparts
      exact ⟨kinds, s₃, hexpr,
        hin₂.of_grows (((grows_passesAll o).identify target).of_ok hidentify)⟩
  | output verb value' span =>
    cases hvalue
    obtain ⟨kinds, s₂, hexpr, h⟩ := bind_eq_ok h
    obtain ⟨_, s₃, hcall, hwrite⟩ := bind_eq_ok h
    have hin₃ := hin.of_grows (((grows_passesAll o).emit _).of_ok hwrite)
    exact ⟨kinds, s₂, hexpr, hin₃.of_grows (((grows_passesAll o).emitCall _).of_ok hcall)⟩
  | step direction target n span => cases hvalue

/-- The expression of a statement that is compiled. -/
theorem compiled_value {stmt : Statement} (h : statement o stmt s = (.ok (), s'))
    (hplain : ∀ v ∈ stmt.literals, v.IsPlain) (hwf : s.Wf) (hin : s'.Within x) {value : Expr}
    {s₀ : Session} (hvalue : stmt.value? o s = some (value, s₀)) : Compiled o x value s₀ := by
  obtain ⟨hliterals, hR⟩ := Statement.of_value? hvalue
  exact ⟨ok_value h hin hvalue, hliterals ▸ hplain, hR (wf_passesAll o) hwf⟩

/-- Every expression of a program that compiles does. -/
theorem ok_of_exprAt {program : List Statement} {e : Expr}
    (h : statements o program (.start o) = (.ok (), s')) (hin : s'.Within x)
    (hexpr : ExprAt o program e s) : ∃ kinds s', expr o e s = (.ok kinds, s') ∧ s'.Within x := by
  obtain ⟨before, stmt, after, value, s₀, rfl, hvalue, hinside⟩ := hexpr
  obtain ⟨s₁, hbefore, hrest⟩ := statements_append h
  obtain ⟨_, s₂, hstmt, hafter⟩ := bind_eq_ok hrest
  rw [hbefore] at hvalue
  exact ok_inside hinside
    (ok_value hstmt (hin.of_grows ((grows_statements o after).of_ok hafter)) hvalue)

/-- Every expression of a program that is compiled. -/
theorem compiled_of_exprAt {program : List Statement} {e : Expr}
    (h : statements o program (.start o) = (.ok (), s'))
    (hplain : ∀ stmt ∈ program, ∀ v ∈ stmt.literals, v.IsPlain) (hin : s'.Within x)
    (hexpr : ExprAt o program e s) : Compiled o x e s := by
  obtain ⟨stmt, hstmt, hliterals⟩ := hexpr.literals
  exact ⟨ok_of_exprAt h hin hexpr, fun v hv => hplain stmt hstmt v (hliterals hv), hexpr.wf hplain⟩

end CompileM

/-! ## Stretches of code -/

/-- From any stack and any fields, the code of an expression leaves one value more or stops because
of a kind. Fields and output stay as they are. -/
theorem Compiled.runs {o : Options} {x : Executable} {e : Expr} {s : Session}
    (h : Compiled o x e s) {fields : Array Value} (hsize : fields.size = x.fields.size) :
    (∃ v, ∀ stack, s.Runs x (CompileM.expr o e s).2 fields stack (.ok (v :: stack))) ∨
      ∃ f, ∀ stack, s.Runs x (CompileM.expr o e s).2 fields stack (.error f) := by
  obtain ⟨⟨kinds, s', hok, hin⟩, hplain, hwf⟩ := h
  have hroom : s.slots.size ≤ fields.size := by
    rw [hsize]
    exact (hin.of_grows ((CompileM.grows_expr o e).of_ok hok)).size_le
  -- the fields themselves say what the variables are
  let env : Env := ⟨fun name => (s.slots.find? name).bind (fields[·]?), s.last.map (·.name)⟩
  have hagrees : Agrees env s fields := ⟨rfl, fun _ => rfl⟩
  rw [hok]
  cases CompileM.simulate_expr hok hplain hwf hin hagrees hroom with
  | value heval hagrees' hkind hruns => exact .inl ⟨_, hruns⟩
  | fault heval hruns => exact .inr ⟨_, hruns⟩

/-- Where the code of some statements of a program ends, the stack is empty. -/
theorem stack_of_boundary {o : Options} {before after : List Statement} {s : Session}
    (h : CompileM.statements o (before ++ after) (.start o) = (.ok (), s))
    (hplain : ∀ stmt ∈ before ++ after, ∀ v ∈ stmt.literals, v.IsPlain) {σ : Type}
    {sink : Sink σ} {out out' : σ} {m : Machine}
    (hreach : Machine.Reaches sink s.finish (Machine.start s.finish) out m out')
    (hoffset : m.offset = (CompileM.statements o before (.start o)).2.asm.code.size) :
    m.memory.stack = [] := by
  obtain ⟨s₁, hbefore, hafter⟩ := CompileM.statements_append h
  rw [hbefore] at hoffset
  have hin : s₁.Within s.finish :=
    s.within_finish.of_grows ((CompileM.grows_statements o after).of_ok hafter)
  have hadvances : Advances sink o s.finish before .start (.start o) s₁
      (Machine.start s.finish).memory.fields 0 out :=
    CompileM.advances_statements hbefore (fun stmt hmem => hplain stmt (by simp [hmem]))
      (Session.wf_start o) hin (tracks_start o s.finish) 0 out
  cases hadvances with
  | through heval htracks hreach' =>
    -- offsets only go up, so the machine passes this one once
    rw [hreach.unique hreach' hoffset]
    rfl
  | stopped heval hfault hwf hgrows htracks hhalts =>
    -- a machine that has stopped before never gets there
    have hlt := hhalts.offset_lt hreach
    exact absurd hoffset (Nat.ne_of_lt hlt)

theorem Fault.isOfKinds_iff (f : Fault) :
    f.isOfKinds = true ↔
      (∃ m line, f = .typeMismatch m line) ∨ ∃ kind line, f = .expectedNumber kind line := by
  cases f <;> simp [isOfKinds]

theorem Fault.isOrdinary_iff (f : Fault) :
    f.isOrdinary = true ↔ f.isOfKinds = true ∨ ∃ reason, f = .output reason := by
  cases f <;> simp [isOrdinary, isOfKinds]

/-- A compiled program is safe on every sink. It stops early only because of kinds or because of
the sink, and leaves an empty stack when it ends; the code of each of its expressions leaves one
value more on any stack and changes nothing else, unless it stops because of kinds; and the stack
is empty wherever the code of a statement begins and where the program returns. -/
theorem execute_safe {o : Options} {source : String} {program : List Statement} {x : Executable}
    (hparse : parse o.vocabulary source.toList = .ok program)
    (hcompile : compile o program = .ok x) {σ : Type} (sink : Sink σ) (out : σ) :
    (∀ f, ((Machine.start x).execute sink x out).fault = some f →
      (∃ m line, f = .typeMismatch m line) ∨ (∃ kind line, f = .expectedNumber kind line) ∨
        ∃ reason, f = .output reason) ∧
    (((Machine.start x).execute sink x out).fault = none →
      ((Machine.start x).execute sink x out).machine.memory.stack = []) ∧
    (∀ e s, ExprAt o program e s →
      ∀ (fields : Array Value) (stack : List Value) (line : Nat) (out₀ : σ),
        fields.size = x.fields.size →
        (∃ v line', Machine.Reaches sink x (s.machine fields stack line) out₀
          ((CompileM.expr o e s).2.machine fields (v :: stack) line') out₀) ∨
        ∃ f m, f.isOfKinds = true ∧ m.memory.fields = fields ∧
          Machine.Halts sink x (CompileM.expr o e s).2.asm.code.size
            (s.machine fields stack line) out₀ ⟨some f, m, out₀⟩) ∧
    (∀ before after, program = before ++ after → ∀ m out',
      Machine.Reaches sink x (Machine.start x) out m out' →
      m.offset = (CompileM.statements o before (.start o)).2.asm.code.size →
      m.memory.stack = []) ∧
    ∃ line, x.code.fetch (CompileM.statements o program (.start o)).2.asm.code.size =
      .instr .ret line x.code.size := by
  obtain ⟨s, hstatements, rfl⟩ := exists_session_of_compile hcompile
  have hplain := (source_of_parse hparse).literals
  have hmatches := matches_of_statements hstatements hplain sink out
  refine ⟨fun f hf => ?_, hmatches.stack, fun e s₁ hexpr fields stack line out₀ hsize => ?_,
    ?_, s.asm.line, ?_⟩
  · rcases (Fault.isOrdinary_iff f).mp (hmatches.ordinary f hf) with hkinds | houtput
    · rcases (Fault.isOfKinds_iff f).mp hkinds with hmismatch | hnumber
      · exact .inl hmismatch
      · exact .inr (.inl hnumber)
    · exact .inr (.inr houtput)
  · have hcompiled := CompileM.compiled_of_exprAt hstatements hplain s.within_finish hexpr
    rcases hcompiled.runs hsize with ⟨v, hruns⟩ | ⟨f, hruns⟩
    · obtain ⟨line', hreach⟩ := hruns stack σ sink line out₀
      exact .inl ⟨v, line', hreach⟩
    · obtain ⟨hkinds, hhalts⟩ := hruns stack
      obtain ⟨m, hfields, hhalts⟩ := hhalts σ sink line out₀
      exact .inr ⟨f, m, hkinds, hfields, hhalts⟩
  · rintro before after rfl m out' hreach hoffset
    exact stack_of_boundary hstatements hplain hreach hoffset
  · rw [hstatements]
    exact Assembler.fetch_of_grows_emit (.refl _)

/-- A sink that is full from the start: the program can stop because of it or because of kinds, and
the stack is empty whenever the second line begins. -/
theorem execute_safe_sky :
    ∃ x, parse (Options.vocabulary {}) skySource.toList = .ok skyProgram ∧
      compile {} skyProgram = .ok x ∧
      (∀ f, ((Machine.start x).execute (.limited (some (0, "full")) none) x ⟨"", 0⟩).fault =
          some f →
        (∃ m line, f = .typeMismatch m line) ∨ (∃ kind line, f = .expectedNumber kind line) ∨
          ∃ reason, f = .output reason) ∧
      ∀ m out', Machine.Reaches (.limited (some (0, "full")) none) x (Machine.start x) ⟨"", 0⟩
          m out' →
        m.offset = (CompileM.statements {} (skyProgram.take 1) (.start {})).2.asm.code.size →
        m.memory.stack = [] := by
  obtain ⟨x, hx⟩ := exists_compile_skyProgram
  obtain ⟨hfault, -, -, hboundary, -⟩ :=
    execute_safe parse_skySource hx (.limited (some (0, "full")) none) ⟨"", 0⟩
  exact ⟨x, parse_skySource, hx, hfault,
    hboundary (skyProgram.take 1) (skyProgram.drop 1) (List.take_append_drop 1 skyProgram).symm⟩

end Rockstar
