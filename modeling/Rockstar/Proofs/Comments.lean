import Rockstar.Proofs.Lockstep
import Rockstar.Proofs.Safety

/-!
# What comments mean

A program compiles to the same without its comments if none of them stands inside a reference and
none makes a difference to a poetic number (`Undisturbed`). Where there is something to compile the
condition is exact (`compileSource_withoutComments`): a reference with a comment inside is never
understood, and a poetic number that differs can be told from the executable. A source that is
refused for another reason is refused for the same reason without its comments, as long as every
poetic number is still one (`Legible`).
-/

namespace Rockstar

namespace CompileM

variable {o : Options} {s s' s₁ s₂ : Session} {x : Executable}

/-! ## Programs that no comment disturbs -/

/-- What is compiled of an expression depends on no comment. -/
theorem expr_reread (o : Options) {e e' : Expr} (h : e.Reread e') (hclear : e.Undisturbed) :
    expr o e' = expr o e := by
  induction h with
  | literal v span => rfl
  | poetic y span hy =>
    obtain rfl := Option.some.inj (hclear.symm.trans hy)
    rfl
  | «variable» hv => rw [hv.eq hclear]
  | binary op hl hr ihl ihr =>
    rw [expr, expr, ihl hclear.1, ihr hclear.2, hl.span_eq, hr.span_eq]
  | negation word _ ih => rw [expr, expr, ih hclear]

theorem statement_reread (o : Options) {stmt stmt' : Statement} (h : stmt.Reread stmt')
    (hclear : stmt.Undisturbed) : statement o stmt' = statement o stmt := by
  cases h with
  | @assign target target' value value' span htarget hvalue =>
    obtain rfl := htarget.eq hclear.1
    unfold statement assignParts
    dsimp only
    rw [hvalue.isBefore_eq, expr_reread o hvalue hclear.2]
    rfl
  | output verb span hvalue =>
    unfold statement
    dsimp only
    rw [expr_reread o hvalue hclear]
    rfl
  | step direction n span htarget =>
    rw [htarget.eq hclear]

theorem statements_reread (o : Options) {p p' : List Statement}
    (h : List.Forall₂ Statement.Reread p p') (hclear : ∀ stmt ∈ p, stmt.Undisturbed) :
    statements o p' = statements o p := by
  induction h with
  | nil => rfl
  | cons hstmt _ ih =>
    rw [statements, statements, statement_reread o hstmt (hclear _ (by simp)),
      ih fun stmt hmem => hclear stmt (by simp [hmem])]

/-! ## Poetic numbers are found in the executable -/

/-- Of two values that are loaded at the same place of one executable, both are the same. -/
theorem value_unique {v v' : Value} (h : emitValue v s = (.ok (), s₁))
    (h' : emitValue v' s = (.ok (), s₂)) (hwf : s.Wf) (hv : v.IsPlain) (hv' : v'.IsPlain)
    (hin : s₁.Within x) (hin' : s₂.Within x) : v = v' := by
  obtain ⟨i, hemits, hperform⟩ := emitValue_ok h hwf hv
  obtain ⟨j, hemits', hperform'⟩ := emitValue_ok h' hwf hv'
  have hfetch := Assembler.fetch_of_grows_emit (hemits ▸ hin.code)
  have hfetch' := Assembler.fetch_of_grows_emit (hemits' ▸ hin'.code)
  -- both instructions stand at the same offset, so they are one
  obtain rfl : i = j := by
    rw [hfetch] at hfetch'
    injection hfetch'
  have hpush := (hperform x hin ⟨#[], []⟩ ⟨0, 0, 0⟩).symm.trans
    (hperform' x hin' ⟨#[], []⟩ ⟨0, 0, 0⟩)
  simpa [Memory.push] using hpush

end CompileM

/-- An expression whose two readings are compiled into one executable. -/
theorem Compiled.undisturbed {o : Options} {x : Executable} {e e' : Expr} {s : Session}
    (hv : o.vocabulary.Plain) (hre : e.Reread e') (h : Compiled o x e s)
    (h' : Compiled o x e' s) : e.Undisturbed := by
  induction hre generalizing s with
  | literal v span => trivial
  | poetic y span hy =>
    obtain ⟨⟨kinds, s₁, hok, hin⟩, hplain, hwf⟩ := h
    obtain ⟨⟨kinds', s₁', hok', hin'⟩, hplain', -⟩ := h'
    obtain ⟨_, s₂, hvalue, hpure⟩ := CompileM.bind_eq_ok hok
    obtain ⟨_, s₂', hvalue', hpure'⟩ := CompileM.bind_eq_ok hok'
    cases hpure
    cases hpure'
    have heq := CompileM.value_unique hvalue hvalue' hwf (hplain _ (by simp [Expr.literals]))
      (hplain' _ (by simp [Expr.literals])) hin hin'
    obtain rfl := Value.number.inj heq
    exact hy
  | «variable» href =>
    obtain ⟨⟨kinds, s₁, hok, -⟩, -, -⟩ := h
    obtain ⟨i, s₂, hidentify, -⟩ := CompileM.bind_eq_ok hok
    exact CompileM.undisturbed_of_identify hv hidentify
  | @binary op l l' r r' hl hr ihl ihr =>
    have hleft := ihl (CompileM.compiled_inside (.left (.self l s)) h)
      (CompileM.compiled_inside (.left (.self l' s)) h')
    have hright := CompileM.compiled_inside (.right (.self r _)) h
    have hright' := CompileM.compiled_inside (.right (.self r' _)) h'
    -- the left operands leave the same session behind
    rw [CompileM.expr_reread o hl hleft] at hright'
    exact ⟨hleft, ihr hright hright'⟩
  | @negation word e e' _ ih =>
    exact ih (CompileM.compiled_inside (.operand (.self e s)) h)
      (CompileM.compiled_inside (.operand (.self e' s)) h')

namespace CompileM

variable {o : Options} {s s₁ s₂ : Session} {x : Executable}

theorem undisturbed_of_assignParts (hv : o.vocabulary.Plain) {target : Variable} {value : Expr}
    {i : Identity} (h : assignParts o target value s = (.ok i, s₁)) : target.Undisturbed := by
  unfold assignParts at h
  split at h
  · obtain ⟨j, s₃, hidentify, -⟩ := bind_eq_ok h
    exact undisturbed_of_identify hv hidentify
  · obtain ⟨kinds, s₃, -, hidentify⟩ := bind_eq_ok h
    exact undisturbed_of_identify hv hidentify

/-- A statement whose two readings are compiled into one executable. -/
theorem undisturbed_of_statement (hv : o.vocabulary.Plain) {stmt stmt' : Statement}
    (hre : stmt.Reread stmt') (h : statement o stmt s = (.ok (), s₁))
    (h' : statement o stmt' s = (.ok (), s₂)) (hplain : ∀ v ∈ stmt.literals, v.IsPlain)
    (hplain' : ∀ v ∈ stmt'.literals, v.IsPlain) (hwf : s.Wf) (hin : s₁.Within x)
    (hin' : s₂.Within x) : stmt.Undisturbed := by
  cases hre with
  | @assign target target' value value' span htarget hvalue =>
    -- the target is the same in both, so what is compiled before the value is the same
    have hclear : target.Undisturbed := by
      obtain ⟨_, s₃, -, hrest⟩ := bind_eq_ok h
      obtain ⟨i, s₄, hparts, -⟩ := bind_eq_ok hrest
      exact undisturbed_of_assignParts hv hparts
    obtain rfl := htarget.eq hclear
    refine ⟨hclear, ?_⟩
    have hcompiled := compiled_value h hplain hwf hin rfl
    have hcompiled' := compiled_value h' hplain' hwf hin' rfl
    rw [hvalue.isBefore_eq] at hcompiled'
    exact hcompiled.undisturbed hv hvalue hcompiled'
  | output verb span hvalue =>
    have hcompiled := compiled_value h hplain hwf hin rfl
    exact hcompiled.undisturbed hv hvalue (compiled_value h' hplain' hwf hin' rfl)
  | step direction n span htarget =>
    obtain ⟨_, s₃, -, h⟩ := bind_eq_ok h
    obtain ⟨i, s₄, hidentify, -⟩ := bind_eq_ok h
    exact undisturbed_of_identify hv hidentify

/-- Statements whose two readings are compiled into one executable. -/
theorem undisturbed_of_statements (hv : o.vocabulary.Plain) {p p' : List Statement}
    (hre : List.Forall₂ Statement.Reread p p') (h : statements o p s = (.ok (), s₁))
    (h' : statements o p' s = (.ok (), s₂))
    (hplain : ∀ stmt ∈ p, ∀ v ∈ stmt.literals, v.IsPlain)
    (hplain' : ∀ stmt ∈ p', ∀ v ∈ stmt.literals, v.IsPlain) (hwf : s.Wf) (hin : s₁.Within x)
    (hin' : s₂.Within x) : ∀ stmt ∈ p, stmt.Undisturbed := by
  induction hre generalizing s with
  | nil => simp
  | @cons stmt stmt' p p' hstmt _ ih =>
    obtain ⟨_, s₃, hfirst, hrest⟩ := bind_eq_ok h
    obtain ⟨_, s₃', hfirst', hrest'⟩ := bind_eq_ok h'
    have hclear := undisturbed_of_statement hv hstmt hfirst hfirst' (hplain stmt (by simp))
      (hplain' stmt' (by simp)) hwf (hin.of_grows ((grows_statements o p).of_ok hrest))
      (hin'.of_grows ((grows_statements o p').of_ok hrest'))
    -- so both leave the same session behind
    rw [statement_reread o hstmt hclear, hfirst] at hfirst'
    cases hfirst'
    have hwf₃ := (wf_statement o (hplain stmt (by simp))).of_ok hfirst hwf
    have htail := ih hrest hrest' (fun u hu => hplain u (by simp [hu]))
      (fun u hu => hplain' u (by simp [hu])) hwf₃
    intro u hu
    rcases List.mem_cons.mp hu with rfl | hmem
    · exact hclear
    · exact htail u hmem

end CompileM

theorem compile_reread (o : Options) {p p' : List Statement}
    (h : List.Forall₂ Statement.Reread p p') (hclear : ∀ stmt ∈ p, stmt.Undisturbed) :
    compile o p' = compile o p := by
  unfold compile
  rw [CompileM.statements_reread o h hclear]

theorem undisturbed_of_compile {o : Options} (hv : o.vocabulary.Plain) {p p' : List Statement}
    {x : Executable} (hre : List.Forall₂ Statement.Reread p p') (h : compile o p = .ok x)
    (h' : compile o p' = .ok x) (hplain : ∀ stmt ∈ p, ∀ v ∈ stmt.literals, v.IsPlain)
    (hplain' : ∀ stmt ∈ p', ∀ v ∈ stmt.literals, v.IsPlain) :
    ∀ stmt ∈ p, stmt.Undisturbed := by
  obtain ⟨s, hstatements, rfl⟩ := exists_session_of_compile h
  obtain ⟨s', hstatements', hfinish⟩ := exists_session_of_compile h'
  exact CompileM.undisturbed_of_statements hv hre hstatements hstatements' hplain hplain'
    (Session.wf_start o) s.within_finish (hfinish ▸ s'.within_finish)

/-! ## Sources -/

/-- Two outcomes of a compilation that are the same: the same executable, the same error of
compilation, or errors of reading of the same kinds at the same places. -/
def SameOutcome : Except Error Executable → Except Error Executable → Prop
  | .ok x, .ok x' => x' = x
  | .error (.parse es), .error (.parse es') => List.Forall₂ ParseError.Same es es'
  | .error (.compile e), .error (.compile e') => e' = e
  | _, _ => False

theorem SameOutcome.eq_refused {a b : Except Error Executable} (h : SameOutcome a b)
    {e : CompileError} (ha : a = .error (.compile e)) : b = .error (.compile e) := by
  subst ha
  cases b with
  | ok y => exact h.elim
  | error e' =>
    cases e' with
    | parse es => exact h.elim
    | compile e' => rw [show e' = e from h]
    | fault f => exact h.elim

theorem SameOutcome.toOption_eq {a b : Except Error Executable} (h : SameOutcome a b) :
    a.toOption = b.toOption := by
  cases a with
  | error e =>
    cases b with
    | error e' => rfl
    | ok y => cases e <;> exact h.elim
  | ok x =>
    cases b with
    | error e => exact h.elim
    | ok y => exact congrArg some (Eq.symm h)

theorem legible_of_reread {p p' : List Statement} (h : List.Forall₂ Statement.Reread p p') :
    ∀ stmt ∈ p, stmt.Legible := by
  induction h with
  | nil => simp
  | cons hstmt _ ih =>
    intro stmt hmem
    rcases List.mem_cons.mp hmem with rfl | hrest
    · exact hstmt.legible
    · exact ih stmt hrest

section Source

variable {o : Options} {source : String}

theorem sameOutcome_of_undisturbed (h : Undisturbed o.vocabulary source) :
    SameOutcome (compileSource o source)
      (compileSource o (withoutComments o.vocabulary source)) := by
  have hlegible : Legible o.vocabulary source := fun stmt hmem => (h stmt hmem).legible
  rcases parse_withoutComments hlegible with ⟨es, es', hes, hes', hsame⟩ | ⟨p, p', hp, hp', hre⟩
  · unfold compileSource
    rw [hes, hes']
    exact hsame
  · have hclear : ∀ stmt ∈ p, stmt.Undisturbed := eq_statementsOf hp ▸ h
    rw [compileSource_of_parse hp, compileSource_of_parse hp', compile_reread o hre hclear]
    cases compile o p with
    | ok x => exact rfl
    | error e => exact rfl

/-- A source that cannot be read has the same errors without its comments if no poetic number on
another line is lost. -/
theorem sameOutcome_iff_legible {es : List ParseError}
    (h : parse o.vocabulary source.toList = .error es) :
    SameOutcome (compileSource o source)
        (compileSource o (withoutComments o.vocabulary source)) ↔
      Legible o.vocabulary source := by
  constructor
  · intro hsame
    cases hwithout : parse o.vocabulary (withoutComments o.vocabulary source).toList with
    | error es' =>
      unfold compileSource at hsame
      rw [h, hwithout] at hsame
      exact legible_of_parse h hwithout (List.Forall₂.length_eq hsame)
    | ok p' =>
      -- overwriting comments never makes a line readable
      obtain ⟨p, hp, -⟩ := parse_of_withoutComments hwithout
      rw [h] at hp
      cases hp
  · intro hlegible
    rcases parse_withoutComments hlegible with ⟨es₁, es', hes, hes', hsame⟩ | ⟨p, p', hp, -⟩
    · rw [h] at hes
      obtain rfl := Except.error.inj hes
      unfold compileSource
      rw [h, hes']
      exact hsame
    · rw [h] at hp
      cases hp

/-- A source that compiles to the same without its comments has none that makes a difference. -/
theorem undisturbed_of_compileSource (hv : o.vocabulary.Plain) {x : Executable}
    (h : compileSource o source = .ok x)
    (h' : compileSource o (withoutComments o.vocabulary source) = .ok x) :
    Undisturbed o.vocabulary source := by
  obtain ⟨p, hp, hcompile⟩ := exists_of_compileSource (r := .ok x) h
  obtain ⟨p', hp', hcompile'⟩ := exists_of_compileSource (r := .ok x) h'
  obtain ⟨q, hq, hre⟩ := parse_of_withoutComments hp'
  obtain rfl : p = q := by
    rw [hp] at hq
    exact Except.ok.inj hq
  have hclear := undisturbed_of_compile hv hre hcompile hcompile'
    (source_of_parse hp).literals (source_of_parse hp').literals
  rw [eq_statementsOf hp] at hclear
  exact hclear

/-- A source that is refused for no comment and no lack of room is refused for the same reason
without its comments if no poetic number is lost. -/
theorem sameOutcome_iff_legible_of_refused (hv : o.vocabulary.Plain) {e : CompileError}
    (h : compileSource o source = .error (.compile e)) (hclear : e.Undisturbed)
    (hroom : ¬e.IsFull)
    (hroom' : ∀ e', compileSource o (withoutComments o.vocabulary source) = .error (.compile e') →
      ¬e'.IsFull) :
    SameOutcome (compileSource o source)
        (compileSource o (withoutComments o.vocabulary source)) ↔
      Legible o.vocabulary source := by
  obtain ⟨p, hp, hcompile⟩ := exists_of_compileSource (r := .error e) h
  constructor
  · intro hsame
    -- the other source is refused, too, so it could be read
    obtain ⟨p', hp', -⟩ := exists_of_compileSource (r := .error e) (hsame.eq_refused h)
    obtain ⟨q, hq, hre⟩ := parse_of_withoutComments hp'
    have hlegible := legible_of_reread hre
    rw [eq_statementsOf hq] at hlegible
    exact hlegible
  · intro hlegible
    rcases parse_withoutComments hlegible with ⟨es, -, hes, -⟩ | ⟨q, p', hq, hp', hre⟩
    · rw [hp] at hes
      cases hes
    · obtain rfl : p = q := by
        rw [hp] at hq
        exact Except.ok.inj hq
      rw [compileSource_of_parse hp'] at hroom'
      have hcompile' := compile_error_reread hv hre hcompile hclear hroom fun e' he' =>
        hroom' e' (by rw [he']; rfl)
      rw [h, compileSource_of_parse hp', hcompile']
      exact rfl

end Source

/-- When comments mean nothing. Compiling a source without its comments gives the same as compiling
the source if no comment makes a difference on the lines that can be read. As soon as one of the
two compiles, this is the only way to get the same. Where the source cannot be read, or is refused
for another reason than a comment inside a reference, the errors are the same if and only if no
poetic number is lost. -/
theorem compileSource_withoutComments (o : Options) (source : String) :
    let outcome := compileSource o source
    let outcome' := compileSource o (withoutComments o.vocabulary source)
    (Undisturbed o.vocabulary source → SameOutcome outcome outcome') ∧
      (o.vocabulary.Plain → (∃ x, outcome = .ok x ∨ outcome' = .ok x) →
        (SameOutcome outcome outcome' ↔ Undisturbed o.vocabulary source)) ∧
      ((∃ es, outcome = .error (.parse es)) →
        (SameOutcome outcome outcome' ↔ Legible o.vocabulary source)) ∧
      (o.vocabulary.Plain → ∀ e, outcome = .error (.compile e) → e.Undisturbed → ¬e.IsFull →
        (∀ e', outcome' = .error (.compile e') → ¬e'.IsFull) →
        (SameOutcome outcome outcome' ↔ Legible o.vocabulary source)) := by
  refine ⟨sameOutcome_of_undisturbed, ?_, ?_, ?_⟩
  · intro hv hx
    refine ⟨fun hsame => ?_, sameOutcome_of_undisturbed⟩
    obtain ⟨x, h | h⟩ := hx
    · refine undisturbed_of_compileSource hv h (eq_ok_of_toOption ?_)
      rw [← hsame.toOption_eq, h]
      rfl
    · refine undisturbed_of_compileSource hv (eq_ok_of_toOption ?_) h
      rw [hsame.toOption_eq, h]
      rfl
  · rintro ⟨es, hes⟩
    cases hparse : parse o.vocabulary source.toList with
    | error es => exact sameOutcome_iff_legible hparse
    | ok p =>
      -- the errors of a program that could be read are those of compilation
      rw [compileSource_of_parse hparse] at hes
      generalize compile o p = result at hes
      cases result <;> cases hes
  · intro hv e he hclear hroom hroom'
    exact sameOutcome_iff_legible_of_refused hv he hclear hroom hroom'

/-- A source with comments in many places, none of which makes a difference. -/
def skyCommented : String :=
  "(first) The sky is (about) 5 (!)\nSay it (once) plus 1\nThe sun says (hi)\nX is a (b) cd"

/-- Comments without effect; one inside a name, where the text without it compiles; one on a line
behind another that cannot be read; and one behind a pronoun that stands for nothing. -/
theorem compileSource_withoutComments_sky :
    let compiled := compileSource {}
    let without := withoutComments (Options.vocabulary {})
    without skyCommented =
        "        The sky is         5    \nSay it        plus 1\nThe sun says (hi)\nX is a     cd" ∧
      SameOutcome (compiled skyCommented) (compiled (without skyCommented)) ∧
      ¬SameOutcome (compiled "Doctor (the) Feelgood is 5")
        (compiled (without "Doctor (the) Feelgood is 5")) ∧
      SameOutcome (compiled "Say (so)\nMy (dear) heart is 5")
        (compiled (without "Say (so)\nMy (dear) heart is 5")) ∧
      SameOutcome (compiled "Say it\nMy (dear) heart is 5")
        (compiled (without "Say it\nMy (dear) heart is 5")) := by
  refine ⟨by decide +kernel, ?_, ?_, ?_, ?_⟩
  · exact (compileSource_withoutComments {} skyCommented).1 (by decide +kernel)
  · have hsome : (compileSource {} (withoutComments (Options.vocabulary {})
        "Doctor (the) Feelgood is 5")).toOption.isSome = true := by decide +kernel
    obtain ⟨x, hx⟩ := Option.isSome_iff_exists.mp hsome
    have hexact := (compileSource_withoutComments {} "Doctor (the) Feelgood is 5").2.1
      (by decide +kernel) ⟨x, .inr (eq_ok_of_toOption hx)⟩
    intro hsame
    exact absurd (hexact.mp hsame) (by decide +kernel)
  · have hread : compileSource {} "Say (so)\nMy (dear) heart is 5" =
        .error (.parse [⟨.lineEnded "an expression", ⟨1, 9, 1⟩⟩]) :=
      eq_error_of_map (by decide +kernel)
    exact ((compileSource_withoutComments {} _).2.2.1 ⟨_, hread⟩).mpr (by decide +kernel)
  · have hrefused : compileSource {} "Say it\nMy (dear) heart is 5" =
        .error (.compile (.unresolvedPronoun "it" ⟨1, 5, 2⟩)) :=
      eq_error_of_map (by decide +kernel)
    have hrefused' : compileSource {} (withoutComments (Options.vocabulary {})
          "Say it\nMy (dear) heart is 5") =
        .error (.compile (.unresolvedPronoun "it" ⟨1, 5, 2⟩)) :=
      eq_error_of_map (by decide +kernel)
    refine ((compileSource_withoutComments {} _).2.2.2 (by decide +kernel) _ hrefused trivial id
      ?_).mpr (by decide +kernel)
    intro e he
    rw [hrefused'] at he
    cases he
    exact id

/-- Two comments that make a difference: one between the words of a name, and one behind a
parenthesis in a string. -/
theorem comments_disturb :
    ¬SameOutcome (compileSource {} "My (dear) heart is 5")
        (compileSource {} (withoutComments (Options.vocabulary {}) "My (dear) heart is 5")) ∧
      ¬SameOutcome (compileSource {} "X is a \"(\" b (c) d")
        (compileSource {} (withoutComments (Options.vocabulary {}) "X is a \"(\" b (c) d")) := by
  constructor
  · intro hsame
    exact absurd (congrArg Option.isSome hsame.toOption_eq) (by decide +kernel)
  · intro hsame
    exact absurd (congrArg (·.bind (·.pool.get? 0)) hsame.toOption_eq) (by decide +kernel)

end Rockstar
