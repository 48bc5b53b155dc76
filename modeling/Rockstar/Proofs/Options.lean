import Mathlib.Data.List.Basic
import Rockstar.Proofs.Correctness
import Rockstar.Proofs.Refusal

/-!
# The same program under other options

Options reach compilation at two places only: a reference is looked up in the vocabulary, and the
policy decides about a variable that was never assigned. Where two options do not differ there, they
do not differ at all. `SameBut E f f'` says that `f'` does from every session on what `f` does, but
where `f` fails with an error among `E`. It passes through steps in a row, and so from these two
steps to programs (`CompileM.sameBut_statements`).

The first use is the policy itself: reading unassigned variables as mysterious changes nothing but
the programs that are refused for one (`compile_mysterious`).
-/

namespace Rockstar

namespace CompileM

variable {α β : Type} {E : CompileError → Prop} {o o' : Options}

/-- The second computation does what the first one does, unless the first one fails with one of the
given errors. -/
def SameBut (E : CompileError → Prop) (f f' : CompileM α) : Prop :=
  ∀ s, f' s = f s ∨ ∃ e s', f s = (.error e, s') ∧ E e

theorem SameBut.refl (f : CompileM α) : SameBut E f f := fun _ => .inl rfl

theorem SameBut.bind {f f' : CompileM α} {g g' : α → CompileM β} (hf : SameBut E f f')
    (hg : ∀ a, SameBut E (g a) (g' a)) : SameBut E (f >>= g) (f' >>= g') := by
  intro s
  rw [bind_apply, bind_apply]
  rcases hf s with hsame | ⟨e, s', herror, he⟩
  · rw [hsame]
    rcases f s with ⟨result, s'⟩
    cases result with
    | ok a => exact hg a s'
    | error e => exact .inl rfl
  · rw [herror]
    exact .inr ⟨e, s', rfl, he⟩

/-- Without exceptions the computations are the same. -/
theorem SameBut.eq {f f' : CompileM α} (h : SameBut (fun _ => False) f f') : f' = f := by
  funext s
  rcases h s with hsame | ⟨_, _, _, hfalse⟩
  · exact hsame
  · exact hfalse.elim

/-- The two options agree on variables that were never assigned, up to the given errors. -/
def SameReads (E : CompileError → Prop) (o o' : Options) : Prop :=
  ∀ i span, SameBut E (slotToRead o i span) (slotToRead o' i span)

/-- What begins by looking up the slot of a variable. -/
theorem sameBut_readThen (hread : SameReads E o o') {ref : Variable}
    (href : SameBut E (identify o ref) (identify o' ref)) (g : Identity → Option Nat → CompileM β) :
    SameBut E (do let i ← identify o ref; let slot? ← slotToRead o i ref.span; g i slot?)
      (do let i ← identify o' ref; let slot? ← slotToRead o' i ref.span; g i slot?) :=
  href.bind fun i => (hread i ref.span).bind fun slot? => .refl (g i slot?)

theorem sameBut_expr (hread : SameReads E o o') (e : Expr)
    (hrefs : ∀ ref ∈ e.refs, SameBut E (identify o ref) (identify o' ref)) :
    SameBut E (expr o e) (expr o' e) := by
  induction e with
  | literal v span => exact .refl _
  | poetic x text span => exact .refl _
  | «variable» ref => exact sameBut_readThen hread (hrefs ref (by simp [Expr.refs])) _
  | binary op l r ihl ihr =>
    refine (ihl fun ref h => hrefs ref (List.mem_append_left _ h)).bind fun left => ?_
    exact (ihr fun ref h => hrefs ref (List.mem_append_right _ h)).bind fun right => .refl _
  | negation word e ih => exact (ih hrefs).bind fun _ => .refl _

theorem sameBut_statement (hread : SameReads E o o') (stmt : Statement)
    (hrefs : ∀ ref ∈ stmt.refs, SameBut E (identify o ref) (identify o' ref)) :
    SameBut E (statement o stmt) (statement o' stmt) := by
  refine (SameBut.refl (setLine stmt.span.line)).bind fun _ => ?_
  cases stmt with
  | assign target value span =>
    have htarget := hrefs target (Statement.mem_refs_assign.mpr (.inl rfl))
    have hvalue := sameBut_expr hread value fun ref h =>
      hrefs ref (Statement.mem_refs_assign.mpr (.inr h))
    refine SameBut.bind ?_ fun i => .refl (store i target.span)
    unfold assignParts
    split
    · exact htarget.bind fun i => hvalue.bind fun _ => .refl _
    · exact hvalue.bind fun _ => htarget
  | output verb value span =>
    exact (sameBut_expr hread value hrefs).bind fun _ => .refl _
  | step direction target count span =>
    exact sameBut_readThen hread (hrefs target (by simp [Statement.refs])) _

/-- What two options agree on step by step they agree on for programs. -/
theorem sameBut_statements (hread : SameReads E o o') (program : List Statement)
    (hrefs : ∀ stmt ∈ program, ∀ ref ∈ stmt.refs, SameBut E (identify o ref) (identify o' ref)) :
    SameBut E (statements o program) (statements o' program) := by
  induction program with
  | nil => exact .refl _
  | cons stmt rest ih =>
    exact (sameBut_statement hread stmt (hrefs stmt (by simp))).bind fun _ =>
      ih fun stmt' h => hrefs stmt' (by simp [h])

end CompileM

/-! ## The policy for unassigned variables -/

/-- A variable is read that was never assigned. -/
def CompileError.IsUnbound : CompileError → Prop
  | .unboundVariable _ _ => True
  | _ => False

theorem CompileM.sameReads_mysterious (o : Options) :
    SameReads CompileError.IsUnbound { o with unbound := .refuse }
      { o with unbound := .mysterious } := by
  intro i span s
  unfold slotToRead
  cases s.slots.find? i.name with
  | some slot => exact .inl rfl
  | none => exact .inr ⟨_, _, rfl, trivial⟩

/-- The policy for unassigned variables matters only to programs that read one. A program that
compiles when they are refused compiles to the same executable when they are mysterious; and if it
is refused for anything else, then for the same reason under both policies. -/
theorem compile_mysterious (o : Options) (program : List Statement) :
    (∀ x, compile { o with unbound := .refuse } program = .ok x →
      compile { o with unbound := .mysterious } program = .ok x) ∧
    ∀ e, compile { o with unbound := .refuse } program = .error e →
      (∀ name span, e ≠ .unboundVariable name span) →
      compile { o with unbound := .mysterious } program = .error e := by
  -- the sessions begin alike, for they know of the unit's name only
  have hstart : Session.start { o with unbound := .mysterious } =
      Session.start { o with unbound := .refuse } := rfl
  have hsame := CompileM.sameBut_statements (CompileM.sameReads_mysterious o) program
    (fun _ _ ref _ => .refl (CompileM.identify { o with unbound := .refuse } ref))
    (.start { o with unbound := .refuse })
  refine ⟨fun x hx => ?_, fun e he hother => ?_⟩
  · obtain ⟨s, hstatements, rfl⟩ := exists_session_of_compile hx
    rcases hsame with hsame | ⟨e, s', herror, -⟩
    · unfold compile
      rw [hstart, hsame, hstatements]
    · rw [hstatements] at herror
      cases herror
  · obtain ⟨s, hstatements⟩ := exists_session_of_error he
    rcases hsame with hsame | ⟨e', s', herror, hunbound⟩
    · unfold compile
      rw [hstart, hsame, hstatements]
    · rw [hstatements] at herror
      cases herror
      cases e with
      | unboundVariable name span => exact absurd rfl (hother name span)
      | _ => exact hunbound.elim

/-- A step of a variable that has a value, and then a difference whose right operand is never a
number. -/
def brokenProgram : List Statement :=
  skyProgram.take 1 ++
    [.step .up ⟨"it", ⟨2, 7, 2⟩⟩ 1 ⟨2, 1, 11⟩,
      .output .say (.binary (.arith .subtract) (.variable ⟨"it", ⟨3, 5, 2⟩⟩)
        (.literal .null ⟨3, 14, 4⟩)) ⟨3, 1, 17⟩]

/-- Both parts at work: a program that compiles, and one that is refused for its operands. -/
theorem compile_mysterious_sky :
    (∃ x, compile { unbound := .refuse } skyProgram = .ok x ∧
      compile { unbound := .mysterious } skyProgram = .ok x) ∧
    compile { unbound := .refuse } brokenProgram = .error
      (.typeMismatch (.arith .subtract) .any (.only .null) ⟨3, 5, 13⟩) ∧
    compile { unbound := .mysterious } brokenProgram = .error
      (.typeMismatch (.arith .subtract) .any (.only .null) ⟨3, 5, 13⟩) := by
  obtain ⟨x, hx⟩ := exists_compile_skyProgram
  have hbroken : compile { unbound := .refuse } brokenProgram = .error
      (.typeMismatch (.arith .subtract) .any (.only .null) ⟨3, 5, 13⟩) :=
    eq_error_of_map (by decide +kernel)
  refine ⟨⟨x, hx, (compile_mysterious {} skyProgram).1 x hx⟩, hbroken, ?_⟩
  exact (compile_mysterious {} brokenProgram).2 _ hbroken fun _ _ h => by cases h

end Rockstar
