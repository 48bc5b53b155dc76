import Mathlib.Data.List.Basic
import Rockstar.Proofs.Refusal
import Rockstar.Proofs.Safety

/-!
# Static kinds refuse exactly what cannot work

The compiler refuses an operator when no values of the kinds of its operands go together. This is
exact in both directions. `Plan.binary?_eq_none_iff` says that a plan is missing only where every
pair of values is a mismatch, so what is accepted can work for some values. And since the kinds of
an expression cover its value, whatever it is, a program that is refused for its kinds stops with a
fault at the refused statement or before it when it is evaluated (`mismatch_exact`).
-/

namespace Rockstar

/-! ## Operators and kinds -/

/-- An operator on two values, by the operations on values alone. -/
def BinaryOp.apply (op : BinaryOp) (a b : Value) : Except Mismatch Value :=
  match op with
  | .arith op => a.arithmetic op b
  | .equality positive => .ok (.boolean (a.equals b == positive))
  | .compare op => (a.compare op b).map .boolean
  | .logic op => .ok (.boolean (op.apply a.truthy b.truthy))

/-- Whether the operator works on values of two kinds. -/
def BinaryOp.accepts (op : BinaryOp) (j k : Kind) : Bool :=
  match op with
  | .arith .add => (j = .number && k = .number) || j = .text || k = .text
  | .arith _ => j = .number && k = .number
  | .compare _ => (j = .number && k = .number) || (j = .text && k = .text)
  | .equality _ => true
  | .logic _ => true

/-- Only the kinds of two values decide whether an operator works on them. -/
theorem BinaryOp.apply_eq_ok_iff (op : BinaryOp) (a b : Value) :
    (∃ v, op.apply a b = .ok v) ↔ op.accepts a.kind b.kind = true := by
  cases op with
  | logic connective => simp [apply, accepts]
  | equality positive => simp [apply, accepts]
  | compare comparison =>
    cases a <;> cases b <;> simp [apply, accepts, Value.compare, Value.kind, Except.map]
  | arith operation =>
    cases operation <;> cases a <;> cases b <;>
      simp [apply, accepts, Value.arithmetic, Value.kind]

theorem BinaryOp.apply_eq_error_iff (op : BinaryOp) (a b : Value) :
    (∃ m, op.apply a b = .error m) ↔ op.accepts a.kind b.kind = false := by
  rw [← Bool.not_eq_true, ← apply_eq_ok_iff]
  cases op.apply a b <;> simp

/-- Evaluation combines values as the operations on values do; it differs only in the fault that it
reports. -/
theorem BinaryOp.combine_eq_ok_iff (op : BinaryOp) (line : Nat) (a b v : Value) :
    op.combine line a b = .ok v ↔ op.apply a b = .ok v := by
  cases op with
  | logic connective => simp [combine, apply]
  | equality positive => simp [combine, apply]
  | compare comparison =>
    cases h : a.compare comparison b <;> simp [combine, apply, h, Except.map]
  | arith operation =>
    cases operation with
    | add => cases h : a.arithmetic .add b <;> simp [combine, apply, h]
    | _ =>
      cases a <;> cases b <;>
        simp [combine, apply, Arithmetic.ofNumbers, Value.number?, Value.arithmetic]

/-- A fault of an operator is about kinds. -/
theorem BinaryOp.isOfKinds_of_combine {op : BinaryOp} {line : Nat} {a b : Value} {f : Fault}
    (h : op.combine line a b = .error f) : f.isOfKinds = true := by
  cases op with
  | logic connective => cases h
  | equality positive => cases h
  | compare comparison =>
    unfold combine at h
    dsimp only at h
    split at h <;> cases h
    rfl
  | arith operation =>
    cases operation with
    | add =>
      unfold combine at h
      dsimp only at h
      split at h <;> cases h
      rfl
    | _ =>
      unfold combine Arithmetic.ofNumbers at h
      dsimp only at h
      split at h <;> cases h <;> rfl

/-- A value of the kind. -/
def Kind.sample : Kind → Value
  | .number => .number 0
  | .text => .text ""
  | .boolean => .boolean true
  | .mysterious => .mysterious
  | .null => .null

@[simp] theorem Kind.kind_sample (k : Kind) : k.sample.kind = k := by
  cases k <;> rfl

/-- Some kind is possible. -/
def KindSet.Nonempty (s : KindSet) : Prop := ∃ k, s.has k = true

namespace Plan

variable {left right : KindSet}

/-- An addition has no plan without a text on either side and numbers on both. -/
theorem addition?_eq_none_iff :
    addition? left right = none ↔
      left.text = false ∧ right.text = false ∧ (left.number && right.number) = false := by
  have honly : ∀ s : KindSet, ∀ k, s.isOnly k = true → s.has k = true := by
    intro s k hk
    obtain rfl : s = .only k := by simpa [KindSet.isOnly] using hk
    simp
  unfold addition?
  split
  next hnumbers =>
    rw [Bool.and_eq_true] at hnumbers
    have hl : left.number = true := honly left .number hnumbers.1
    have hr : right.number = true := honly right .number hnumbers.2
    simp [hl, hr]
  next =>
    split
    next htext =>
      rw [Bool.or_eq_true] at htext
      rcases htext with hl | hr
      · have hl : left.text = true := honly left .text hl
        simp [hl]
      · have hr : right.text = true := honly right .text hr
        simp [hr]
    next =>
      split
      next hnone =>
        simp only [Bool.and_eq_true, Bool.not_eq_true'] at hnone
        simp [hnone]
      next hsome =>
        simp only [Bool.and_eq_true, Bool.not_eq_true', not_and, Bool.not_eq_false] at hsome
        simp only [reduceCtorEq, false_iff, not_and, Bool.not_eq_false]
        intro hl hr
        exact Bool.and_eq_true_iff.mpr (hsome ⟨hl, hr⟩)

/-- A plan is there exactly when the operator works on some kinds of the two sets. -/
theorem isSome_binary?_iff (op : BinaryOp) (hleft : left.Nonempty) (hright : right.Nonempty) :
    (binary? op left right).isSome = true ↔
      ∃ j k, left.has j = true ∧ right.has k = true ∧ op.accepts j k = true := by
  obtain ⟨j, hj⟩ := hleft
  obtain ⟨k, hk⟩ := hright
  cases op with
  | logic connective => exact iff_of_true rfl ⟨j, k, hj, hk, rfl⟩
  | equality positive => exact iff_of_true rfl ⟨j, k, hj, hk, rfl⟩
  | compare comparison =>
    have hplan : (binary? (.compare comparison) left right).isSome =
        ((left.number && right.number) || (left.text && right.text)) := by
      unfold binary?
      dsimp only
      split <;> simp_all
    rw [hplan]
    simp only [BinaryOp.accepts, Bool.or_eq_true, Bool.and_eq_true, decide_eq_true_eq]
    constructor
    · rintro (⟨hl, hr⟩ | ⟨hl, hr⟩)
      · exact ⟨.number, .number, hl, hr, .inl ⟨rfl, rfl⟩⟩
      · exact ⟨.text, .text, hl, hr, .inr ⟨rfl, rfl⟩⟩
    · rintro ⟨j, k, hl, hr, ⟨rfl, rfl⟩ | ⟨rfl, rfl⟩⟩
      · exact .inl ⟨hl, hr⟩
      · exact .inr ⟨hl, hr⟩
  | arith operation =>
    cases operation with
    | add =>
      rw [← Option.isNone_eq_false_iff, ← Bool.not_eq_true, Option.isNone_iff_eq_none]
      show ¬addition? left right = none ↔ _
      rw [addition?_eq_none_iff]
      simp only [BinaryOp.accepts, Bool.or_eq_true, Bool.and_eq_true, decide_eq_true_eq]
      constructor
      · intro hsome
        -- a text on one side goes with whatever the other side may be
        by_cases hl : left.text = true
        · exact ⟨.text, k, hl, hk, .inl (.inr rfl)⟩
        · by_cases hr : right.text = true
          · exact ⟨j, .text, hj, hr, .inr rfl⟩
          · by_cases hnumbers : left.number = true ∧ right.number = true
            · exact ⟨.number, .number, hnumbers.1, hnumbers.2, .inl (.inl ⟨rfl, rfl⟩)⟩
            · exact absurd ⟨by simpa using hl, by simpa using hr, by simpa using hnumbers⟩ hsome
      · rintro ⟨j, k, hj, hk, (⟨rfl, rfl⟩ | rfl) | rfl⟩ ⟨hl, hr, hnumbers⟩
        · have hj : left.number = true := hj
          have hk : right.number = true := hk
          simp [hj, hk] at hnumbers
        · exact Bool.false_ne_true (hl.symm.trans hj)
        · exact Bool.false_ne_true (hr.symm.trans hk)
    | _ =>
      unfold binary?
      dsimp only
      split
      next hnumbers =>
        rw [Bool.and_eq_true] at hnumbers
        exact iff_of_true rfl ⟨.number, .number, hnumbers.1, hnumbers.2, rfl⟩
      next hnumbers =>
        refine iff_of_false Bool.false_ne_true ?_
        rintro ⟨j, k, hj, hk, haccepts⟩
        simp only [BinaryOp.accepts, Bool.and_eq_true, decide_eq_true_eq] at haccepts
        obtain ⟨rfl, rfl⟩ := haccepts
        exact hnumbers (Bool.and_eq_true_iff.mpr ⟨hj, hk⟩)

/-- A plan is missing exactly when every pair of values of the two sets is a mismatch. -/
theorem binary?_eq_none_iff (op : BinaryOp) (hleft : left.Nonempty) (hright : right.Nonempty) :
    binary? op left right = none ↔
      ∀ a b : Value, left.has a.kind = true → right.has b.kind = true →
        ∃ m, op.apply a b = .error m := by
  rw [← Option.not_isSome_iff_eq_none, isSome_binary?_iff op hleft hright]
  constructor
  · intro hnone a b ha hb
    rw [BinaryOp.apply_eq_error_iff, ← Bool.not_eq_true]
    intro haccepts
    exact hnone ⟨a.kind, b.kind, ha, hb, haccepts⟩
  · rintro hall ⟨j, k, hj, hk, haccepts⟩
    obtain ⟨m, hm⟩ := hall j.sample k.sample (by simpa using hj) (by simpa using hk)
    have hrefuses := (BinaryOp.apply_eq_error_iff op j.sample k.sample).mp ⟨m, hm⟩
    rw [Kind.kind_sample, Kind.kind_sample, haccepts] at hrefuses
    cases hrefuses

/-- Values for which there is no plan are at fault when they are combined. -/
theorem fault_of_binary?_eq_none {op : BinaryOp} (h : binary? op left right = none) (line : Nat)
    {a b : Value} (ha : left.has a.kind = true) (hb : right.has b.kind = true) :
    ∃ f, op.combine line a b = .error f ∧ f.isOfKinds = true := by
  obtain ⟨m, hm⟩ := (binary?_eq_none_iff op ⟨_, ha⟩ ⟨_, hb⟩).mp h a b ha hb
  cases hcombine : op.combine line a b with
  | ok v =>
    rw [BinaryOp.combine_eq_ok_iff, hm] at hcombine
    cases hcombine
  | error f => exact ⟨f, rfl, BinaryOp.isOfKinds_of_combine hcombine⟩

/-- The result of a plan has some kind. -/
theorem nonempty_of_binary? {op : BinaryOp} {plan : Plan} {kinds : KindSet}
    (h : binary? op left right = some (plan, kinds)) : kinds.Nonempty := by
  cases op with
  | logic connective =>
    cases h
    exact ⟨.boolean, rfl⟩
  | equality positive =>
    cases h
    exact ⟨.boolean, rfl⟩
  | compare comparison =>
    unfold binary? at h
    dsimp only at h
    split at h <;> cases h
    exact ⟨.boolean, rfl⟩
  | arith operation =>
    cases operation with
    | add =>
      rcases addition?_cases h with ⟨-, -, -, rfl⟩ | ⟨-, -, rfl⟩ | ⟨-, rfl⟩
      · exact ⟨.number, rfl⟩
      · exact ⟨.text, rfl⟩
      · exact ⟨.number, rfl⟩
    | _ =>
      unfold binary? at h
      dsimp only at h
      split at h <;> cases h
      exact ⟨.number, rfl⟩

end Plan

namespace CompileM

variable {o : Options} {s s' : Session} {kinds : KindSet}

/-- The kinds of an expression that is compiled are never none at all. -/
theorem nonempty_of_expr {e : Expr} (h : expr o e s = (.ok kinds, s')) (hwf : s.slots.Wf) :
    kinds.Nonempty := by
  cases e with
  | literal v span =>
    obtain ⟨_, s₁, -, hpure⟩ := bind_eq_ok h
    cases hpure
    exact ⟨v.kind, by simp⟩
  | poetic x text span =>
    obtain ⟨_, s₁, -, hpure⟩ := bind_eq_ok h
    cases hpure
    exact ⟨.number, rfl⟩
  | «variable» ref =>
    obtain ⟨i, s₁, hidentify, h⟩ := bind_eq_ok h
    obtain ⟨slot?, s₂, hslot, h⟩ := bind_eq_ok h
    obtain ⟨rfl, -, -⟩ := slotToRead_ok hslot
    cases slot? with
    | some slot =>
      obtain ⟨_, s₃, hemit, hkinds⟩ := bind_eq_ok (f := emit (.getField (UInt16.ofNat slot))) h
      have hslots : s₃.slots = s.slots :=
        ((sameVars_assemble _).of_ok hemit).slots.trans (keeps_of_identify hidentify).1
      cases hkinds
      rw [hslots, hwf.declared_getD]
      exact ⟨.number, rfl⟩
    | none =>
      obtain ⟨_, s₃, -, hpure⟩ := bind_eq_ok (f := emit .pushMysterious) h
      cases hpure
      exact ⟨.mysterious, rfl⟩
  | binary op l r =>
    obtain ⟨left, s₁, right, s₂, plan, -, -, hplan, -⟩ := expr_binary_ok h
    exact Plan.nonempty_of_binary? hplan
  | negation word e =>
    obtain ⟨kinds₁, s₁, -, -, rfl⟩ := expr_negation_ok h
    exact ⟨.boolean, rfl⟩

/-- An operator that is accepted works on some values of the kinds of its operands. -/
theorem exists_values_of_binary {op : BinaryOp} {l r : Expr}
    (h : expr o (.binary op l r) s = (.ok kinds, s')) (hwf : s.slots.Wf) :
    ∃ left s₁ right s₂, expr o l s = (.ok left, s₁) ∧ expr o r s₁ = (.ok right, s₂) ∧
      ∃ a b v : Value, left.has a.kind = true ∧ right.has b.kind = true ∧
        op.apply a b = .ok v := by
  obtain ⟨left, s₁, right, s₂, plan, hl, hr, hplan, -⟩ := expr_binary_ok h
  have hwf₁ : s₁.slots.Wf := by
    rw [((keeps_expr o l).of_ok hl).slots]
    exact hwf
  have hsome : (Plan.binary? op left right).isSome = true := by rw [hplan]; rfl
  obtain ⟨j, k, hj, hk, haccepts⟩ := (Plan.isSome_binary?_iff op (nonempty_of_expr hl hwf)
    (nonempty_of_expr hr hwf₁)).mp hsome
  have happly := (BinaryOp.apply_eq_ok_iff op j.sample k.sample).mpr (by simpa using haccepts)
  obtain ⟨v, hv⟩ := happly
  exact ⟨left, s₁, right, s₂, hl, hr, j.sample, k.sample, v, by simpa using hj, by simpa using hk,
    hv⟩

end CompileM

/-! ## Refused for kinds -/

namespace Expr

variable {o : Options} {line : Nat} {env env₁ env₂ : Env} {op : BinaryOp} {l r : Expr} {a b : Value}

theorem eval_binary_of_left {halt : Halt} (h : l.eval o line env = .error halt) :
    (binary op l r).eval o line env = .error halt := by
  rw [eval, h]
  rfl

theorem eval_binary_of_right {halt : Halt} (hl : l.eval o line env = .ok (a, env₁))
    (h : r.eval o line env₁ = .error halt) : (binary op l r).eval o line env = .error halt := by
  rw [eval, hl]
  simp only [bind, Except.bind]
  rw [h]

theorem eval_binary_of_combine {f : Fault} (hl : l.eval o line env = .ok (a, env₁))
    (hr : r.eval o line env₁ = .ok (b, env₂)) (h : op.combine line a b = .error f) :
    (binary op l r).eval o line env = .error (.fault f) := by
  rw [eval, hl]
  simp only [bind, Except.bind]
  rw [hr]
  simp only [h]
  rfl

end Expr

/-- All errors but that of an operator whose operands can never work. -/
def CompileError.NotOfKinds : CompileError → Prop
  | .typeMismatch _ _ _ _ => False
  | _ => True

namespace CompileM

variable {o : Options} {s s' : Session} {err : CompileError} {env : Env} {fields : Array Value}

theorem admits_notOfKinds : Admits CompileError.NotOfKinds :=
  ⟨fun _ => trivial, fun _ _ => trivial, fun _ _ => trivial⟩

theorem notOfKinds_identify (ref : Variable) :
    FailsWith CompileError.NotOfKinds (identify o ref) :=
  failsWith_identify (fun _ => trivial) trivial

/-- An expression that was compiled is evaluated to a value of its kinds, or to a fault. -/
theorem evaluates_of_expr {kinds : KindSet} {e : Expr} (h : expr o e s = (.ok kinds, s'))
    (hplain : ∀ v ∈ e.literals, v.IsPlain) (hwf : s.Wf) (hagrees : Agrees env s fields)
    (hroom : s.slots.size ≤ fields.size) :
    (∃ v env', e.eval o s.asm.line env = .ok (v, env') ∧ Agrees env' s' fields ∧
      kinds.has v.kind = true) ∨
    ∃ f, e.eval o s.asm.line env = .error (.fault f) ∧ f.isOfKinds = true := by
  cases simulate_expr h hplain hwf s'.within_finish hagrees hroom with
  | value heval hagrees' hkind hruns => exact .inl ⟨_, _, heval, hagrees', hkind⟩
  | fault heval hruns => exact .inr ⟨_, heval, (hruns []).1⟩

/-- An expression that is refused for its kinds has a fault when it is evaluated. -/
theorem fault_of_expr {e : Expr} (h : expr o e s = (.error err, s'))
    (herr : ¬err.NotOfKinds) (hplain : ∀ v ∈ e.literals, v.IsPlain) (hwf : s.Wf)
    (hagrees : Agrees env s fields) (hroom : s.slots.size ≤ fields.size) :
    ∃ f, e.eval o s.asm.line env = .error (.fault f) ∧ f.isOfKinds = true := by
  induction e generalizing s s' env with
  | literal v span =>
    have hrefused :=
      ((failsWith_emitValue admits_notOfKinds v).bind fun _ => failsWith_pure _) _ _ _ h
    exact absurd hrefused herr
  | poetic x text span =>
    have hrefused :=
      ((failsWith_emitValue admits_notOfKinds (.number x)).bind fun _ => failsWith_pure _) _ _ _ h
    exact absurd hrefused herr
  | «variable» ref =>
    have hrefused :=
      failsWith_readVariable admits_notOfKinds (notOfKinds_identify ref) _ _ _ h
    exact absurd hrefused herr
  | negation word e ih =>
    have he := FailsWith.eq_error_of_bind
      (fun _ => (failsWith_emit _).bind fun _ => failsWith_pure _) h herr
    obtain ⟨f, hf, hkinds⟩ := ih he hplain hwf hagrees hroom
    exact ⟨f, by rw [Expr.eval, hf]; rfl, hkinds⟩
  | binary op l r ihl ihr =>
    have hplainl : ∀ v ∈ l.literals, v.IsPlain := fun v hv => hplain v (List.mem_append_left _ hv)
    have hplainr : ∀ v ∈ r.literals, v.IsPlain := fun v hv => hplain v (List.mem_append_right _ hv)
    rcases bind_eq_error h with hl | ⟨left, s₁, hl, h⟩
    · -- the left operand is the one that is refused
      obtain ⟨f, hf, hkinds⟩ := ihl hl hplainl hwf hagrees hroom
      exact ⟨f, Expr.eval_binary_of_left hf, hkinds⟩
    have hkeeps := (keeps_expr o l).of_ok hl
    have hwf₁ : s₁.Wf := (wf_expr o hplainl).of_ok hl hwf
    have hroom₁ : s₁.slots.size ≤ fields.size := by rw [hkeeps.slots]; exact hroom
    rcases evaluates_of_expr hl hplainl hwf hagrees hroom with
      ⟨a, env₁, ha, hagrees₁, hkinda⟩ | ⟨f, hf, hkinds⟩
    case inr => exact ⟨f, Expr.eval_binary_of_left hf, hkinds⟩
    rcases bind_eq_error h with hr | ⟨right, s₂, hr, h⟩
    · obtain ⟨f, hf, hkinds⟩ := ihr hr hplainr hwf₁ hagrees₁ hroom₁
      rw [hkeeps.line] at hf
      exact ⟨f, Expr.eval_binary_of_right ha hf, hkinds⟩
    rcases evaluates_of_expr hr hplainr hwf₁ hagrees₁ hroom₁ with
      ⟨b, env₂, hb, -, hkindb⟩ | ⟨f, hf, hkinds⟩
    case inr =>
      rw [hkeeps.line] at hf
      exact ⟨f, Expr.eval_binary_of_right ha hf, hkinds⟩
    cases hplan : Plan.binary? op left right with
    | some planned =>
      rw [hplan] at h
      have hrefused := ((failsWith_follow admits_notOfKinds planned.1).bind
        fun _ => failsWith_pure planned.2) _ _ _ h
      exact absurd hrefused herr
    | none =>
      -- both operands have values of their kinds, and no such values go together
      obtain ⟨f, hf, hkinds⟩ := Plan.fault_of_binary?_eq_none hplan s.asm.line hkinda hkindb
      rw [hkeeps.line] at hb
      exact ⟨f, Expr.eval_binary_of_combine ha hb hf, hkinds⟩

/-- A statement that is refused for its kinds has a fault when it is evaluated. -/
theorem fault_of_statement {stmt : Statement} (h : statement o stmt s = (.error err, s'))
    (herr : ¬err.NotOfKinds) (hplain : ∀ v ∈ stmt.literals, v.IsPlain) (hwf : s.Wf)
    (hagrees : Agrees env s fields) (hroom : s.slots.size ≤ fields.size) :
    ∃ f, stmt.eval o env = .error (.fault f) ∧ f.isOfKinds = true := by
  obtain ⟨_, s₁, hline, h⟩ := (failsWith_setLine stmt.span.line).bind_eq_error h herr
  cases hline
  have hwf₁ : Session.Wf { s with asm := s.asm.setLine stmt.span.line } := ⟨hwf.slots, hwf.pool⟩
  have hagrees₁ : Agrees env { s with asm := s.asm.setLine stmt.span.line } fields :=
    ⟨hagrees.last, hagrees.values⟩
  cases stmt with
  | assign target value span =>
    replace h := FailsWith.eq_error_of_bind
      (fun i => failsWith_store admits_notOfKinds i target.span) h herr
    unfold assignParts at h
    unfold Statement.eval Env.assignParts
    by_cases hbefore : target.isBefore value = true
    · rw [if_pos hbefore] at h
      obtain ⟨i, s₁, hidentify, h⟩ := (notOfKinds_identify target).bind_eq_error h herr
      obtain ⟨env₁, hrefer, hagrees₂⟩ := hagrees₁.identify hidentify
      obtain ⟨hslots, hasm⟩ := keeps_of_identify hidentify
      have hwf₂ : s₁.Wf := ((wf_passesAll o).identify target).of_ok hidentify hwf₁
      have hvalue := FailsWith.eq_error_of_bind (fun _ => failsWith_pure i) h herr
      obtain ⟨f, hf, hkinds⟩ := fault_of_expr hvalue herr hplain hwf₂ hagrees₂
        (by rw [hslots]; exact hroom)
      rw [hasm] at hf
      refine ⟨f, ?_, hkinds⟩
      dsimp only
      rw [if_pos hbefore, hrefer]
      simp only [bind, Except.bind]
      rw [show value.eval o span.line env₁ = _ from hf]
    · rw [if_neg hbefore] at h
      have hvalue := FailsWith.eq_error_of_bind (fun _ => notOfKinds_identify target) h herr
      obtain ⟨f, hf, hkinds⟩ := fault_of_expr hvalue herr hplain hwf₁ hagrees₁ hroom
      refine ⟨f, ?_, hkinds⟩
      dsimp only
      rw [if_neg hbefore, show value.eval o span.line env = _ from hf]
      rfl
  | output verb value span =>
    have hvalue := FailsWith.eq_error_of_bind
      (fun _ => (failsWith_emitCall admits_notOfKinds _).bind fun _ => failsWith_emit _) h herr
    obtain ⟨f, hf, hkinds⟩ := fault_of_expr hvalue herr hplain hwf₁ hagrees₁ hroom
    refine ⟨f, ?_, hkinds⟩
    rw [Statement.eval, show value.eval o span.line env = _ from hf]
    rfl
  | step direction target n span =>
    have hrefused :=
      failsWith_step admits_notOfKinds direction n (notOfKinds_identify target) _ _ _ h
    exact absurd hrefused herr

/-- The statement that is refused, and the statements before it. -/
theorem exists_statement_of_error {program : List Statement}
    (h : statements o program s = (.error err, s')) :
    ∃ before stmt after s₁, program = before ++ stmt :: after ∧
      statements o before s = (.ok (), s₁) ∧ statement o stmt s₁ = (.error err, s') := by
  induction program generalizing s with
  | nil => cases h
  | cons stmt rest ih =>
    rcases bind_eq_error h with hstmt | ⟨_, s₁, hstmt, hrest⟩
    · exact ⟨[], stmt, rest, s, rfl, rfl, hstmt⟩
    · obtain ⟨before, stmt', after, s₂, rfl, hbefore, hrefused⟩ := ih hrest
      refine ⟨stmt :: before, stmt', after, s₂, rfl, ?_, hrefused⟩
      show (statement o stmt >>= fun _ => statements o before) s = _
      rw [bind_apply, hstmt]
      exact hbefore

end CompileM

/-- One statement behind others is compiled where they end. -/
theorem CompileM.statements_snoc {o : Options} {before : List Statement} {stmt : Statement}
    {s s₁ : Session} (h : statements o before s = (.ok (), s₁)) :
    statements o (before ++ [stmt]) s = statement o stmt s₁ := by
  induction before generalizing s with
  | nil =>
    obtain rfl : s = s₁ := congrArg Prod.snd h
    show (statement o stmt >>= fun _ => pure ()) s = _
    rw [bind_apply]
    rcases statement o stmt s with ⟨result, s'⟩
    cases result <;> rfl
  | cons first before ih =>
    obtain ⟨_, s₂, hfirst, hrest⟩ := bind_eq_ok h
    show (statement o first >>= fun _ => statements o (before ++ [stmt])) s = _
    rw [bind_apply, hfirst]
    exact ih hrest

/-! ## Evaluation stops -/

/-- The sink takes every line. -/
def Sink.TakesAll {σ : Type} (sink : Sink σ) : Prop := ∀ text out, (sink.write text out).1 = .ok ()

/-- Evaluation stops within the statements, whatever follows them, because a value is of the wrong
kind. -/
def StopsWithin {σ : Type} (sink : Sink σ) (o : Options) (program : List Statement) (env : Env)
    (out : σ) : Prop :=
  ∃ f env' out', f.isOfKinds = true ∧
    ∀ rest, evaluate sink o (program ++ rest) env out = ⟨some (.fault f), env', out'⟩

section Evaluation

variable {σ : Type} {sink : Sink σ} {o : Options} {x : Executable} {s s' : Session} {env : Env}
  {fields : Array Value}

/-- Statements that were compiled are evaluated to their end, or to a fault on the way. -/
theorem evaluates_of_statements (hsink : sink.TakesAll) {program : List Statement}
    (h : CompileM.statements o program s = (.ok (), s'))
    (hplain : ∀ stmt ∈ program, ∀ v ∈ stmt.literals, v.IsPlain) (hwf : s.Wf) (hin : s'.Within x)
    (htracks : Tracks env s x fields) (out : σ) :
    StopsWithin sink o program env out ∨ ∃ env' fields' out', Tracks env' s' x fields' ∧
      ∀ rest, evaluate sink o (program ++ rest) env out = evaluate sink o rest env' out' := by
  induction program generalizing s env fields out with
  | nil =>
    cases h
    exact .inr ⟨env, fields, out, htracks, fun rest => rfl⟩
  | cons stmt rest ih =>
    obtain ⟨_, s₁, hstmt, hrest⟩ := CompileM.bind_eq_ok h
    have hgrows : s₁.Grows s' := (CompileM.grows_statements o rest).of_ok hrest
    have hplain₁ := hplain stmt (by simp)
    have hwf₁ : s₁.Wf := (CompileM.wf_statement o hplain₁).of_ok hstmt hwf
    -- what one statement leaves behind is where the others begin
    have hgo : ∀ env₁ fields₁ out₁, Tracks env₁ s₁ x fields₁ →
        (∀ more, evaluate sink o (stmt :: more) env out = evaluate sink o more env₁ out₁) →
        StopsWithin sink o (stmt :: rest) env out ∨ ∃ env' fields' out', Tracks env' s' x fields' ∧
          ∀ more, evaluate sink o (stmt :: rest ++ more) env out =
            evaluate sink o more env' out' := by
      intro env₁ fields₁ out₁ htracks₁ heval
      rcases ih hrest (fun stmt' hmem => hplain stmt' (by simp [hmem])) hwf₁ htracks₁ out₁ with
        ⟨f, env', out', hkinds, hstops⟩ | ⟨env', fields', out', htracks', hthrough⟩
      · refine .inl ⟨f, env', out', hkinds, fun more => ?_⟩
        rw [List.cons_append, heval, hstops]
      · refine .inr ⟨env', fields', out', htracks', fun more => ?_⟩
        rw [List.cons_append, heval, hthrough]
    cases CompileM.simulate_statement hstmt hplain₁ hwf (hin.of_grows hgrows) htracks with
    | fault heval hruns =>
      refine .inl ⟨_, env, out, hruns.1, fun more => ?_⟩
      simp only [List.cons_append, evaluate, heval]
    | silent heval htracks₁ hreach =>
      refine hgo _ _ out htracks₁ fun more => ?_
      simp only [evaluate, heval]
    | @spoken env₁ text s₂ heval htracks₁ hruns hemits =>
      have hwrite := hsink (text ++ "\n") out
      refine hgo _ _ (sink.write (text ++ "\n") out).2 htracks₁ fun more => ?_
      rcases hresult : sink.write (text ++ "\n") out with ⟨result, out'⟩
      rw [hresult] at hwrite
      cases hwrite
      simp only [evaluate, heval, hresult]

/-- Evaluation stops at the statement that is refused for its kinds, or before it. -/
theorem stopsWithin_of_refused (hsink : sink.TakesAll) {before : List Statement}
    {stmt : Statement} {err : CompileError}
    (hbefore : CompileM.statements o before (.start o) = (.ok (), s))
    (hrefused : CompileM.statement o stmt s = (.error err, s')) (herr : ¬err.NotOfKinds)
    (hplain : ∀ stmt' ∈ before ++ [stmt], ∀ v ∈ stmt'.literals, v.IsPlain) (out : σ) :
    StopsWithin sink o (before ++ [stmt]) .start out := by
  have hplain₁ : ∀ stmt' ∈ before, ∀ v ∈ stmt'.literals, v.IsPlain :=
    fun stmt' hmem => hplain stmt' (by simp [hmem])
  rcases evaluates_of_statements hsink hbefore hplain₁ (Session.wf_start o) s.within_finish
      (tracks_start o s.finish) out with
    ⟨f, env', out', hkinds, hstops⟩ | ⟨env', fields', out', htracks, hthrough⟩
  · refine ⟨f, env', out', hkinds, fun rest => ?_⟩
    rw [List.append_assoc, hstops]
  · have hroom : s.slots.size ≤ fields'.size := by
      rw [htracks.size]
      exact s.within_finish.size_le
    obtain ⟨f, hf, hkinds⟩ := CompileM.fault_of_statement hrefused herr (hplain stmt (by simp))
      (wf_of_statements hbefore hplain₁) htracks.toAgrees hroom
    refine ⟨f, env', out', hkinds, fun rest => ?_⟩
    rw [List.append_assoc, hthrough, List.singleton_append, evaluate, hf]

end Evaluation

/-- Refusal for kinds is exact. A program that was read and is refused for its kinds stops with a
fault when it is evaluated, at the refused statement or before it, so nothing is refused that could
have been evaluated to its end. A plan is missing exactly where no two values of the kinds of the
operands go together, and every operator that is accepted works on some values of the kinds that
were found for its operands. Evaluation and the operations on values agree on what works. -/
theorem mismatch_exact {o : Options} {source : String} {program : List Statement}
    (hparse : parse o.vocabulary source.toList = .ok program) :
    (∀ op left right span, compile o program = .error (.typeMismatch op left right span) →
      ∃ before stmt after, program = before ++ stmt :: after ∧
        (∃ x, compile o before = .ok x) ∧
        compile o (before ++ [stmt]) = .error (.typeMismatch op left right span) ∧
        ∀ (σ : Type) (sink : Sink σ) (out : σ), sink.TakesAll →
          StopsWithin sink o (before ++ [stmt]) .start out) ∧
    (∀ op (left right : KindSet), left.Nonempty → right.Nonempty →
      (Plan.binary? op left right = none ↔
        ∀ a b : Value, left.has a.kind = true → right.has b.kind = true →
          ∃ m, op.apply a b = .error m)) ∧
    (∀ op l r s kinds s', ExprAt o program (.binary op l r) s →
      CompileM.expr o (.binary op l r) s = (.ok kinds, s') →
      ∃ left s₁ right s₂, CompileM.expr o l s = (.ok left, s₁) ∧
        CompileM.expr o r s₁ = (.ok right, s₂) ∧
        ∃ a b v : Value, left.has a.kind = true ∧ right.has b.kind = true ∧
          op.apply a b = .ok v) ∧
    ∀ (op : BinaryOp) (line : Nat) (a b v : Value),
      op.combine line a b = .ok v ↔ op.apply a b = .ok v := by
  have hplain := (source_of_parse hparse).literals
  refine ⟨?_, fun op left right => Plan.binary?_eq_none_iff op, ?_, BinaryOp.combine_eq_ok_iff⟩
  · intro op left right span hcompile
    obtain ⟨s, hstatements⟩ := exists_session_of_error hcompile
    obtain ⟨before, stmt, after, s₁, rfl, hbefore, hrefused⟩ :=
      CompileM.exists_statement_of_error hstatements
    refine ⟨before, stmt, after, rfl, ⟨s₁.finish, ?_⟩, ?_, fun σ sink out hsink => ?_⟩
    · rw [compile, hbefore]
    · rw [compile, CompileM.statements_snoc hbefore, hrefused]
    · exact stopsWithin_of_refused hsink hbefore hrefused id
        (fun stmt' hmem => hplain stmt' (by grind)) out
  · intro op l r s kinds s' hat hexpr
    exact CompileM.exists_values_of_binary hexpr (hat.wf hplain).slots

/-- The last line adds what can never be added. -/
def skyRefused : List Statement :=
  [.assign ⟨"The sky", ⟨1, 1, 7⟩⟩ (.literal (.number 5) ⟨1, 12, 1⟩) ⟨1, 1, 12⟩,
    .output .say (.variable ⟨"it", ⟨2, 5, 2⟩⟩) ⟨2, 1, 6⟩,
    .output .say (.binary (.arith .add) (.literal (.boolean true) ⟨3, 5, 4⟩)
      (.literal .null ⟨3, 15, 4⟩)) ⟨3, 1, 18⟩]

/-- The program is refused at its last line, where its evaluation stops; and the plan of a sum is
missing for a truth value and null, but not for two variables. -/
theorem mismatch_exact_sky :
    parse (Options.vocabulary {}) "The sky is 5\nSay it\nSay true plus null".toList =
        .ok skyRefused ∧
      compile {} skyRefused =
        .error (.typeMismatch (.arith .add) (.only .boolean) (.only .null) ⟨3, 5, 14⟩) ∧
      (∃ f, f.isOfKinds = true ∧
        (evaluate Sink.collect {} skyRefused .start "").halt = some (.fault f)) ∧
      (∃ m, BinaryOp.apply (.arith .add) (.boolean true) .null = .error m) ∧
      ¬∀ a b : Value, ∃ m, BinaryOp.apply (.arith .add) a b = .error m := by
  have hparse : parse (Options.vocabulary {})
      "The sky is 5\nSay it\nSay true plus null".toList = .ok skyRefused :=
    eq_ok_of_toOption (by decide +kernel)
  have hcompile : compile {} skyRefused =
      .error (.typeMismatch (.arith .add) (.only .boolean) (.only .null) ⟨3, 5, 14⟩) :=
    eq_error_of_map (by decide +kernel)
  obtain ⟨hstops, hplan, -, -⟩ := mismatch_exact (o := {}) hparse
  obtain ⟨before, stmt, after, hprogram, -, -, hstop⟩ := hstops _ _ _ _ hcompile
  obtain ⟨f, env, out, hkinds, heval⟩ := hstop String .collect "" fun _ _ => rfl
  refine ⟨hparse, hcompile, ⟨f, hkinds, ?_⟩, ?_, ?_⟩
  · have hrest := heval after
    rw [List.append_assoc, List.singleton_append, ← hprogram] at hrest
    rw [hrest]
  · exact (hplan (.arith .add) (.only .boolean) (.only .null) ⟨.boolean, rfl⟩ ⟨.null, rfl⟩).mp rfl
      _ _ rfl rfl
  · intro hall
    have hnone := (hplan (.arith .add) .any .any ⟨.null, rfl⟩ ⟨.null, rfl⟩).mpr
      fun a b _ _ => hall a b
    exact absurd hnone (by decide)

end Rockstar
