import Rockstar.Proofs.Emission

/-!
# Compiled code follows evaluation

The code of an expression leaves the value of the expression on the stack, or stops with the fault
of its evaluation (`simulate_expr`). The argument is an induction over the expression. It holds for
every stack below and every sink, so that the code of an operand can be run while the other operand
waits on the stack. `Session.Runs` says what a stretch of code does; stretches are put together by
`Runs.trans` and `Runs.error`.
-/

namespace Rockstar

/-- The faults of values of the wrong kind. -/
def Fault.isOfKinds : Fault → Bool
  | .typeMismatch _ _ => true
  | .expectedNumber _ _ => true
  | _ => false

namespace Session

/-- What the code between two sessions does with a stack: it leads to the given stack or stops with
the given fault. Neither fields nor output change. -/
def Runs (x : Executable) (s s' : Session) (fields : Array Value) (stack : List Value) :
    Except Fault (List Value) → Prop
  | .ok stack' =>
    ∀ (σ : Type) (sink : Sink σ) (line : Nat) (out : σ), ∃ line',
      Machine.Reaches sink x (s.machine fields stack line) out
        (s'.machine fields stack' line') out
  | .error f =>
    f.isOfKinds = true ∧ ∀ (σ : Type) (sink : Sink σ) (line : Nat) (out : σ),
      ∃ m, m.memory.fields = fields ∧
        Machine.Halts sink x s'.asm.code.size (s.machine fields stack line) out ⟨some f, m, out⟩

variable {x : Executable} {s s₁ s' : Session} {fields : Array Value}
  {stack stack₁ : List Value} {result : Except Fault (List Value)}

theorem Runs.refl (x : Executable) (s : Session) (fields : Array Value) (stack : List Value) :
    s.Runs x s fields stack (.ok stack) :=
  fun _ _ line _ => ⟨line, .refl _ _⟩

theorem Runs.trans (h : s.Runs x s₁ fields stack (.ok stack₁))
    (h' : s₁.Runs x s' fields stack₁ result) : s.Runs x s' fields stack result := by
  cases result with
  | ok stack' =>
    intro σ sink line out
    obtain ⟨line₁, hreach⟩ := h σ sink line out
    obtain ⟨line', hrest⟩ := h' σ sink line₁ out
    exact ⟨line', hreach.trans hrest⟩
  | error f =>
    refine ⟨h'.1, fun σ sink line out => ?_⟩
    obtain ⟨line₁, hreach⟩ := h σ sink line out
    obtain ⟨m, hfields, hhalts⟩ := h'.2 σ sink line₁ out
    exact ⟨m, hfields, hreach.halts hhalts⟩

/-- A fault stops all code that begins with its own. -/
theorem Runs.error {f : Fault} (h : s.Runs x s₁ fields stack (.error f)) (hgrows : s₁.Grows s') :
    s.Runs x s' fields stack (.error f) := by
  refine ⟨h.1, fun σ sink line out => ?_⟩
  obtain ⟨m, hfields, hhalts⟩ := h.2 σ sink line out
  exact ⟨m, hfields, hhalts.mono hgrows.code.size_le⟩

/-- Only the code of the sessions matters. -/
theorem Runs.congr {r r' : Session} (h : s.Runs x s' fields stack result)
    (hcode : r.asm.code = s.asm.code) (hcode' : r'.asm.code = s'.asm.code) :
    r.Runs x r' fields stack result := by
  cases result with
  | ok stack' =>
    simp only [Runs, machine, hcode, hcode']
    exact h
  | error f =>
    simp only [Runs, machine, hcode, hcode']
    exact h

/-- The effect of an instruction that does its work or finds a value of the wrong kind. -/
def Performs (fields : Array Value) (effect : Effect) : Except Fault (List Value) → Prop
  | .ok stack => effect = .proceed ⟨fields, stack⟩
  | .error f => f.isOfKinds = true ∧ ∃ rest, effect = .fault f ⟨fields, rest⟩

/-- A single instruction. -/
theorem runs_of_emits {i : Instr} (hemits : s.Emits i s') (hin : s'.Within x)
    (hperform : Performs fields ((Memory.mk fields stack).perform (s.site s') x.pool i) result) :
    s.Runs x s' fields stack result := by
  cases result with
  | ok stack' =>
    intro σ sink line out
    exact ⟨_, Machine.reaches_of_emits hemits hin line out hperform⟩
  | error f =>
    obtain ⟨hkinds, rest, hfault⟩ := hperform
    exact ⟨hkinds, fun σ sink line out =>
      ⟨_, rfl, Machine.halts_of_emits hemits hin line out hfault⟩⟩

end Session

/-! ## Operators -/

theorem Value.eq_number_of_kind {v : Value} (h : v.kind = .number) : ∃ y, v = .number y := by
  cases v with
  | number y => exact ⟨y, rfl⟩
  | _ => cases h

theorem Value.number?_eq_none {v : Value} (h : v.kind ≠ .number) : v.number? = none := by
  cases v with
  | number y => exact absurd rfl h
  | _ => rfl

namespace CompileM

variable {o : Options} {x : Executable} {s s' : Session} {fields : Array Value}

/-- A check of the value at a depth of the stack, where one is needed. -/
def check (needed : Bool) (d : UInt8) : CompileM Unit :=
  if needed then emit (.expectNumber d) else pure ()

theorem follow_typed (op : Arithmetic) (checkLeft checkRight : Bool) :
    follow (.typed op checkLeft checkRight) =
      (do check checkLeft 1; check checkRight 0; emit (.arith op)) := by
  cases checkLeft <;> cases checkRight <;> rfl

/-- A check passes a number and stops at everything else. -/
theorem runs_check {needed : Bool} {d : UInt8} (h : check needed d s = (.ok (), s'))
    (hin : s'.Within x) {stack : List Value} {v : Value} (hv : stack[d.toNat]? = some v)
    (hneeded : needed = false → v.kind = .number) :
    s.Runs x s' fields stack
      (if v.kind = .number then .ok stack else .error (.expectedNumber v.kind s.asm.line)) := by
  cases needed with
  | false =>
    obtain rfl : s = s' := congrArg Prod.snd h
    rw [if_pos (hneeded rfl)]
    exact Session.Runs.refl _ _ _ _
  | true =>
    refine Session.runs_of_emits (emits_of_emit h) hin ?_
    unfold Memory.perform
    dsimp only
    rw [hv]
    cases v with
    | number y => rfl
    | text t => exact ⟨rfl, stack, rfl⟩
    | boolean b => exact ⟨rfl, stack, rfl⟩
    | mysterious => exact ⟨rfl, stack, rfl⟩
    | null => exact ⟨rfl, stack, rfl⟩

theorem check_grows {needed : Bool} {d : UInt8} (h : check needed d s = (.ok (), s')) :
    s.Grows s' ∧ s'.asm.line = s.asm.line := by
  cases needed with
  | false =>
    obtain rfl : s = s' := congrArg Prod.snd h
    exact ⟨Session.grows_isPreorder.refl _, rfl⟩
  | true =>
    cases h
    exact ⟨(grows_passesAll {}).emit (.expectNumber d) s, rfl⟩

/-- Arithmetic behind the checks that it needs. -/
theorem runs_typed {op : Arithmetic} {checkLeft checkRight : Bool}
    (h : follow (.typed op checkLeft checkRight) s = (.ok (), s')) (hin : s'.Within x)
    {a b : Value} (ha : checkLeft = false → a.kind = .number)
    (hb : checkRight = false → b.kind = .number) (stack : List Value) :
    s.Runs x s' fields (b :: a :: stack) ((op.ofNumbers s.asm.line a b).map (· :: stack)) := by
  rw [follow_typed] at h
  obtain ⟨_, s₁, hleft, h⟩ := bind_eq_ok h
  obtain ⟨_, s₂, hright, harith⟩ := bind_eq_ok h
  have hgrows₂ : s₂.Grows s' := by
    cases harith
    exact (grows_passesAll {}).emit (.arith op) s₂
  have hin₂ := hin.of_grows hgrows₂
  obtain ⟨hgrows₁, hline₂⟩ := check_grows hright
  obtain ⟨-, hline₁⟩ := check_grows hleft
  have hrunl : s.Runs x s₁ fields (b :: a :: stack) _ :=
    runs_check hleft (hin₂.of_grows hgrows₁) rfl ha
  have hrunr : s₁.Runs x s₂ fields (b :: a :: stack) _ := runs_check hright hin₂ rfl hb
  unfold Arithmetic.ofNumbers
  -- the left operand is checked first, so its fault is the one reported
  by_cases hnuml : a.kind = .number
  · rw [if_pos hnuml] at hrunl
    obtain ⟨y, rfl⟩ := Value.eq_number_of_kind hnuml
    by_cases hnumr : b.kind = .number
    · rw [if_pos hnumr] at hrunr
      obtain ⟨z, rfl⟩ := Value.eq_number_of_kind hnumr
      refine hrunl.trans (hrunr.trans ?_)
      refine Session.runs_of_emits (emits_of_emit harith) hin ?_
      rfl
    · rw [if_neg hnumr, hline₁] at hrunr
      rw [Value.number?_eq_none hnumr]
      exact hrunl.trans (hrunr.error hgrows₂)
  · rw [if_neg hnuml] at hrunl
    rw [Value.number?_eq_none hnuml]
    exact hrunl.error (Session.grows_isPreorder.trans hgrows₁ hgrows₂)

/-- A call of the routine that joins texts. -/
theorem runs_concat (h : follow (.routine .concat) s = (.ok (), s')) (hwf : s.Wf)
    (hin : s'.Within x) (a b : Value) (stack : List Value) :
    s.Runs x s' fields (b :: a :: stack) (.ok (a.concat b :: stack)) := by
  obtain ⟨i, hemits, hperform⟩ := emitCall_ok h hwf
  refine Session.runs_of_emits hemits hin ?_
  rw [hperform x hin]
  rfl

/-- A call of the routine that adds values of all kinds. -/
theorem runs_add (h : follow (.routine .add) s = (.ok (), s')) (hwf : s.Wf) (hin : s'.Within x)
    (a b : Value) (stack : List Value) :
    s.Runs x s' fields (b :: a :: stack)
      (((BinaryOp.arith .add).combine s.asm.line a b).map (· :: stack)) := by
  obtain ⟨i, hemits, hperform⟩ := emitCall_ok h hwf
  refine Session.runs_of_emits hemits hin ?_
  rw [hperform x hin]
  unfold Memory.callRoutine BinaryOp.combine
  dsimp only
  cases a.arithmetic .add b with
  | ok v => rfl
  | error m => exact ⟨rfl, stack, rfl⟩

end CompileM

/-! ## Plans -/

theorem KindSet.eq_of_isOnly {kinds : KindSet} {j k : Kind} (honly : kinds.isOnly k = true)
    (hhas : kinds.has j = true) : j = k := by
  obtain rfl : kinds = only k := by simpa [isOnly] using honly
  simpa [eq_comm] using hhas

/-- The plans of an addition: arithmetic on two numbers, joining texts, or the routine for all
kinds. -/
theorem Plan.addition?_cases {plan : Plan} {kinds left right : KindSet}
    (h : addition? left right = some (plan, kinds)) :
    (left.isOnly .number = true ∧ right.isOnly .number = true ∧
      plan = ofNumbers .add left right ∧ kinds = .only .number) ∨
    ((left.isOnly .text = true ∨ right.isOnly .text = true) ∧
      plan = .routine .concat ∧ kinds = .only .text) ∨
    (plan = .routine .add ∧ kinds = (KindSet.only .number).union (.only .text)) := by
  unfold addition? at h
  split at h
  next hnumbers =>
    cases h
    rw [Bool.and_eq_true] at hnumbers
    exact .inl ⟨hnumbers.1, hnumbers.2, rfl, rfl⟩
  next =>
    split at h
    next htext =>
      cases h
      rw [Bool.or_eq_true] at htext
      exact .inr (.inl ⟨htext, rfl, rfl⟩)
    next =>
      split at h <;> cases h
      exact .inr (.inr ⟨rfl, rfl⟩)

theorem Value.arithmetic_add_of_numbers {a b : Value} (ha : a.kind = .number)
    (hb : b.kind = .number) (line : Nat) :
    (BinaryOp.arith .add).combine line a b = Arithmetic.add.ofNumbers line a b := by
  obtain ⟨y, rfl⟩ := eq_number_of_kind ha
  obtain ⟨z, rfl⟩ := eq_number_of_kind hb
  rfl

theorem Value.arithmetic_add_of_text {a b : Value} (h : a.kind = .text ∨ b.kind = .text)
    (line : Nat) : (BinaryOp.arith .add).combine line a b = .ok (a.concat b) := by
  cases a <;> cases b <;> simp_all [Value.kind] <;> rfl

namespace CompileM

variable {o : Options} {x : Executable} {s s' : Session} {fields : Array Value}

theorem runs_ofNumbers {op : Arithmetic} {left right : KindSet}
    (h : follow (.ofNumbers op left right) s = (.ok (), s')) (hin : s'.Within x) {a b : Value}
    (ha : left.has a.kind = true) (hb : right.has b.kind = true) (stack : List Value) :
    s.Runs x s' fields (b :: a :: stack) ((op.ofNumbers s.asm.line a b).map (· :: stack)) := by
  refine runs_typed h hin (fun hcheck => ?_) (fun hcheck => ?_) stack
  · exact KindSet.eq_of_isOnly (by simpa using hcheck) ha
  · exact KindSet.eq_of_isOnly (by simpa using hcheck) hb

/-- The plan of an addition computes the sum. -/
theorem runs_addition {plan : Plan} {kinds left right : KindSet}
    (hplan : Plan.addition? left right = some (plan, kinds)) (h : follow plan s = (.ok (), s'))
    (hwf : s.Wf) (hin : s'.Within x) {a b : Value} (ha : left.has a.kind = true)
    (hb : right.has b.kind = true) (stack : List Value) :
    s.Runs x s' fields (b :: a :: stack)
      (((BinaryOp.arith .add).combine s.asm.line a b).map (· :: stack)) := by
  rcases Plan.addition?_cases hplan with ⟨hl, hr, rfl, rfl⟩ | ⟨htext, rfl, rfl⟩ | ⟨rfl, rfl⟩
  · rw [Value.arithmetic_add_of_numbers (KindSet.eq_of_isOnly hl ha) (KindSet.eq_of_isOnly hr hb)]
    exact runs_ofNumbers h hin ha hb stack
  · have hkind : a.kind = .text ∨ b.kind = .text :=
      htext.imp (KindSet.eq_of_isOnly · ha) (KindSet.eq_of_isOnly · hb)
    rw [Value.arithmetic_add_of_text hkind]
    exact runs_concat h hwf hin a b stack
  · exact runs_add h hwf hin a b stack

/-- The plan of an operator computes what the operator means. -/
theorem runs_follow {op : BinaryOp} {plan : Plan} {kinds left right : KindSet}
    (hplan : Plan.binary? op left right = some (plan, kinds)) (h : follow plan s = (.ok (), s'))
    (hwf : s.Wf) (hin : s'.Within x) {a b : Value} (ha : left.has a.kind = true)
    (hb : right.has b.kind = true) (stack : List Value) :
    s.Runs x s' fields (b :: a :: stack) ((op.combine s.asm.line a b).map (· :: stack)) := by
  cases op with
  | logic connective =>
    cases hplan
    refine Session.runs_of_emits (emits_of_emit h) hin ?_
    rfl
  | equality positive =>
    cases hplan
    refine Session.runs_of_emits (emits_of_emit h) hin ?_
    rfl
  | compare comparison =>
    unfold Plan.binary? at hplan
    dsimp only at hplan
    split at hplan
    · cases hplan
      refine Session.runs_of_emits (emits_of_emit h) hin ?_
      dsimp only [BinaryOp.combine, Memory.perform, Memory.popPair, Memory.pop]
      cases a.compare comparison b with
      | ok holds => rfl
      | error m => exact ⟨rfl, stack, rfl⟩
    · cases hplan
  | arith operation =>
    cases operation with
    | add => exact runs_addition hplan h hwf hin ha hb stack
    -- the other operations have the one plan for numbers
    | _ =>
      unfold Plan.binary? at hplan
      dsimp only at hplan
      split at hplan <;> cases hplan
      exact runs_ofNumbers h hin ha hb stack

end CompileM

theorem Arithmetic.kind_ofNumbers {op : Arithmetic} {line : Nat} {a b v : Value}
    (h : op.ofNumbers line a b = .ok v) : v.kind = .number := by
  unfold ofNumbers at h
  split at h <;> cases h
  rfl

theorem Value.kind_arithmetic_add {a b v : Value} (h : a.arithmetic .add b = .ok v) :
    v.kind = .number ∨ v.kind = .text := by
  unfold arithmetic at h
  split at h <;> cases h
  · exact .inl rfl
  · exact .inr rfl
  · exact .inr rfl

theorem Plan.has_kind_of_addition {plan : Plan} {kinds left right : KindSet}
    (hplan : addition? left right = some (plan, kinds)) {a b v : Value} {line : Nat}
    (ha : left.has a.kind = true) (hb : right.has b.kind = true)
    (hv : (BinaryOp.arith .add).combine line a b = .ok v) : kinds.has v.kind = true := by
  rcases addition?_cases hplan with ⟨hl, hr, rfl, rfl⟩ | ⟨htext, rfl, rfl⟩ | ⟨rfl, rfl⟩
  · rw [Value.arithmetic_add_of_numbers (KindSet.eq_of_isOnly hl ha)
      (KindSet.eq_of_isOnly hr hb)] at hv
    rw [Arithmetic.kind_ofNumbers hv]
    rfl
  · have hkind : a.kind = .text ∨ b.kind = .text :=
      htext.imp (KindSet.eq_of_isOnly · ha) (KindSet.eq_of_isOnly · hb)
    rw [Value.arithmetic_add_of_text hkind] at hv
    cases hv
    rfl
  · unfold BinaryOp.combine at hv
    dsimp only at hv
    split at hv <;> cases hv
    next hsum =>
      rcases Value.kind_arithmetic_add hsum with hkind | hkind <;> rw [hkind] <;> rfl

/-- The value of an operator is of one of the kinds that its plan promises. -/
theorem Plan.has_kind_of_combine {op : BinaryOp} {plan : Plan} {kinds left right : KindSet}
    (hplan : binary? op left right = some (plan, kinds)) {a b v : Value} {line : Nat}
    (ha : left.has a.kind = true) (hb : right.has b.kind = true)
    (hv : op.combine line a b = .ok v) : kinds.has v.kind = true := by
  cases op with
  | logic connective =>
    cases hplan
    cases hv
    rfl
  | equality positive =>
    cases hplan
    cases hv
    rfl
  | compare comparison =>
    unfold binary? at hplan
    dsimp only at hplan
    split at hplan <;> cases hplan
    unfold BinaryOp.combine at hv
    dsimp only at hv
    split at hv <;> cases hv
    rfl
  | arith operation =>
    cases operation with
    | add => exact has_kind_of_addition hplan ha hb hv
    | _ =>
      unfold binary? at hplan
      dsimp only at hplan
      split at hplan <;> cases hplan
      have hkind : v.kind = .number := Arithmetic.kind_ofNumbers hv
      rw [hkind]
      rfl

/-! ## Expressions -/

/-- Evaluation and machine hold the same variables when the code of the session has been run. -/
structure Agrees (env : Env) (s : Session) (fields : Array Value) : Prop where
  last : env.last = s.last.map (·.name)
  values : ∀ name, env.values name = (s.slots.find? name).bind (fields[·]?)

theorem Agrees.of_sameVars {env : Env} {s s' : Session} {fields : Array Value}
    (h : Agrees env s fields) (hsame : CompileM.SameVars s s') : Agrees env s' fields :=
  ⟨by rw [hsame.last]; exact h.last, by rw [hsame.slots]; exact h.values⟩

/-- Compilation and evaluation look up a reference alike. -/
theorem Agrees.identify {o : Options} {env : Env} {s s' : Session} {fields : Array Value}
    (hagrees : Agrees env s fields) {ref : Variable} {i : Identity}
    (h : CompileM.identify o ref s = (.ok i, s')) :
    ∃ env', env.refer o.vocabulary ref = .ok (i.name, env') ∧ Agrees env' s' fields := by
  refine ⟨_, CompileM.refer_of_identify h hagrees.last, rfl, ?_⟩
  rw [(CompileM.keeps_of_identify h).1]
  exact hagrees.values

/-- As long as every slot has a field, a read loads the value of the variable. -/
theorem Agrees.read {o : Options} {env : Env} {s s' : Session} {fields : Array Value}
    (hagrees : Agrees env s fields) {i : Identity} {span : Span} {slot? : Option Nat}
    (h : CompileM.slotToRead o i span s = (.ok slot?, s')) (hwf : s.slots.Wf)
    (hroom : s.slots.size ≤ fields.size) :
    ∃ v, env.read o.unbound i.name span = .ok v ∧
      (∀ stack site pool, (Memory.mk fields stack).perform site pool (readInstr slot?) =
        .proceed ⟨fields, v :: stack⟩) ∧
      (slot? = none → v = .mysterious) := by
  obtain ⟨-, hfind, hnone⟩ := CompileM.slotToRead_ok h
  have hvalue := hagrees.values i.name
  unfold Env.read
  rw [hvalue, hfind]
  cases slot? with
  | some slot =>
    have hlt := hwf.lt_size hfind
    have hget : fields[slot]? = some fields[slot] := Array.getElem?_eq_getElem (by omega)
    have hnat : (UInt16.ofNat slot).toNat = slot :=
      UInt16.toNat_ofNat_of_lt' (Nat.lt_of_lt_of_le hlt hwf.size_le)
    refine ⟨fields[slot], by rw [Option.bind_some, hget], ?_, ?_⟩
    · intro stack site pool
      unfold Memory.perform readInstr
      dsimp only
      rw [hnat, hget]
      rfl
    · intro hslot
      cases hslot
  | none =>
    rw [hnone rfl]
    exact ⟨.mysterious, rfl, fun _ _ _ => rfl, fun _ => rfl⟩

/-- The code of an expression does what its evaluation does: it leaves the value on the stack, or
it stops with the fault. -/
inductive Simulates (o : Options) (x : Executable) (e : Expr) (env : Env) (s s' : Session)
    (kinds : KindSet) (fields : Array Value) : Prop where
  | value {v : Value} {env' : Env} (heval : e.eval o s.asm.line env = .ok (v, env'))
      (hagrees : Agrees env' s' fields) (hkind : kinds.has v.kind = true)
      (hruns : ∀ stack, s.Runs x s' fields stack (.ok (v :: stack)))
  | fault {f : Fault} (heval : e.eval o s.asm.line env = .error (.fault f))
      (hruns : ∀ stack, s.Runs x s' fields stack (.error f))

namespace CompileM

variable {o : Options} {x : Executable} {s s' : Session} {kinds : KindSet} {env : Env}
  {fields : Array Value}

theorem simulate_value {e : Expr} {v : Value} (hexpr : e.eval o s.asm.line env = .ok (v, env))
    (h : (do emitValue v; return KindSet.only v.kind) s = (.ok kinds, s')) (hv : v.IsPlain)
    (hwf : s.Wf) (hin : s'.Within x) (hagrees : Agrees env s fields) :
    Simulates o x e env s s' kinds fields := by
  obtain ⟨_, s₁, hemit, hpure⟩ := bind_eq_ok h
  cases hpure
  obtain ⟨i, hemits, hperform⟩ := emitValue_ok hemit hwf hv
  refine .value hexpr ?_ (by simp) fun stack => ?_
  · exact hagrees.of_sameVars ((sameVars_assemble _).of_ok hemit)
  · exact Session.runs_of_emits hemits hin (hperform x hin _ _)

/-- The variable of a reference is read as it is evaluated. -/
theorem simulate_variable {ref : Variable} (h : readVariable o ref s = (.ok kinds, s'))
    (hwf : s.Wf) (hin : s'.Within x) (hagrees : Agrees env s fields)
    (hroom : s.slots.size ≤ fields.size) :
    Simulates o x (.variable ref) env s s' kinds fields := by
  obtain ⟨i, s₁, hidentify, h⟩ := bind_eq_ok h
  obtain ⟨slot?, s₂, hslot, h⟩ := bind_eq_ok h
  obtain ⟨hslots, hasm⟩ := keeps_of_identify hidentify
  obtain ⟨env₁, hrefer, hagrees₁⟩ := hagrees.identify hidentify
  obtain ⟨v, hread, hperform, hnone⟩ :=
    hagrees₁.read hslot (hslots ▸ hwf.slots) (by rw [hslots]; exact hroom)
  obtain ⟨rfl, -, -⟩ := slotToRead_ok hslot
  have heval : (Expr.variable ref).eval o s.asm.line env = .ok (v, env₁) := by
    simp only [Expr.eval, hrefer, hread, bind, Except.bind, pure, Except.pure]
  -- the session before the load differs from `s` in the name that was remembered
  have hruns : ∀ s₃, emit (readInstr slot?) s₂ = (.ok (), s₃) → s₃.Within x →
      ∀ stack, s.Runs x s₃ fields stack (.ok (v :: stack)) := by
    intro s₃ hemit hin₃ stack
    have hemits : s.Emits (readInstr slot?) s₃ := by
      have hcode := emits_of_emit hemit
      unfold Session.Emits at hcode ⊢
      rw [hcode, hasm]
    exact Session.runs_of_emits hemits hin₃ (hperform _ _ _)
  cases slot? with
  | some slot =>
    obtain ⟨_, s₃, hemit, hkinds⟩ := bind_eq_ok (f := emit (.getField (UInt16.ofNat slot))) h
    have hsame : SameVars s₂ s₃ := (sameVars_assemble _).of_ok hemit
    cases hkinds
    refine .value heval (hagrees₁.of_sameVars hsame) ?_ (hruns _ hemit hin)
    rw [hsame.slots, hslots, hwf.slots.declared_getD]
    exact KindSet.has_any _
  | none =>
    obtain ⟨_, s₃, hemit, hpure⟩ := bind_eq_ok (f := emit .pushMysterious) h
    cases hpure
    have hsame : SameVars s₂ s' := (sameVars_assemble _).of_ok hemit
    refine .value heval (hagrees₁.of_sameVars hsame) ?_ (hruns _ hemit hin)
    rw [hnone rfl]
    rfl

/-- An operator is simulated when its operands are. -/
theorem simulate_binary {op : BinaryOp} {l r : Expr} {s₁ s₂ : Session} {left right : KindSet}
    {plan : Plan} (hleft : Simulates o x l env s s₁ left fields)
    (hright : ∀ env₁, Agrees env₁ s₁ fields → Simulates o x r env₁ s₁ s₂ right fields)
    (hplan : Plan.binary? op left right = some (plan, kinds))
    (hfollow : follow plan s₂ = (.ok (), s')) (hwf : s₂.Wf) (hin : s'.Within x)
    (hgrows : s₁.Grows s₂) (hline₁ : s₁.asm.line = s.asm.line)
    (hline₂ : s₂.asm.line = s₁.asm.line) :
    Simulates o x (.binary op l r) env s s' kinds fields := by
  have hgrows' : s₂.Grows s' :=
    (respects_follow (grows_passesAll o).toPassesCode plan).of_ok hfollow
  have hsame : SameVars s₂ s' := (respects_follow sameVars_passesCode plan).of_ok hfollow
  cases hleft with
  | fault heval hruns =>
    -- the right operand is neither evaluated nor run
    refine .fault (f := _) (by rw [Expr.eval, heval]; rfl) fun stack => ?_
    exact (hruns stack).error (Session.grows_isPreorder.trans hgrows hgrows')
  | value heval hagrees hkind hruns =>
    rename_i a env₁
    cases hright env₁ hagrees with
    | fault heval' hruns' =>
      rw [hline₁] at heval'
      refine .fault (f := _) (by rw [Expr.eval, heval]; simp only [bind, Except.bind]; rw [heval'])
        fun stack => ?_
      exact (hruns stack).trans ((hruns' _).error hgrows')
    | value heval' hagrees' hkind' hruns' =>
      rename_i b env₂
      rw [hline₁] at heval'
      -- both values are on the stack, the right one on top
      have hrun : ∀ stack, s₂.Runs x s' fields (b :: a :: stack)
          ((op.combine s.asm.line a b).map (· :: stack)) := by
        rw [← hline₁, ← hline₂]
        exact runs_follow hplan hfollow hwf hin hkind hkind'
      cases hcombine : op.combine s.asm.line a b with
      | ok v =>
        rw [hcombine] at hrun
        refine .value (v := v) ?_ (hagrees'.of_sameVars hsame)
          (Plan.has_kind_of_combine hplan hkind hkind' hcombine) fun stack => ?_
        · rw [Expr.eval, heval]
          simp only [bind, Except.bind]
          rw [heval']
          simp only [hcombine]
          rfl
        · exact (hruns stack).trans ((hruns' _).trans (hrun stack))
      | error f =>
        rw [hcombine] at hrun
        refine .fault (f := f) ?_ fun stack => ?_
        · rw [Expr.eval, heval]
          simp only [bind, Except.bind]
          rw [heval']
          simp only [hcombine]
          rfl
        · exact (hruns stack).trans ((hruns' _).trans (hrun stack))

/-- The code of an expression does what its evaluation does. -/
theorem simulate_expr {e : Expr} (h : expr o e s = (.ok kinds, s'))
    (hplain : ∀ v ∈ e.literals, v.IsPlain) (hwf : s.Wf) (hin : s'.Within x)
    (hagrees : Agrees env s fields) (hroom : s.slots.size ≤ fields.size) :
    Simulates o x e env s s' kinds fields := by
  induction e generalizing s s' kinds env with
  | literal v span => exact simulate_value rfl h (hplain v (by simp [Expr.literals])) hwf hin hagrees
  | poetic y text span =>
    exact simulate_value (v := .number y) rfl h (hplain _ (by simp [Expr.literals])) hwf hin hagrees
  | «variable» ref => exact simulate_variable h hwf hin hagrees hroom
  | binary op l r ihl ihr =>
    have hplainl : ∀ v ∈ l.literals, v.IsPlain := fun v hv => hplain v (by simp [Expr.literals, hv])
    have hplainr : ∀ v ∈ r.literals, v.IsPlain := fun v hv => hplain v (by simp [Expr.literals, hv])
    obtain ⟨left, s₁, right, s₂, plan, hl, hr, hplan, hfollow⟩ := expr_binary_ok h
    have hkeeps₁ := (keeps_expr o l).of_ok hl
    have hkeeps₂ := (keeps_expr o r).of_ok hr
    have hgrows₂ := (grows_expr o r).of_ok hr
    have hgrows' : s₂.Grows s' :=
      (respects_follow (grows_passesAll o).toPassesCode plan).of_ok hfollow
    have hwf₁ : s₁.Wf := (wf_expr o hplainl).of_ok hl hwf
    have hin₂ := hin.of_grows hgrows'
    have hroom₁ : s₁.slots.size ≤ fields.size := by rw [hkeeps₁.slots]; exact hroom
    -- the right operand runs wherever the left one leads, hence the general environment
    exact simulate_binary (ihl hl hplainl hwf (hin₂.of_grows hgrows₂) hagrees hroom)
      (fun env₁ hagrees₁ => ihr hr hplainr hwf₁ hin₂ hagrees₁ hroom₁) hplan hfollow
      ((wf_expr o hplainr).of_ok hr hwf₁) hin hgrows₂ hkeeps₁.line hkeeps₂.line
  | negation word e ih =>
    obtain ⟨kinds₁, s₁, he, hemit, rfl⟩ := expr_negation_ok h
    have hgrows : s₁.Grows s' := ((grows_passesAll o).emit _).of_ok hemit
    cases ih he hplain hwf (hin.of_grows hgrows) hagrees hroom with
    | fault heval hruns =>
      refine .fault (f := _) (by rw [Expr.eval, heval]; rfl) fun stack => ?_
      exact (hruns stack).error hgrows
    | value heval hagrees' hkind hruns =>
      refine .value (by rw [Expr.eval, heval]; rfl)
        (hagrees'.of_sameVars ((sameVars_assemble _).of_ok hemit)) rfl fun stack => ?_
      refine (hruns stack).trans ?_
      refine Session.runs_of_emits (emits_of_emit hemit) hin ?_
      rfl

end CompileM

end Rockstar
