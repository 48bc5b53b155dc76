import Rockstar.Proofs.Evaluation
import Rockstar.Proofs.Run

/-!
# Steps of compilation on the machine

For each step of compilation that succeeds: which instruction it wrote, and what that instruction
does on a machine whose executable holds the session. The number of a constant or a field is looked
up here in the final executable, so the modules that build on this one speak of values only.
-/

namespace Rockstar

/-! ## What the compilation of expressions leaves alone -/

/-- Slots and source line are the same in both sessions. -/
structure Session.Keeps (s s' : Session) : Prop where
  slots : s'.slots = s.slots
  line : s'.asm.line = s.asm.line

namespace CompileM

variable {o : Options} {s s' : Session}

theorem keeps_passes (o : Options) : Passes Session.Keeps o where
  refl _ := ⟨rfl, rfl⟩
  trans h h' := ⟨h'.slots.trans h.slots, h'.line.trans h.line⟩
  identify ref s := by
    obtain ⟨last, hlast⟩ := identify_last o ref s
    rw [hlast]
    exact ⟨rfl, rfl⟩
  emit i s := ⟨rfl, rfl⟩
  emitCall r s := ⟨rfl, s.asm.line_emitIndexed _ _⟩

theorem keeps_emitValue (v : Value) : Respects Session.Keeps (emitValue v) :=
  fun s => ⟨rfl, s.asm.line_emitValue v⟩

theorem keeps_expr (o : Options) (e : Expr) : Respects Session.Keeps (expr o e) :=
  respects_expr (keeps_passes o) e fun v _ => keeps_emitValue v

/-- Both sessions have the same variables. -/
structure SameVars (s s' : Session) : Prop where
  last : s'.last = s.last
  slots : s'.slots = s.slots

theorem sameVars_assemble {α : Type} (f : Assembler → Except CompileError α × Assembler) :
    Respects SameVars (assemble f) :=
  fun _ => ⟨rfl, rfl⟩

theorem sameVars_passesCode : PassesCode SameVars where
  refl _ := ⟨rfl, rfl⟩
  trans h h' := ⟨h'.last.trans h.last, h'.slots.trans h.slots⟩
  emit _ := sameVars_assemble _
  emitCall _ := sameVars_assemble _

/-! ## References -/

/-- Compilation and evaluation find the same variable and remember the same name. -/
theorem refer_of_identify {ref : Variable} {i : Identity} (h : identify o ref s = (.ok i, s'))
    {env : Env} (hlast : env.last = s.last.map (·.name)) :
    env.refer o.vocabulary ref = .ok (i.name, { env with last := s'.last.map (·.name) }) := by
  unfold identify Name.identify at h
  unfold Env.refer
  cases hshape : Name.shape? o.vocabulary ref.text with
  | none =>
    rw [hshape] at h
    cases h
  | some shape =>
    rw [hshape] at h
    cases shape with
    | pronoun =>
      cases hnamed : s.last with
      | none =>
        rw [hnamed] at h
        cases h
      | some j =>
        rw [hnamed] at h hlast
        -- a pronoun stands for the name before it and leaves it in its place
        cases h
        obtain ⟨values, last⟩ := env
        cases hlast
        rfl
    | simple =>
      cases h
      rfl
    | common =>
      cases h
      rfl
    | proper =>
      cases h
      rfl

theorem keeps_of_identify {ref : Variable} {i : Identity} (h : identify o ref s = (.ok i, s')) :
    s'.slots = s.slots ∧ s'.asm = s.asm := by
  obtain ⟨last, hlast⟩ := identify_last o ref s
  rw [h] at hlast
  cases hlast
  exact ⟨rfl, rfl⟩

/-- The slot of a read is the one of the name; without one the policy decides. -/
theorem slotToRead_ok {i : Identity} {span : Span} {slot? : Option Nat}
    (h : slotToRead o i span s = (.ok slot?, s')) :
    s' = s ∧ s.slots.find? i.name = slot? ∧ (slot? = none → o.unbound = .mysterious) := by
  unfold slotToRead at h
  cases hfind : s.slots.find? i.name with
  | some slot =>
    rw [hfind] at h
    cases h
    refine ⟨rfl, rfl, ?_⟩
    intro hnone
    cases hnone
  | none =>
    rw [hfind] at h
    cases hpolicy : o.unbound with
    | refuse =>
      rw [hpolicy] at h
      cases h
    | mysterious =>
      rw [hpolicy] at h
      cases h
      exact ⟨rfl, rfl, fun _ => rfl⟩

end CompileM

/-- The load of a slot, or of what stands for a variable that was never assigned. -/
def readInstr : Option Nat → Instr
  | some slot => .getField (UInt16.ofNat slot)
  | none => .pushMysterious

namespace CompileM

variable {o : Options} {s s' : Session}

/-- The parts of the compilation of a read. -/
theorem readVariable_ok {ref : Variable} {kinds : KindSet}
    (h : readVariable o ref s = (.ok kinds, s')) :
    ∃ i slot? s₁, identify o ref s = (.ok i, s₁) ∧ emit (readInstr slot?) s₁ = (.ok (), s') := by
  obtain ⟨i, s₁, hidentify, h⟩ := bind_eq_ok h
  obtain ⟨slot?, s₂, hslot, h⟩ := bind_eq_ok h
  obtain ⟨rfl, -, -⟩ := slotToRead_ok hslot
  refine ⟨i, slot?, s₂, hidentify, ?_⟩
  cases slot? with
  | some slot =>
    obtain ⟨_, s₃, hemit, hkinds⟩ := bind_eq_ok (f := emit (.getField (UInt16.ofNat slot))) h
    cases hkinds
    exact hemit
  | none =>
    obtain ⟨_, s₃, hemit, hpure⟩ := bind_eq_ok (f := emit .pushMysterious) h
    cases hpure
    exact hemit

/-- The parts of the compilation of a step: the variable is read, checked, changed by the count and
stored. -/
theorem step_parts_ok {direction : Direction} {target : Variable} {count : Nat}
    (h : step o direction target count s = (.ok (), s')) :
    ∃ i slot? s₁ s₂ s₃ s₄ s₅, identify o target s = (.ok i, s₁) ∧
      emit (readInstr slot?) s₁ = (.ok (), s₂) ∧
      emit (.expectNumber 0) s₂ = (.ok (), s₃) ∧
      emitValue (.number (Float.ofNat count)) s₃ = (.ok (), s₄) ∧
      emit (.arith direction.operation) s₄ = (.ok (), s₅) ∧
      store i target.span s₅ = (.ok (), s') := by
  obtain ⟨i, s₁, hidentify, h⟩ := bind_eq_ok h
  obtain ⟨slot?, s₂, hslot, h⟩ := bind_eq_ok h
  obtain ⟨rfl, -, -⟩ := slotToRead_ok hslot
  -- both ways to load the variable are one instruction, followed by the same code
  replace h : (do
      emit (readInstr slot?)
      emit (.expectNumber 0)
      emitValue (.number (Float.ofNat count))
      emit (.arith direction.operation)
      store i target.span) s₂ = (.ok (), s') := by
    cases slot? <;> exact h
  obtain ⟨_, s₃, hemit, h⟩ := bind_eq_ok h
  obtain ⟨_, s₄, hcheck, h⟩ := bind_eq_ok h
  obtain ⟨_, s₅, hvalue, h⟩ := bind_eq_ok h
  obtain ⟨_, s₆, harith, hstore⟩ := bind_eq_ok h
  exact ⟨i, slot?, s₂, s₃, s₄, s₅, s₆, hidentify, hemit, hcheck, hvalue, harith, hstore⟩

end CompileM

/-! ## Constants -/

namespace Assembler

/-- A constant that has an index is found under it, also in every pool that grew from there. -/
theorem emitIndexed_ok {a a' : Assembler} {c : Constant} {instr : UInt16 → Instr}
    (h : a.emitIndexed c instr = (.ok (), a')) (hwf : a.pool.Wf) (hc : c.IsPlain) :
    ∃ k, k < indexLimit ∧ a'.code = (a.emit (instr (UInt16.ofNat k))).code ∧
      a'.pool.get? k = some c := by
  rw [emitIndexed_eq] at h
  split at h
  next hlt =>
    cases h
    exact ⟨_, hlt, rfl, (hwf.add hc).2⟩
  next => cases h

theorem perform_loadInstr {k : Nat} (hk : k < indexLimit) (m : Memory) (site : Site)
    (pool : Pool) :
    m.perform site pool (loadInstr (UInt16.ofNat k)) = m.pushConstant pool k := by
  have hnat : (UInt16.ofNat k).toNat = k := UInt16.toNat_ofNat_of_lt' hk
  unfold loadInstr
  rw [hnat]
  by_cases hlt : k < 256
  · have hbyte : (UInt8.ofNat k).toNat = k := UInt8.toNat_ofNat_of_lt' hlt
    rw [if_pos hlt]
    show m.pushConstant pool (UInt8.ofNat k).toNat = _
    rw [hbyte]
  · rw [if_neg hlt]
    show m.pushConstant pool (UInt16.ofNat k).toNat = _
    rw [hnat]

end Assembler

theorem Routine.ofHash?_hash (r : Routine) : Routine.ofHash? r.hash = some r := by
  cases r <;> decide +kernel

theorem Routine.toNat_arity (r : Routine) : (UInt8.ofNat r.arity).toNat = r.arity := by
  cases r <;> rfl

namespace CompileM

variable {o : Options} {s s' : Session}

/-- The instruction that loads a value pushes it. -/
theorem emitValue_ok {v : Value} (h : emitValue v s = (.ok (), s')) (hwf : s.Wf)
    (hv : v.IsPlain) :
    ∃ i, s.Emits i s' ∧ ∀ x : Executable, s'.Within x → ∀ (m : Memory) (site : Site),
      m.perform site x.pool i = .proceed (m.push v) := by
  have hasm : s.asm.emitValue v = (.ok (), s'.asm) := by
    rw [emitValue, assemble_apply] at h
    cases hres : s.asm.emitValue v
    rw [hres] at h
    cases h
    rfl
  -- numbers and texts go through the pool, where the final executable still has them
  have hconstant : ∀ c : Constant, c.IsPlain → c.value? = some v →
      s.asm.emitIndexed c Assembler.loadInstr = (.ok (), s'.asm) →
      ∃ i, s.Emits i s' ∧ ∀ x : Executable, s'.Within x → ∀ (m : Memory) (site : Site),
        m.perform site x.pool i = .proceed (m.push v) := by
    intro c hc hvalue hemit
    obtain ⟨k, hk, hcode, hget⟩ := Assembler.emitIndexed_ok hemit hwf.pool hc
    refine ⟨_, hcode, fun x hin m site => ?_⟩
    have hpool : x.pool.get? k = some c := hin.pool.get? hget
    rw [Assembler.perform_loadInstr hk, Memory.pushConstant, hpool, Option.bind_some, hvalue]
  have hinstr : ∀ i, s.asm.emitValue v = (.ok (), s.asm.emit i) → s.Emits i s' := by
    intro i hi
    rw [hasm] at hi
    exact congrArg (fun result => result.2.code) hi
  cases v with
  | number x => exact hconstant (.number x) hv rfl hasm
  | text t => exact hconstant (.text t) trivial rfl hasm
  | boolean b => exact ⟨.pushBool b, hinstr _ rfl, fun _ _ _ _ => rfl⟩
  | mysterious => exact ⟨.pushMysterious, hinstr _ rfl, fun _ _ _ _ => rfl⟩
  | null => exact ⟨.pushNull, hinstr _ rfl, fun _ _ _ _ => rfl⟩

/-- The instruction of a call reaches the routine, with as many values as it takes. -/
theorem emitCall_ok {r : Routine} (h : emitCall r s = (.ok (), s')) (hwf : s.Wf) :
    ∃ i, s.Emits i s' ∧ ∀ x : Executable, s'.Within x → ∀ (m : Memory) (site : Site),
      m.perform site x.pool i = m.callRoutine site r := by
  have hasm : s.asm.emitIndexed (.routine r.hash) (.call · (UInt8.ofNat r.arity)) =
      (.ok (), s'.asm) := by
    rw [emitCall, assemble_apply] at h
    cases hres : s.asm.emitCall r
    rw [hres] at h
    cases h
    exact hres
  obtain ⟨k, hk, hcode, hget⟩ := Assembler.emitIndexed_ok hasm hwf.pool trivial
  refine ⟨_, hcode, fun x hin m site => ?_⟩
  have hpool : x.pool.get? k = some (.routine r.hash) := hin.pool.get? hget
  have hnat : (UInt16.ofNat k).toNat = k := UInt16.toNat_ofNat_of_lt' hk
  show m.call site x.pool (UInt16.ofNat k).toNat (UInt8.ofNat r.arity).toNat = _
  unfold Memory.call
  rw [hnat, hpool]
  simp only [Routine.ofHash?_hash, Routine.toNat_arity, if_true]

theorem emits_of_emit {i : Instr} (h : emit i s = (.ok (), s')) : s.Emits i s' := by
  cases h
  rfl

end CompileM

end Rockstar
