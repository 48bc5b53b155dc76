import Mathlib
import Rockstar.Proofs.DefiniteAssignment

/-!
# Constants and the literals they come from

The pool holds one constant for each key (`Pool.Holds`), and numbers that are equal have one key, so
the two zeros share an entry (`Constant.key_eq_iff`). What is loaded from the pool could therefore
differ from what was put in. It never does for the literals of a program: all of them are plain, and
plain numbers with one key are the same to the bit. `Session.Loads` follows the loads that
compilation writes, step by step, together with the literals that they come from
(`CompileM.loads_statements`).
-/

namespace Rockstar

/-! ## Keys -/

/-- One of the two zeros. -/
def IsZero (x : Float) : Prop := x = 0 ∨ x = -0

instance (x : Float) : Decidable (IsZero x) := inferInstanceAs (Decidable (_ ∨ _))

theorem beq_zero_iff (x : Float) : (x == 0) = true ↔ IsZero x := by
  have hzero : (0 : Float) ≠ Float.nan := by decide +kernel
  have hminus : (-0 : Float) ≠ Float.nan := by decide +kernel
  have hne : (0 : Float) ≠ -0 := by decide +kernel
  rw [Float.beq_iff_ne_nan_and_eq]
  constructor
  · rintro ⟨-, -, h | ⟨-, h⟩ | ⟨h, -⟩⟩
    · exact .inl h
    · exact absurd h hne
    · exact .inr h
  · rintro (rfl | rfl)
    · exact ⟨hzero, hzero, .inl rfl⟩
    · exact ⟨hminus, hzero, .inr (.inr ⟨rfl, rfl⟩)⟩

/-- Numbers are equal that have the same bits or are both zero. -/
theorem beq_iff {x y : Float} (hx : x ≠ Float.nan) (hy : y ≠ Float.nan) :
    (x == y) = true ↔ x = y ∨ IsZero x ∧ IsZero y := by
  rw [Float.beq_iff_ne_nan_and_eq]
  constructor
  · rintro ⟨-, -, h | ⟨h, h'⟩ | ⟨h, h'⟩⟩
    · exact .inl h
    · exact .inr ⟨.inl h, .inr h'⟩
    · exact .inr ⟨.inr h, .inl h'⟩
  · rintro (h | ⟨rfl | rfl, rfl | rfl⟩)
    · exact ⟨hx, hy, .inl h⟩
    · exact ⟨hx, hy, .inl rfl⟩
    · exact ⟨hx, hy, .inr (.inl ⟨rfl, rfl⟩)⟩
    · exact ⟨hx, hy, .inr (.inr ⟨rfl, rfl⟩)⟩
    · exact ⟨hx, hy, .inl rfl⟩

theorem isZero_of_toBits {x : Float} (h : x.toBits.toNat = 0) : IsZero x := by
  have hbits : x.toBits = (0 : Float).toBits := by
    rw [show (0 : Float).toBits = 0 by decide +kernel]
    exact UInt64.toNat_inj.mp h
  exact .inl (Float.toBits_inj.mp hbits)

namespace Constant

/-- Constants that share an entry of the pool: equal numbers, all numbers that are not one, equal
texts and equal routines. -/
def Shares : Constant → Constant → Prop
  | .number x, .number y => (x == y) = true ∨ x.isNaN = true ∧ y.isNaN = true
  | .text s, .text t => s = t
  | .routine h, .routine k => h = k
  | _, _ => False

theorem key_number (x : Float) : (number x).key =
    if x = Float.nan then [0] else [0, if IsZero x then 0 else x.toBits.toNat] := by
  simp only [key, beq_zero_iff, Float.isNaN_eq_decide_eq_nan, decide_eq_true_eq]

theorem key_number_eq_iff (x y : Float) :
    (number x).key = (number y).key ↔ (number x).Shares (number y) := by
  simp only [Shares]
  rw [key_number, key_number, Float.isNaN_eq_decide_eq_nan, Float.isNaN_eq_decide_eq_nan,
    decide_eq_true_eq, decide_eq_true_eq]
  by_cases hx : x = Float.nan
  · by_cases hy : y = Float.nan
    · simp [hx, hy]
    · simp [hx, hy]
  by_cases hy : y = Float.nan
  · simp [hx, hy]
  rw [if_neg hx, if_neg hy, beq_iff hx hy]
  by_cases hzx : IsZero x
  · by_cases hzy : IsZero y
    · simp [hzx, hzy]
    · have hne : x ≠ y := fun h => hzy (h ▸ hzx)
      have hbits : (0 : Nat) ≠ y.toBits.toNat := fun h => hzy (isZero_of_toBits h.symm)
      simp [hx, hzx, hzy, hne, hbits]
  · by_cases hzy : IsZero y
    · have hne : x ≠ y := fun h => hzx (h ▸ hzy)
      have hbits : x.toBits.toNat ≠ 0 := fun h => hzx (isZero_of_toBits h)
      simp [hx, hzx, hzy, hne, hbits]
    · simp [hx, hzx, hzy, UInt64.toNat_inj, Float.toBits_inj]

/-- Constants have one key exactly when they share an entry. -/
theorem key_eq_iff (c d : Constant) : c.key = d.key ↔ c.Shares d := by
  cases c with
  | number x =>
    obtain ⟨rest, hx⟩ := exists_key_number x
    cases d with
    | number y => exact key_number_eq_iff x y
    | text t =>
      rw [hx]
      simp [key, Shares]
    | routine k =>
      rw [hx]
      simp [key, Shares]
  | text s =>
    cases d with
    | number y =>
      obtain ⟨rest, hy⟩ := exists_key_number y
      rw [hy]
      simp [key, Shares]
    | text t =>
      simp only [key, Shares, List.cons.injEq, true_and]
      rw [List.map_inj_right fun a b hab => Char.toNat_inj.mp hab, String.toList_inj]
    | routine k => simp [key, Shares]
  | routine j =>
    cases d with
    | number y =>
      obtain ⟨rest, hy⟩ := exists_key_number y
      rw [hy]
      simp [key, Shares]
    | text t => simp [key, Shares]
    | routine k => simp [key, Shares, UInt64.toNat_inj]

end Constant

/-! ## Pools -/

namespace Pool

theorem addAll_append (p : Pool) (cs ds : List Constant) :
    p.addAll (cs ++ ds) = (p.addAll cs).addAll ds := List.foldl_append

theorem grows_addAll (p : Pool) (cs : List Constant) : p.table.Grows (p.addAll cs).table := by
  induction cs generalizing p with
  | nil => exact .refl _
  | cons c cs ih => exact (grows_add p c).trans (ih (p.add c).2)

/-- The pool has one entry for each key among the constants, which is the first constant with that
key. -/
structure Holds (p : Pool) (cs : List Constant) : Prop where
  lists : p.table.Lists Constant.key (cs.map Constant.key)
  first : ∀ i c, p.get? i = some c → cs.find? (·.key = c.key) = some c

variable {p : Pool} {cs : List Constant}

theorem holds_empty : Pool.empty.Holds [] where
  lists := ⟨Registry.keyed_empty _, rfl⟩
  first := by
    intro i c h
    simp [Pool.empty, Pool.get?, Registry.get?, Registry.empty] at h

/-- What one addition preserves. -/
theorem Holds.add (h : p.Holds cs) (c : Constant) : (p.add c).2.Holds (cs ++ [c]) where
  lists := by
    rw [List.map_append]
    exact h.lists.enter c
  first := by
    intro i d hd
    rw [List.find?_append]
    cases hfind : p.table.find? c.key with
    | some k =>
      have hsame : (p.add c).2 = p := by
        unfold Pool.add Registry.enter
        rw [hfind]
      rw [hsame] at hd
      rw [h.first i d hd]
      rfl
    | none =>
      have hpush : (p.add c).2.table = p.table.push c.key c := by
        unfold Pool.add Registry.enter
        rw [hfind]
      unfold Pool.get? at hd
      rw [hpush, Registry.get?_push] at hd
      split at hd
      next =>
        -- the key is new, so no constant before this one has it
        obtain rfl := Option.some.inj hd
        have hnone : cs.find? (fun d => d.key = c.key) = none := by
          rw [List.find?_eq_none]
          intro d hmem hkey
          have hold := (h.lists.mem_iff c.key).mp (by
            rw [← of_decide_eq_true hkey]
            exact List.mem_map_of_mem hmem)
          rw [hfind] at hold
          obtain ⟨k, hk⟩ := hold
          cases hk
        rw [hnone]
        simp
      next =>
        rw [h.first i d hd]
        rfl

theorem Holds.addAll (h : p.Holds cs) (ds : List Constant) : (p.addAll ds).Holds (cs ++ ds) := by
  induction ds generalizing p cs with
  | nil => simpa [Pool.addAll] using h
  | cons d ds ih =>
    have hrest := ih (h.add d)
    rw [List.append_assoc] at hrest
    exact hrest

/-- The number that an addition gives is that of the first constant with the key. -/
theorem Holds.get?_add (h : p.Holds cs) (c : Constant) :
    (p.add c).2.get? (p.add c).1 = (cs ++ [c]).find? (·.key = c.key) := by
  obtain ⟨-, found, hfound, hkey⟩ := h.lists.keyed.enter c
  have hget : (p.add c).2.get? (p.add c).1 = some found := hfound
  rw [hget, ← hkey]
  exact ((h.add c).first _ _ hget).symm

end Pool

/-! ## Loads -/

/-- The constant that a value is loaded from, if it is not loaded by an instruction of its own. -/
def Value.constant? : Value → Option Constant
  | .number x => some (.number x)
  | .text s => some (.text s)
  | _ => none

/-- Whether the instruction loads a constant. -/
def Instr.isLoad : Instr → Bool
  | .constant _ => true
  | .constantWide _ => true
  | _ => false

/-- Whether an instruction was fetched that loads a constant. -/
def Fetch.isLoad : Fetch → Bool
  | .instr i _ _ => i.isLoad
  | _ => false

/-- The literals that are loaded from the pool, all on one line. -/
def pooled (line : Nat) (literals : List Value) : List (Nat × Value) :=
  (literals.filter (·.constant?.isSome)).map (line, ·)

theorem pooled_append (line : Nat) (vs ws : List Value) :
    pooled line (vs ++ ws) = pooled line vs ++ pooled line ws := by
  simp [pooled]

/-- The literals of a statement that are loaded from the pool, each with the line of the
statement. -/
def Statement.pooled (stmt : Statement) : List (Nat × Value) :=
  Rockstar.pooled stmt.span.line stmt.literals

/-- The instruction stands on the line of the literal and pushes it, from whatever memory. -/
def Executable.Pushes (x : Executable) (line : Nat) (i : Instr) (literal : Nat × Value) : Prop :=
  line = literal.1 ∧
    ∀ (m : Memory) (site : Site), m.perform site x.pool i = .proceed (m.push literal.2)

/-- Between the two sessions the literals were put into the pool, and an instruction was written for
each that loads it. -/
def Session.Loads (x : Executable) (s : Session) (literals : List (Nat × Value)) (s' : Session) :
    Prop :=
  ∃ es added, s.Writes es s' ∧ s'.asm.pool = s.asm.pool.addAll added ∧
    added.filterMap Constant.value? = literals.map Prod.snd ∧
    List.Forall₂ (fun e literal => x.Pushes e.line e.instr literal)
      (es.filter (·.instr.isLoad)) literals

namespace Session

variable {x : Executable} {s s' s'' : Session} {us vs : List (Nat × Value)}

theorem loads_of_asm (hcode : s'.asm.code = s.asm.code) (hpool : s'.asm.pool = s.asm.pool) :
    s.Loads x [] s' :=
  ⟨[], [], by simp [Writes, hcode], hpool, rfl, .nil⟩

theorem Loads.trans (h : s.Loads x us s') (h' : s'.Loads x vs s'') :
    s.Loads x (us ++ vs) s'' := by
  obtain ⟨es, cs, hes, hpool, hvalues, hloads⟩ := h
  obtain ⟨es', cs', hes', hpool', hvalues', hloads'⟩ := h'
  refine ⟨es ++ es', cs ++ cs', ?_, ?_, ?_, ?_⟩
  · exact hes.trans hes'
  · rw [hpool', hpool, Pool.addAll_append]
  · rw [List.filterMap_append, hvalues, hvalues', List.map_append]
  · rw [List.filter_append]
    exact List.rel_append hloads hloads'

theorem Emits.loads {i : Instr} (h : s.Emits i s') (hpool : s'.asm.pool = s.asm.pool)
    (hi : i.isLoad = false) : s.Loads x [] s' :=
  ⟨_, [], h.writes, hpool, rfl, by simp [hi]⟩

end Session

namespace CompileM

variable {o : Options} {x : Executable} {s s' : Session}

theorem loads_emit {i : Instr} (h : emit i s = (.ok (), s')) (hi : i.isLoad = false) :
    s.Loads x [] s' := by
  have hemits := emits_of_emit h
  cases h
  exact hemits.loads rfl hi

/-- What an instruction that refers to a constant does to the session. -/
theorem emits_of_emitIndexed {c : Constant} {instr : UInt16 → Instr}
    {f : Assembler → Except CompileError Unit × Assembler}
    (hf : ∀ a, f a = a.emitIndexed c instr) (h : assemble f s = (.ok (), s')) :
    (s.asm.pool.add c).1 < indexLimit ∧
      s.Emits (instr (UInt16.ofNat (s.asm.pool.add c).1)) s' ∧
      s'.asm.pool = s.asm.pool.addAll [c] := by
  rw [assemble_apply, hf, Assembler.emitIndexed_eq] at h
  split at h
  next hlt =>
    cases h
    exact ⟨hlt, rfl, rfl⟩
  next => cases h

/-- A plain constant is loaded back bit for bit. -/
theorem loads_emitConstant {c : Constant} {v : Value} (hc : c.IsPlain) (hvalue : c.value? = some v)
    (hv : ∀ a : Assembler, a.emitValue v = a.emitIndexed c Assembler.loadInstr)
    (h : emitValue v s = (.ok (), s')) (hs : s.Wf) (hin : s'.Within x) :
    s.Loads x [(s.asm.line, v)] s' := by
  obtain ⟨hlt, hemits, hpool⟩ := emits_of_emitIndexed hv h
  have hload : ∀ k, (Assembler.loadInstr k).isLoad = true := by
    intro k
    unfold Assembler.loadInstr
    split <;> rfl
  refine ⟨_, [c], hemits.writes, hpool, by simp [hvalue], ?_⟩
  have hget : x.pool.get? (s.asm.pool.add c).1 = some c := by
    refine hin.pool.get? ?_
    rw [hpool]
    exact (hs.pool.add hc).2
  simp only [List.filter_cons, hload, if_true, List.filter_nil]
  refine .cons ⟨rfl, fun m site => ?_⟩ .nil
  rw [Assembler.perform_loadInstr hlt, Memory.pushConstant, hget, Option.bind_some, hvalue]

theorem loads_emitValue {v : Value} (h : emitValue v s = (.ok (), s')) (hs : s.Wf)
    (hv : v.IsPlain) (hin : s'.Within x) : s.Loads x (pooled s.asm.line [v]) s' := by
  cases v with
  | number y => exact loads_emitConstant (c := .number y) hv rfl (fun _ => rfl) h hs hin
  | text t => exact loads_emitConstant (c := .text t) trivial rfl (fun _ => rfl) h hs hin
  | boolean b => exact loads_emit (i := .pushBool b) h rfl
  | mysterious => exact loads_emit (i := .pushMysterious) h rfl
  | null => exact loads_emit (i := .pushNull) h rfl

theorem loads_emitCall {r : Routine} (h : emitCall r s = (.ok (), s')) : s.Loads x [] s' := by
  have hcall : ∀ a : Assembler, a.emitCall r =
      a.emitIndexed (.routine r.hash) (.call · (UInt8.ofNat r.arity)) := fun _ => rfl
  obtain ⟨-, hemits, hpool⟩ := emits_of_emitIndexed hcall h
  exact ⟨_, [.routine r.hash], hemits.writes, hpool, rfl, by simp [Instr.isLoad]⟩

theorem loads_identify {ref : Variable} {i : Identity} (h : identify o ref s = (.ok i, s')) :
    s.Loads x [] s' := by
  obtain ⟨-, hasm⟩ := keeps_of_identify h
  exact Session.loads_of_asm (by rw [hasm]) (by rw [hasm])

theorem loads_follow {op : BinaryOp} {left right kinds : KindSet} {plan : Plan}
    (hplan : Plan.binary? op left right = some (plan, kinds))
    (h : follow plan s = (.ok (), s')) : s.Loads x [] s' := by
  cases plan with
  | typed op checkLeft checkRight =>
    rw [follow_typed] at h
    have hcheck : ∀ {b d} {s₁ s₂ : Session}, check b d s₁ = (.ok (), s₂) → s₁.Loads x [] s₂ := by
      intro b d s₁ s₂ h
      unfold check at h
      cases b with
      | true => exact loads_emit (i := .expectNumber d) h rfl
      | false =>
        cases h
        exact Session.loads_of_asm rfl rfl
    obtain ⟨_, s₁, hleft, h⟩ := bind_eq_ok h
    obtain ⟨_, s₂, hright, harith⟩ := bind_eq_ok h
    exact (hcheck hleft).trans ((hcheck hright).trans (loads_emit harith rfl))
  | routine r => exact loads_emitCall h
  | dispatch i =>
    have hoperands := operands_of_binary? hplan
    refine loads_emit h ?_
    cases i with
    | constant k => cases hoperands
    | constantWide k => cases hoperands
    | _ => rfl

theorem isLoad_readInstr (slot? : Option Nat) : (readInstr slot?).isLoad = false := by
  cases slot? <;> rfl

theorem loads_readVariable {ref : Variable} {kinds : KindSet}
    (h : readVariable o ref s = (.ok kinds, s')) : s.Loads x [] s' := by
  obtain ⟨i, slot?, s₁, hidentify, hemit⟩ := readVariable_ok h
  exact (loads_identify hidentify).trans (loads_emit hemit (isLoad_readInstr slot?))

/-- The code of an expression loads its literals, from left to right. -/
theorem loads_expr {e : Expr} {kinds : KindSet} (h : expr o e s = (.ok kinds, s')) (hs : s.Wf)
    (he : ∀ v ∈ e.literals, v.IsPlain) (hin : s'.Within x) :
    s.Loads x (pooled s.asm.line e.literals) s' := by
  induction e generalizing s s' kinds with
  | literal v span =>
    obtain ⟨_, s₁, hvalue, hpure⟩ := bind_eq_ok h
    cases hpure
    exact loads_emitValue hvalue hs (he v (by simp [Expr.literals])) hin
  | poetic y text span =>
    obtain ⟨_, s₁, hvalue, hpure⟩ := bind_eq_ok h
    cases hpure
    exact loads_emitValue hvalue hs (he _ (by simp [Expr.literals])) hin
  | «variable» ref => exact loads_readVariable h
  | binary op l r ihl ihr =>
    obtain ⟨left, s₁, right, s₂, plan, hl, hr, hplan, hfollow⟩ := expr_binary_ok h
    have hleft : ∀ v ∈ l.literals, v.IsPlain := fun v hv => he v (by simp [Expr.literals, hv])
    have hright : ∀ v ∈ r.literals, v.IsPlain := fun v hv => he v (by simp [Expr.literals, hv])
    have hin₂ := hin.of_grows
      ((respects_follow (grows_passesAll o).toPassesCode plan).of_ok hfollow)
    have hin₁ := hin₂.of_grows ((grows_expr o r).of_ok hr)
    have hfirst := ihl hl hs hleft hin₁
    have hsecond := ihr hr ((wf_expr o hleft).of_ok hl hs) hright hin₂
    rw [((keeps_expr o l).of_ok hl).line] at hsecond
    have hall := hfirst.trans (hsecond.trans (loads_follow hplan hfollow))
    rwa [List.append_nil, ← pooled_append] at hall
  | negation word e ih =>
    obtain ⟨kinds₁, s₁, he', hemit, -⟩ := expr_negation_ok h
    have hin₁ := hin.of_grows (((grows_passesAll o).emit _).of_ok hemit)
    have hall := (ih he' hs he hin₁).trans (loads_emit hemit rfl)
    rwa [List.append_nil] at hall

theorem loads_store {i : Identity} {span : Span} (h : store i span s = (.ok (), s')) :
    s.Loads x [] s' := by
  obtain ⟨slot, s₁, hslot, hemit⟩ := bind_eq_ok h
  rw [slotToWrite_apply] at hslot
  have hasm : s₁.asm = s.asm := by rw [← (Prod.mk.inj hslot).2]
  have hfirst : s.Loads x [] s₁ := Session.loads_of_asm (by rw [hasm]) (by rw [hasm])
  exact hfirst.trans (loads_emit hemit rfl)

theorem loads_assignParts {target : Variable} {value : Expr} {i : Identity}
    (h : assignParts o target value s = (.ok i, s')) (hs : s.Wf)
    (hvalue : ∀ v ∈ value.literals, v.IsPlain) (hin : s'.Within x) :
    s.Loads x (pooled s.asm.line value.literals) s' := by
  unfold assignParts at h
  split at h
  · obtain ⟨j, s₁, hidentify, h⟩ := bind_eq_ok h
    obtain ⟨kinds, s₂, hexpr, hpure⟩ := bind_eq_ok h
    cases hpure
    have hs₁ := ((wf_passesAll o).identify target).of_ok hidentify hs
    have hexprs := loads_expr hexpr hs₁ hvalue hin
    rw [(keeps_of_identify hidentify).2] at hexprs
    exact (loads_identify hidentify).trans hexprs
  · obtain ⟨kinds, s₁, hexpr, hidentify⟩ := bind_eq_ok h
    have hin₁ := hin.of_grows (((grows_passesAll o).identify target).of_ok hidentify)
    have hall := (loads_expr hexpr hs hvalue hin₁).trans (loads_identify hidentify)
    rwa [List.append_nil] at hall

/-- A step loads its count. -/
theorem loads_step {direction : Direction} {target : Variable} {count : Nat}
    (h : step o direction target count s = (.ok (), s')) (hs : s.Wf) (hin : s'.Within x) :
    s.Loads x (pooled s.asm.line [.number (Float.ofNat count)]) s' := by
  obtain ⟨i, slot?, s₁, s₂, s₃, s₄, s₅, hidentify, hread, hcheck, hcount, harith, hstore⟩ :=
    step_parts_ok h
  have hs₁ := ((wf_passesAll o).identify target).of_ok hidentify hs
  have hs₂ := ((wf_passesAll o).emit _).of_ok hread hs₁
  have hs₃ := ((wf_passesAll o).emit _).of_ok hcheck hs₂
  have hin₅ := hin.of_grows ((respects_store (grows_passesAll o) i target.span).of_ok hstore)
  have hin₄ := hin₅.of_grows (((grows_passesAll o).emit _).of_ok harith)
  have hline : s₃.asm.line = s.asm.line := by
    rw [(((keeps_passes o).emit _).of_ok hcheck).line, (((keeps_passes o).emit _).of_ok hread).line,
      (((keeps_passes o).identify target).of_ok hidentify).line]
  have hliteral := loads_emitValue hcount hs₃ (Decimal.isPlain_ofNat count) hin₄
  rw [hline] at hliteral
  have hbefore : s.Loads x [] s₃ :=
    (loads_identify hidentify).trans
      ((loads_emit hread (isLoad_readInstr slot?)).trans (loads_emit hcheck rfl))
  exact hbefore.trans (hliteral.trans ((loads_emit harith rfl).trans (loads_store hstore)))

/-- The code of a statement loads its literals, on the line of the statement. -/
theorem loads_statement {stmt : Statement} (h : statement o stmt s = (.ok (), s')) (hs : s.Wf)
    (hplain : ∀ v ∈ stmt.literals, v.IsPlain) (hin : s'.Within x) :
    s.Loads x stmt.pooled s' := by
  obtain ⟨_, s₁, hset, h⟩ := bind_eq_ok h
  have hs₁ := ((wf_passesAll o).setLine _).of_ok hset hs
  have hline : s.Loads x [] s₁ ∧ s₁.asm.line = stmt.span.line := by
    cases hset
    exact ⟨Session.loads_of_asm rfl rfl, rfl⟩
  unfold Statement.pooled
  rw [← hline.2]
  refine hline.1.trans ?_
  cases stmt with
  | assign target value span =>
    obtain ⟨i, s₂, hparts, hstore⟩ := bind_eq_ok h
    have hin₂ := hin.of_grows ((respects_store (grows_passesAll o) i target.span).of_ok hstore)
    have hall := (loads_assignParts hparts hs₁ hplain hin₂).trans (loads_store hstore)
    rwa [List.append_nil] at hall
  | output verb value span =>
    obtain ⟨kinds, s₂, hexpr, h⟩ := bind_eq_ok h
    obtain ⟨_, s₃, hcall, hwrite⟩ := bind_eq_ok h
    have hin₃ := hin.of_grows (((grows_passesAll o).emit _).of_ok hwrite)
    have hin₂ := hin₃.of_grows (((grows_passesAll o).emitCall _).of_ok hcall)
    have hall := (loads_expr hexpr hs₁ hplain hin₂).trans
      ((loads_emitCall hcall).trans (loads_emit hwrite rfl))
    rwa [List.append_nil, List.append_nil] at hall
  | step direction target count span => exact loads_step h hs₁ hin

theorem loads_statements {program : List Statement} (h : statements o program s = (.ok (), s'))
    (hs : s.Wf) (hplain : ∀ stmt ∈ program, ∀ v ∈ stmt.literals, v.IsPlain) (hin : s'.Within x) :
    s.Loads x (program.flatMap Statement.pooled) s' := by
  induction program generalizing s with
  | nil =>
    cases h
    exact Session.loads_of_asm rfl rfl
  | cons stmt rest ih =>
    obtain ⟨_, s₁, hstmt, hrest⟩ := bind_eq_ok h
    have hin₁ := hin.of_grows ((grows_statements o rest).of_ok hrest)
    have hfirst := hplain stmt (by simp)
    exact (loads_statement hstmt hs hfirst hin₁).trans
      (ih hrest ((wf_statement o hfirst).of_ok hstmt hs)
        fun other hother => hplain other (by simp [hother]))

end CompileM

/-! ## Programs -/

/-- What a walk met is an instruction on the line of the literal that pushes it. -/
def Executable.LoadsAt (x : Executable) (met : Nat × Fetch) (literal : Nat × Value) : Prop :=
  ∃ i line next, met.2 = .instr i line next ∧ x.Pushes line i literal

/-- A walk meets the loads that were written. -/
theorem Executable.loadsAt_placed {x : Executable} {es : List Entry}
    {literals : List (Nat × Value)}
    (h : List.Forall₂ (fun e literal => x.Pushes e.line e.instr literal)
      (es.filter (·.instr.isLoad)) literals) (offset : Nat) :
    List.Forall₂ x.LoadsAt ((Code.placed offset es).filter (·.2.isLoad)) literals := by
  induction es generalizing offset literals with
  | nil =>
    cases h
    exact .nil
  | cons e es ih =>
    rw [Code.placed]
    by_cases hload : e.instr.isLoad = true
    · simp only [List.filter_cons, Fetch.isLoad, hload, if_true] at h ⊢
      cases h with
      | cons hfirst hrest => exact .cons ⟨_, _, _, rfl, hfirst⟩ (ih hrest _)
    · simp only [List.filter_cons, Fetch.isLoad, hload] at h ⊢
      exact ih h _

/-- The constant pool, and what it does to literals. Two constants have one key when they are equal
numbers, two numbers that are not one, or equal otherwise. Whatever constants are added to a pool,
no two entries have one key, entries stay where and as they are, an addition gives the number of
the first constant that was added with the key, and there are as many entries as keys. Where a
source compiles, all numbers that go into the pool have a clear sign bit and are numbers, and they
are, with the texts, the literals of the program in order, poetic numbers and the counts of steps
among them. The loads of constants in the code, in order, each stand on the line of the statement
and push the literal as it was written, bit for bit. -/
theorem literals_survive_pooling {o : Options} {source : String} {x : Executable}
    (h : compileSource o source = .ok x) (constants : List Constant) :
    (∀ c d : Constant, c.key = d.key ↔ c.Shares d) ∧
    (let p := Pool.empty.addAll constants
     (∀ i j c d, p.get? i = some c → p.get? j = some d → c.key = d.key → i = j) ∧
     (∀ more i c, p.get? i = some c → (p.addAll more).get? i = some c) ∧
     (∀ c, (p.add c).2.get? (p.add c).1 = (constants ++ [c]).find? (·.key = c.key)) ∧
     p.size = (constants.map Constant.key).eraseDups.length) ∧
    ∃ program added, parse o.vocabulary source.toList = .ok program ∧
      x.pool = Pool.empty.addAll added ∧
      (∀ y, .number y ∈ added → y.isNaN = false ∧ Decimal.isNegative y = false) ∧
      added.filterMap Constant.value? = (program.flatMap Statement.pooled).map Prod.snd ∧
      List.Forall₂ x.LoadsAt (x.code.walk.filter (·.2.isLoad))
        (program.flatMap Statement.pooled) := by
  refine ⟨Constant.key_eq_iff, ?_, ?_⟩
  · intro p
    have hholds : p.Holds constants := Pool.holds_empty.addAll constants
    refine ⟨?_, fun more i c hc => (p.grows_addAll more).get? hc, hholds.get?_add, ?_⟩
    · intro i j c d hc hd hkey
      have hfirst := (hholds.lists.keyed c.key i).mpr ⟨c, hc, rfl⟩
      rw [(hholds.lists.keyed c.key j).mpr ⟨d, hd, hkey.symm⟩] at hfirst
      exact (Option.some.inj hfirst).symm
    · exact hholds.lists.size_eq
  · obtain ⟨program, hparse, hcompile⟩ := exists_of_compileSource (r := .ok x) h
    obtain ⟨s, hstatements, rfl⟩ := exists_session_of_compile hcompile
    have hplain := (source_of_parse hparse).literals
    obtain ⟨es, added, hwrites, hpool, hvalues, hloads⟩ :=
      CompileM.loads_statements hstatements (Session.wf_start o) hplain s.within_finish
    refine ⟨program, added, hparse, hpool, ?_, hvalues, ?_⟩
    · intro y hy
      -- a number in the pool is a literal of some statement
      have hvalue : Value.number y ∈ (program.flatMap Statement.pooled).map Prod.snd := by
        rw [← hvalues]
        exact List.mem_filterMap.mpr ⟨.number y, hy, rfl⟩
      obtain ⟨literal, hliteral, hnumber⟩ := List.mem_map.mp hvalue
      obtain ⟨stmt, hstmt, hpooled⟩ := List.mem_flatMap.mp hliteral
      obtain ⟨v, hv, rfl⟩ := List.mem_map.mp hpooled
      obtain rfl : v = .number y := hnumber
      exact hplain stmt hstmt _ (List.mem_of_mem_filter hv)
    · have hspells : s.asm.code.Spells es := hwrites.spells Code.spells_empty
      have hfinish : s.finish.code.Spells (es ++ [⟨s.asm.line, .ret⟩]) := hspells.append _ _
      rw [hfinish.walk]
      refine Executable.loadsAt_placed ?_ 0
      rw [List.filter_append]
      simpa [Instr.isLoad] using hloads

/-- Four literals, two of which are the same; the last is the count of a step. -/
def sharingSource : String := "X is 0\nPut 5 into Y\nShout Y times 5\nBuild X up"

/-- The negative zero is given the entry of the other one. The program has a load for each of its
literals. -/
theorem literals_survive_pooling_sharing :
    ((Pool.empty.addAll [.number 0]).add (.number (-0))).2.get? 0 = some (.number 0) ∧
    ∃ x, compileSource {} sharingSource = .ok x ∧
      List.Forall₂ x.LoadsAt (x.code.walk.filter (·.2.isLoad))
        [(1, .number 0), (2, .number 5), (3, .number 5), (4, .number 1)] := by
  have hsome : (compileSource {} sharingSource).toOption.isSome = true := by decide +kernel
  obtain ⟨x, hx⟩ := Option.isSome_iff_exists.mp hsome
  have hsource := eq_ok_of_toOption hx
  have hliterals : (parse (Options.vocabulary {}) sharingSource.toList).toOption.map
      (·.flatMap Statement.pooled) =
        some [(1, .number 0), (2, .number 5), (3, .number 5), (4, .number 1)] := by
    decide +kernel
  obtain ⟨-, ⟨-, -, hadd, -⟩, program, added, hparse, -, -, -, hloads⟩ :=
    literals_survive_pooling hsource [.number 0]
  constructor
  · have hzero := hadd (.number (-0))
    have hfirst : ([.number 0] ++ [.number (-0)] : List Constant).find?
        (·.key = (Constant.number (-0)).key) = some (.number 0) := by
      decide +kernel
    have hindex : ((Pool.empty.addAll [.number 0]).add (.number (-0))).1 = 0 := by decide +kernel
    rw [hindex, hfirst] at hzero
    exact hzero
  · refine ⟨x, hsource, ?_⟩
    rw [hparse] at hliterals
    rw [← Option.some.inj hliterals]
    exact hloads

end Rockstar
