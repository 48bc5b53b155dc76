import Rockstar.Proofs.Decoding
import Rockstar.Proofs.Safety

/-!
# Definite assignment

In compiled code every load from a field stands behind a store to it, and fields are stored to for
the first time in the order of their numbers (`Assigned`). A statement compiles to instructions that
load from slots which the session had before, then to at most one store (`CompileM.statement_ok`);
the store goes to a slot that there was or to the next one. So whole programs are assigned
(`CompileM.assigned_statements`). Code has no jumps, hence a machine has passed all that stands in
front of it (`Machine.Reaches.exists_passed`), and has stored to every field that it loads from.
-/

namespace Rockstar

/-! ## Loads and stores -/

/-- The field that an instruction stores to. -/
def Instr.target? : Instr → Option Nat
  | .setField i => some i.toNat
  | _ => none

/-- The field that an instruction loads from. -/
def Instr.origin? : Instr → Option Nat
  | .getField i => some i.toNat
  | _ => none

/-- The field that is stored to where something was fetched. -/
def Fetch.target? : Fetch → Option Nat
  | .instr i _ _ => i.target?
  | _ => none

/-- The fields that instructions store to, in order. -/
def targets (es : List Entry) : List Nat := es.filterMap (·.instr.target?)

/-- Fields that are stored to for the first time are numbered in order, and whatever is loaded was
stored before. -/
structure Assigned (es : List Entry) (n : Nat) : Prop where
  stores : (targets es).eraseDups = List.range n
  loads : ∀ j e i, es[j]? = some e → e.instr.origin? = some i → i ∈ targets (es.take j)

/-- An instruction that stores nothing, and loads from one of the first fields if from any. -/
def Instr.ReadsBelow (n : Nat) (i : Instr) : Prop :=
  i.target? = none ∧ ∀ k, i.origin? = some k → k < n

theorem Instr.readsBelow_of_none {i : Instr} (htarget : i.target? = none)
    (horigin : i.origin? = none) (n : Nat) : i.ReadsBelow n := by
  refine ⟨htarget, fun k hk => ?_⟩
  rw [horigin] at hk
  cases hk

theorem Instr.target?_eq_some {i : Instr} {k : Nat} (h : i.target? = some k) :
    ∃ j, i = .setField j ∧ j.toNat = k := by
  cases i with
  | setField j =>
    cases h
    exact ⟨j, rfl, rfl⟩
  | _ => cases h

theorem targets_append (es es' : List Entry) : targets (es ++ es') = targets es ++ targets es' :=
  List.filterMap_append

theorem assigned_nil : Assigned [] 0 := ⟨rfl, fun j e i h => by simp at h⟩

namespace Assigned

variable {es : List Entry} {n : Nat}

theorem mem_targets_iff (h : Assigned es n) {i : Nat} : i ∈ targets es ↔ i < n := by
  rw [← List.mem_eraseDups, h.stores, List.mem_range]

theorem origin_lt (h : Assigned es n) {e : Entry} (he : e ∈ es) {i : Nat}
    (hi : e.instr.origin? = some i) : i < n := by
  obtain ⟨j, hj⟩ := List.mem_iff_getElem?.mp he
  have hmem := h.loads j e i hj hi
  rw [← h.mem_targets_iff, ← List.take_append_drop j es, targets_append]
  exact List.mem_append_left _ hmem

/-- Behind assigned code one may write whatever loads only from its fields. -/
theorem loads_append (h : Assigned es n) {more : List Entry}
    (hmore : ∀ e ∈ more, ∀ i, e.instr.origin? = some i → i < n) (j : Nat) (e : Entry) (i : Nat)
    (he : (es ++ more)[j]? = some e) (hi : e.instr.origin? = some i) :
    i ∈ targets ((es ++ more).take j) := by
  rw [List.take_append, targets_append]
  by_cases hj : j < es.length
  · rw [List.getElem?_append_left hj] at he
    exact List.mem_append_left _ (h.loads j e i he hi)
  · rw [List.getElem?_append_right (by omega)] at he
    have hlt := hmore e (List.mem_of_getElem? he) i hi
    rw [List.take_of_length_le (by omega)]
    exact List.mem_append_left _ (h.mem_targets_iff.mpr hlt)

theorem append_reads (h : Assigned es n) {more : List Entry}
    (hmore : ∀ e ∈ more, e.instr.ReadsBelow n) : Assigned (es ++ more) n := by
  refine ⟨?_, h.loads_append fun e he => (hmore e he).2⟩
  have hnone : targets more = [] := List.filterMap_eq_nil_iff.mpr fun e he => (hmore e he).1
  rw [targets_append, hnone, List.append_nil]
  exact h.stores

/-- A store goes to a field that there is, or to the next one. -/
theorem append_store (h : Assigned es n) {e : Entry} {i : Nat} (hi : e.instr.target? = some i)
    (hload : e.instr.origin? = none) :
    (i < n → Assigned (es ++ [e]) n) ∧ (i = n → Assigned (es ++ [e]) (n + 1)) := by
  have htargets : targets (es ++ [e]) = targets es ++ [i] := by
    simp [targets, hi]
  have hnone : ∀ e' ∈ [e], ∀ k, e'.instr.origin? = some k → k < n := by
    simp [hload]
  have hloads := h.loads_append hnone
  constructor
  · intro hlt
    refine ⟨?_, hloads⟩
    have hmem := h.mem_targets_iff.mpr hlt
    simp [htargets, List.eraseDups_append, h.stores, List.cons_removeAll, hmem]
  · rintro rfl
    refine ⟨?_, hloads⟩
    have hnew : i ∉ targets es := fun hmem => Nat.lt_irrefl i (h.mem_targets_iff.mp hmem)
    simp [htargets, List.eraseDups_append, h.stores, List.cons_removeAll, hnew, List.range_succ,
      List.eraseDups_cons]

end Assigned

/-! ## What compilation writes -/

namespace Session

/-- The instructions stand in the second session behind those of the first. -/
def Writes (s : Session) (es : List Entry) (s' : Session) : Prop :=
  s'.asm.code.cells.toList = s.asm.code.cells.toList ++ es.flatMap Entry.cells

theorem Writes.trans {s s' s'' : Session} {es es' : List Entry} (h : s.Writes es s')
    (h' : s'.Writes es' s'') : s.Writes (es ++ es') s'' := by
  unfold Writes at h h' ⊢
  rw [h', h, List.flatMap_append, List.append_assoc]

/-- Between the two sessions nothing but loads from slots of the first were written. -/
structure Reads (s s' : Session) : Prop where
  slots : s'.slots = s.slots
  code : ∃ es, s.Writes es s' ∧ ∀ e ∈ es, e.instr.ReadsBelow s.slots.size

variable {s s' s'' : Session}

theorem Reads.refl (s : Session) : s.Reads s := ⟨rfl, [], by simp [Writes], by simp⟩

theorem Reads.trans (h : s.Reads s') (h' : s'.Reads s'') : s.Reads s'' := by
  obtain ⟨hslots, es, hes, hreads⟩ := h
  obtain ⟨hslots', es', hes', hreads'⟩ := h'
  rw [hslots] at hreads'
  refine ⟨hslots'.trans hslots, es ++ es', ?_, ?_⟩
  · exact hes.trans hes'
  · intro e he
    rcases List.mem_append.mp he with he | he
    · exact hreads e he
    · exact hreads' e he

theorem Emits.writes {i : Instr} (h : s.Emits i s') : s.Writes [⟨s.asm.line, i⟩] s' := by
  unfold Writes
  rw [h, Assembler.emit, Code.cells_append]
  simp [Entry.cells]

theorem Emits.reads {i : Instr} (h : s.Emits i s') (hslots : s'.slots = s.slots)
    (hi : i.ReadsBelow s.slots.size) : s.Reads s' :=
  ⟨hslots, _, h.writes, by simpa using hi⟩

end Session

namespace CompileM

variable {o : Options} {s s' : Session}

theorem reads_emit {i : Instr} (h : emit i s = (.ok (), s')) (hi : i.ReadsBelow s.slots.size) :
    s.Reads s' := by
  have hemits := emits_of_emit h
  cases h
  exact hemits.reads rfl hi

theorem reads_emit_of_none {i : Instr} (h : emit i s = (.ok (), s'))
    (htarget : i.target? = none) (horigin : i.origin? = none) : s.Reads s' :=
  reads_emit h (Instr.readsBelow_of_none htarget horigin _)

/-- An instruction that refers to a constant refers to no field. -/
theorem reads_emitIndexed {c : Constant} {instr : UInt16 → Instr}
    {f : Assembler → Except CompileError Unit × Assembler}
    (hf : ∀ a, f a = a.emitIndexed c instr) (h : assemble f s = (.ok (), s'))
    (hinstr : ∀ k n, (instr k).ReadsBelow n) : s.Reads s' := by
  rw [assemble_apply, hf, Assembler.emitIndexed_eq] at h
  split at h
  · cases h
    exact Session.Emits.reads rfl rfl (hinstr _ _)
  · cases h

theorem readsBelow_loadInstr (k : UInt16) (n : Nat) : (Assembler.loadInstr k).ReadsBelow n := by
  unfold Assembler.loadInstr
  split <;> exact Instr.readsBelow_of_none rfl rfl n

theorem reads_emitValue {v : Value} (h : emitValue v s = (.ok (), s')) : s.Reads s' := by
  cases v with
  | number x => exact reads_emitIndexed (c := .number x) (fun _ => rfl) h readsBelow_loadInstr
  | text t => exact reads_emitIndexed (c := .text t) (fun _ => rfl) h readsBelow_loadInstr
  | boolean b => exact reads_emit_of_none (i := .pushBool b) h rfl rfl
  | mysterious => exact reads_emit_of_none (i := .pushMysterious) h rfl rfl
  | null => exact reads_emit_of_none (i := .pushNull) h rfl rfl

theorem reads_emitCall {r : Routine} (h : emitCall r s = (.ok (), s')) : s.Reads s' :=
  reads_emitIndexed (c := .routine r.hash) (fun _ => rfl) h
    fun _ n => Instr.readsBelow_of_none rfl rfl n

theorem reads_identify {ref : Variable} {i : Identity} (h : identify o ref s = (.ok i, s')) :
    s.Reads s' := by
  obtain ⟨hslots, hasm⟩ := keeps_of_identify h
  exact ⟨hslots, [], by simp [Session.Writes, hasm], by simp⟩

/-- The slot of a name is one of those that there are. -/
theorem readsBelow_getField (hwf : s.slots.Wf) {name : String} {slot : Nat}
    (h : s.slots.find? name = some slot) :
    (Instr.getField (UInt16.ofNat slot)).ReadsBelow s.slots.size := by
  refine ⟨rfl, fun k hk => ?_⟩
  have hlt := hwf.lt_size h
  have hle : (UInt16.ofNat slot).toNat ≤ slot := by
    rw [UInt16.toNat_ofNat']
    exact Nat.mod_le _ _
  cases hk
  omega

theorem reads_readVariable (hwf : s.slots.Wf) {ref : Variable} {kinds : KindSet}
    (h : readVariable o ref s = (.ok kinds, s')) : s.Reads s' := by
  obtain ⟨i, s₁, hidentify, h⟩ := bind_eq_ok h
  obtain ⟨slot?, s₂, hslot, h⟩ := bind_eq_ok h
  have hreads := reads_identify hidentify
  obtain ⟨rfl, hfind, -⟩ := slotToRead_ok hslot
  refine hreads.trans ?_
  rw [← hreads.slots] at hwf
  cases slot? with
  | some slot =>
    obtain ⟨_, s₃, hemit, hkinds⟩ := bind_eq_ok h
    cases hkinds
    exact reads_emit hemit (readsBelow_getField hwf hfind)
  | none =>
    obtain ⟨_, s₃, hemit, hpure⟩ := bind_eq_ok h
    cases hpure
    exact reads_emit_of_none hemit rfl rfl

/-- A plan that is one instruction is one without operands. -/
theorem operands_of_binary? {op : BinaryOp} {left right kinds : KindSet} {i : Instr}
    (h : Plan.binary? op left right = some (.dispatch i, kinds)) : i.operands = [] := by
  cases op with
  | arith op =>
    exfalso
    cases op with
    | add =>
      simp only [Plan.binary?, Plan.addition?, Plan.ofNumbers] at h
      split at h
      · cases h
      · split at h
        · cases h
        · split at h <;> cases h
    | _ =>
      simp only [Plan.binary?, Plan.ofNumbers] at h
      split at h <;> cases h
  | equality positive =>
    cases h
    rfl
  | compare op =>
    simp only [Plan.binary?] at h
    split at h
    · cases h
      rfl
    · cases h
  | logic op =>
    cases h
    rfl

/-- No plan has an instruction for a field. -/
theorem dispatch_of_binary? {op : BinaryOp} {left right kinds : KindSet} {i : Instr}
    (h : Plan.binary? op left right = some (.dispatch i, kinds)) :
    i.target? = none ∧ i.origin? = none := by
  have hnone := operands_of_binary? h
  cases i with
  | getField k => cases hnone
  | setField k => cases hnone
  | _ => exact ⟨rfl, rfl⟩

theorem reads_follow {op : BinaryOp} {left right kinds : KindSet} {plan : Plan}
    (hplan : Plan.binary? op left right = some (plan, kinds))
    (h : follow plan s = (.ok (), s')) : s.Reads s' := by
  cases plan with
  | typed op checkLeft checkRight =>
    have hright : ∀ {s₁ : Session}, follow (.typed op false checkRight) s₁ = (.ok (), s') →
        s₁.Reads s' := by
      intro s₁ h
      cases checkRight with
      | false => exact reads_emit_of_none (i := .arith op) h rfl rfl
      | true =>
        obtain ⟨_, s₂, hcheck, harith⟩ := bind_eq_ok h
        exact (reads_emit_of_none hcheck rfl rfl).trans (reads_emit_of_none harith rfl rfl)
    cases checkLeft with
    | false => exact hright h
    | true =>
      obtain ⟨_, s₁, hcheck, hrest⟩ := bind_eq_ok h
      exact (reads_emit_of_none hcheck rfl rfl).trans (hright hrest)
  | routine r => exact reads_emitCall h
  | dispatch i =>
    obtain ⟨htarget, horigin⟩ := dispatch_of_binary? hplan
    exact reads_emit_of_none h htarget horigin

theorem reads_expr (hwf : s.slots.Wf) {e : Expr} {kinds : KindSet}
    (h : expr o e s = (.ok kinds, s')) : s.Reads s' := by
  induction e generalizing s s' kinds with
  | literal v span =>
    obtain ⟨_, s₁, hvalue, hpure⟩ := bind_eq_ok h
    cases hpure
    exact reads_emitValue hvalue
  | poetic x text span =>
    obtain ⟨_, s₁, hvalue, hpure⟩ := bind_eq_ok h
    cases hpure
    exact reads_emitValue hvalue
  | «variable» ref => exact reads_readVariable hwf h
  | binary op l r ihl ihr =>
    obtain ⟨left, s₁, right, s₂, plan, hl, hr, hplan, hfollow⟩ := expr_binary_ok h
    have hleft := ihl hwf hl
    rw [← hleft.slots] at hwf
    exact hleft.trans ((ihr hwf hr).trans (reads_follow hplan hfollow))
  | negation word e ih =>
    obtain ⟨kinds₁, s₁, he, hemit, -⟩ := expr_negation_ok h
    exact (ih hwf he).trans (reads_emit_of_none hemit rfl rfl)

theorem reads_assignParts (hwf : s.slots.Wf) {target : Variable} {value : Expr} {i : Identity}
    (h : assignParts o target value s = (.ok i, s')) : s.Reads s' := by
  unfold assignParts at h
  split at h
  · obtain ⟨j, s₁, hidentify, h⟩ := bind_eq_ok h
    obtain ⟨kinds, s₂, hexpr, hpure⟩ := bind_eq_ok h
    cases hpure
    have hreads := reads_identify hidentify
    rw [← hreads.slots] at hwf
    exact hreads.trans (reads_expr hwf hexpr)
  · obtain ⟨kinds, s₁, hexpr, hidentify⟩ := bind_eq_ok h
    exact (reads_expr hwf hexpr).trans (reads_identify hidentify)

/-- The parts of the compilation of a step: the variable is read, changed and stored. -/
theorem step_ok (hwf : s.slots.Wf) {direction : Direction} {target : Variable} {count : Nat}
    (h : step o direction target count s = (.ok (), s')) :
    ∃ s₁ i, s.Reads s₁ ∧ store i target.span s₁ = (.ok (), s') := by
  obtain ⟨i, s₁, hidentify, h⟩ := bind_eq_ok h
  obtain ⟨slot?, s₂, hslot, h⟩ := bind_eq_ok h
  have hreads := reads_identify hidentify
  obtain ⟨rfl, hfind, -⟩ := slotToRead_ok hslot
  rw [← hreads.slots] at hwf
  have hrest : ∀ {i' : Instr}, i'.ReadsBelow s₂.slots.size →
      (do
        emit i'
        emit (.expectNumber 0)
        emitValue (.number (Float.ofNat count))
        emit (.arith direction.operation)
        store i target.span : CompileM Unit) s₂ = (.ok (), s') →
      ∃ s₁ i, s.Reads s₁ ∧ store i target.span s₁ = (.ok (), s') := by
    intro i' hi' h
    obtain ⟨_, s₃, hload, h⟩ := bind_eq_ok h
    obtain ⟨_, s₄, hcheck, h⟩ := bind_eq_ok h
    obtain ⟨_, s₅, hvalue, h⟩ := bind_eq_ok h
    obtain ⟨_, s₆, harith, hstore⟩ := bind_eq_ok h
    exact ⟨s₆, i, ((((hreads.trans (reads_emit hload hi')).trans
      (reads_emit_of_none hcheck rfl rfl)).trans (reads_emitValue hvalue)).trans
      (reads_emit_of_none harith rfl rfl)), hstore⟩
  cases slot? with
  | some slot => exact hrest (readsBelow_getField hwf hfind) h
  | none => exact hrest (Instr.readsBelow_of_none (i := .pushMysterious) rfl rfl _) h

/-- What the compilation of a statement writes: instructions that read, then at most a store. -/
theorem statement_ok (hwf : s.slots.Wf) {stmt : Statement}
    (h : statement o stmt s = (.ok (), s')) :
    s.Reads s' ∨ ∃ s₁ i span, s.Reads s₁ ∧ store i span s₁ = (.ok (), s') := by
  obtain ⟨_, s₁, hset, h⟩ := bind_eq_ok h
  have hline : s.Reads s₁ := by
    cases hset
    exact ⟨rfl, [], by simp [Session.Writes, Assembler.setLine], by simp⟩
  rw [← hline.slots] at hwf
  cases stmt with
  | assign target value span =>
    obtain ⟨i, s₂, hparts, hstore⟩ := bind_eq_ok h
    exact .inr ⟨s₂, i, _, hline.trans (reads_assignParts hwf hparts), hstore⟩
  | output verb value span =>
    obtain ⟨kinds, s₂, hexpr, h⟩ := bind_eq_ok h
    obtain ⟨_, s₃, hcall, hwrite⟩ := bind_eq_ok h
    exact .inl (((hline.trans (reads_expr hwf hexpr)).trans (reads_emitCall hcall)).trans
      (reads_emit_of_none hwrite rfl rfl))
  | step direction target count span =>
    obtain ⟨s₂, i, hreads, hstore⟩ := step_ok hwf h
    exact .inr ⟨s₂, i, _, hline.trans hreads, hstore⟩

end CompileM

/-! ## Sessions are assigned -/

/-- The session has written the instructions, and they are assigned with its slots as fields. -/
structure Session.Assigned (s : Session) (es : List Entry) : Prop where
  slots : s.slots.Wf
  code : s.asm.code.Spells es
  order : Rockstar.Assigned es s.slots.size

theorem Session.assigned_start (o : Options) : (Session.start o).Assigned [] :=
  ⟨SlotTable.wf_empty _, rfl, assigned_nil⟩

theorem Session.Writes.spells {s s' : Session} {es more : List Entry} (h : s.Writes more s')
    (hcode : s.asm.code.Spells es) : s'.asm.code.Spells (es ++ more) := by
  unfold Session.Writes at h
  unfold Code.Spells at hcode ⊢
  rw [h, hcode, List.flatMap_append]

namespace CompileM

variable {o : Options} {s s' : Session} {es : List Entry}

theorem assigned_of_reads (h : s.Assigned es) (hreads : s.Reads s') :
    ∃ more, s'.Assigned (es ++ more) ∧ ∀ e ∈ more, e.instr.ReadsBelow s.slots.size := by
  obtain ⟨hslots, more, hwrites, hmore⟩ := hreads
  refine ⟨more, ⟨?_, hwrites.spells h.code, ?_⟩, hmore⟩
  · rw [hslots]
    exact h.slots
  · rw [hslots]
    exact h.order.append_reads hmore

/-- A store goes to the slot of its variable, or makes the next slot and goes there. -/
theorem assigned_store {i : Identity} {span : Span} (h : s.Assigned es)
    (hstore : store i span s = (.ok (), s')) :
    ∃ e : Entry, s'.Assigned (es ++ [e]) ∧ e.instr.origin? = none := by
  obtain ⟨slot, s₁, henter, hemit⟩ := bind_eq_ok hstore
  rw [slotToWrite_apply] at henter
  rcases hresult : s.slots.enter i.name .any span with ⟨result, t⟩
  rw [hresult] at henter
  cases henter
  have hspells := (emits_of_emit hemit).writes.spells h.code
  obtain ⟨hwf, hlimit, -⟩ := h.slots.enter hresult
  have hslot : (UInt16.ofNat slot).toNat = slot := UInt16.toNat_ofNat_of_lt' hlimit
  obtain ⟨hold, hnew⟩ := h.order.append_store
    (e := ⟨s.asm.line, .setField (UInt16.ofNat slot)⟩) rfl rfl
  rw [hslot] at hold hnew
  cases hemit
  refine ⟨_, ⟨hwf, hspells, ?_⟩, rfl⟩
  rcases SlotTable.enter_cases hresult with ⟨hfind, rfl⟩ | ⟨-, -, rfl, rfl⟩
  · exact hold (h.slots.lt_size hfind)
  · show Rockstar.Assigned _ (s.slots.slots.push i.name ⟨s.slots.size, i.name, .any⟩).size
    rw [Registry.size_push]
    exact hnew rfl

/-- A statement loads only from slots that there were before it. -/
theorem assigned_statement {stmt : Statement} (h : s.Assigned es)
    (hstmt : statement o stmt s = (.ok (), s')) :
    ∃ more, s'.Assigned (es ++ more) ∧
      ∀ e ∈ more, ∀ k, e.instr.origin? = some k → k < s.slots.size := by
  rcases statement_ok h.slots hstmt with hreads | ⟨s₁, i, span, hreads, hstore⟩
  · obtain ⟨more, hassigned, hmore⟩ := assigned_of_reads h hreads
    exact ⟨more, hassigned, fun e he => (hmore e he).2⟩
  · obtain ⟨more, hassigned, hmore⟩ := assigned_of_reads h hreads
    obtain ⟨e, hassigned', horigin⟩ := assigned_store hassigned hstore
    refine ⟨more ++ [e], ?_, ?_⟩
    · rw [← List.append_assoc]
      exact hassigned'
    · intro e' he' k hk
      rcases List.mem_append.mp he' with hmem | hmem
      · exact (hmore e' hmem).2 k hk
      · obtain rfl := List.mem_singleton.mp hmem
        rw [horigin] at hk
        cases hk

theorem assigned_statements {program : List Statement} (h : s.Assigned es)
    (hprogram : statements o program s = (.ok (), s')) :
    ∃ more, s'.Assigned (es ++ more) := by
  induction program generalizing s es with
  | nil =>
    cases hprogram
    exact ⟨[], by simpa using h⟩
  | cons stmt rest ih =>
    obtain ⟨_, s₁, hstmt, hrest⟩ := bind_eq_ok hprogram
    obtain ⟨more, hassigned, -⟩ := assigned_statement h hstmt
    obtain ⟨more', hassigned'⟩ := ih hassigned hrest
    rw [List.append_assoc] at hassigned'
    exact ⟨more ++ more', hassigned'⟩

end CompileM

/-! ## Places in code -/

namespace Code

theorem filterMap_target?_placed (offset : Nat) (es : List Entry) :
    (placed offset es).filterMap (·.2.target?) = targets es := by
  induction es generalizing offset with
  | nil => rfl
  | cons e es ih =>
    rw [placed, targets, List.filterMap_cons, List.filterMap_cons, ih]
    rfl

end Code

/-- What is loaded in assigned code is stored to at a smaller offset. -/
theorem Assigned.exists_store {c : Code} {es : List Entry} {n : Nat} (h : Assigned es n)
    (hcode : c.Spells es) {offset line next : Nat} {i : UInt16}
    (hload : (offset, .instr (.getField i) line next) ∈ c.walk) :
    ∃ offset' line' next', offset' < offset ∧
      (offset', .instr (.setField i) line' next') ∈ c.walk := by
  rw [hcode.walk] at hload ⊢
  obtain ⟨j, e, next₁, he, hf, hoffset⟩ := Code.exists_of_mem_placed hload
  simp only [Fetch.instr.injEq] at hf
  have horigin : e.instr.origin? = some i.toNat := by
    rw [← hf.1]
    rfl
  have hmem := h.loads j e i.toNat he horigin
  obtain ⟨e', he', htarget⟩ := List.mem_filterMap.mp hmem
  obtain ⟨i', hi', hsame⟩ := Instr.target?_eq_some htarget
  obtain ⟨offset', next', hmet, hlt⟩ := Code.exists_mem_placed 0 he'
  rw [hi', UInt16.toNat_inj.mp hsame] at hmet
  refine ⟨offset', e'.line, next', by omega, ?_⟩
  rw [← List.take_append_drop j es, Code.placed_append]
  exact List.mem_append_left _ hmet

/-- In assigned code there is a store to every field. -/
theorem Assigned.exists_target {c : Code} {es : List Entry} {n : Nat} (h : Assigned es n)
    (hcode : c.Spells es) {k : Nat} (hk : k < n) :
    ∃ offset i line next, (offset, .instr (.setField i) line next) ∈ c.walk ∧ i.toNat = k := by
  obtain ⟨e, he, htarget⟩ := List.mem_filterMap.mp (h.mem_targets_iff.mpr hk)
  obtain ⟨i, hi, hsame⟩ := Instr.target?_eq_some htarget
  obtain ⟨offset, next, hmet, -⟩ := Code.exists_mem_placed 0 he
  rw [hi, ← hcode.walk] at hmet
  exact ⟨offset, i, e.line, next, hmet, hsame⟩

/-! ## Runs -/

namespace Machine

variable {σ : Type} {sink : Sink σ} {x : Executable}

/-- A store that lets the machine run on has moved the top of the stack into the field. -/
theorem field_of_step_setField {m m' : Machine} {out out' : σ} {i : UInt16} {line next : Nat}
    (hfetch : x.code.fetch m.offset = .instr (.setField i) line next)
    (h : m.step sink x out = .running m' out') :
    ∃ v, m.memory.stack = v :: m'.memory.stack ∧ m'.memory.fields[i.toNat]? = some v := by
  obtain ⟨-, i', line', next', hfetch', happly⟩ := exists_of_step_running h
  rw [hfetch] at hfetch'
  cases hfetch'
  simp only [Memory.perform, Memory.pop] at happly
  cases hstack : m.memory.stack with
  | nil =>
    rw [hstack] at happly
    cases happly
  | cons v rest =>
    rw [hstack] at happly
    dsimp only at happly
    split at happly
    next hlt =>
      cases happly
      exact ⟨v, rfl, by simp [moved, hlt]⟩
    next => cases happly

/-- On assigned code a machine that loads from a field has stored to it on its way. -/
theorem Reaches.exists_store {es : List Entry} {n : Nat} (h : Assigned es n)
    (hcode : x.code.Spells es) {m : Machine} {out out' : σ}
    (hreach : Reaches sink x (Machine.start x) out m out') {i : UInt16} {line next : Nat}
    (hfetch : x.code.fetch m.offset = .instr (.getField i) line next) :
    ∃ m₀ out₀ m₁ out₁ line' next' v,
      Reaches sink x (Machine.start x) out m₀ out₀ ∧
      x.code.fetch m₀.offset = .instr (.setField i) line' next' ∧
      m₀.step sink x out₀ = .running m₁ out₁ ∧
      m₀.memory.stack = v :: m₁.memory.stack ∧ m₁.memory.fields[i.toNat]? = some v ∧
      Reaches sink x m₁ out₁ m out' := by
  have hload := hreach.mem_walkFrom (Code.fetch_instr hfetch).1
  rw [hfetch] at hload
  obtain ⟨offset', line', next', hlt, hstore⟩ := h.exists_store hcode hload
  obtain ⟨m₀, out₀, m₁, out₁, hreach₀, rfl, hstep, hreach₁⟩ := hreach.exists_passed hstore hlt
  have hfetch₀ := (Code.fetch_of_mem_walkFrom hstore).2.2
  obtain ⟨v, hstack, hfield⟩ := field_of_step_setField hfetch₀ hstep
  exact ⟨m₀, out₀, m₁, out₁, line', next', v, hreach₀, hfetch₀, hstep, hstack, hfield, hreach₁⟩

end Machine

/-! ## Programs -/

/-- A slot that a name did not have before a statement is none of those that there were. -/
theorem SlotTable.size_le_of_new {t t' : SlotTable} (h : t.Wf) (h' : t'.Wf)
    (hgrows : t.slots.Grows t'.slots) {name : String} {k : Nat} (hbefore : t.find? name = none)
    (hafter : t'.find? name = some k) : t.size ≤ k := by
  refine Nat.le_of_not_lt fun hlt => ?_
  have hget : t.slots.get? k = some t.slots.entries[k] := Array.getElem?_eq_getElem hlt
  obtain ⟨slot, hslot, hname⟩ := (h'.keyed name k).mp hafter
  have hsame := hgrows.get? hget
  rw [hslot] at hsame
  cases hsame
  have hfound : t.find? name = some k := (h.keyed name k).mpr ⟨_, hget, hname⟩
  rw [hbefore] at hfound
  cases hfound

/-- Neither a statement nor what is before it loads from a slot that the statement makes. -/
theorem CompileM.ne_of_new {o : Options} {before after : List Statement} {stmt : Statement}
    {s s₀ s₁ : Session} (hbefore : statements o before (.start o) = (.ok (), s₀))
    (hstmt : statement o stmt s₀ = (.ok (), s₁)) (hafter : statements o after s₁ = (.ok (), s))
    {name : String} {k : Nat} (hnone : s₀.slots.find? name = none)
    (hsome : s₁.slots.find? name = some k) {offset line next : Nat} {i : UInt16}
    (hload : (offset, .instr (.getField i) line next) ∈ s.finish.code.walk)
    (hlt : offset < s₁.asm.code.size) : i.toNat ≠ k := by
  obtain ⟨es, hassigned₀⟩ := assigned_statements (Session.assigned_start o) hbefore
  obtain ⟨more, hassigned₁, hmore⟩ := assigned_statement hassigned₀ hstmt
  obtain ⟨rest, hassigned⟩ := assigned_statements hassigned₁ hafter
  have hfinish := hassigned.code.append s.asm.line .ret
  rw [List.append_assoc] at hfinish
  obtain ⟨e, he, hinstr⟩ := Code.mem_of_mem_walk hassigned₁.code hfinish hload hlt
  have horigin : e.instr.origin? = some i.toNat := by
    rw [hinstr]
    rfl
  have hold : i.toNat < s₀.slots.size := by
    rcases List.mem_append.mp he with he | he
    · exact hassigned₀.order.origin_lt he horigin
    · exact hmore e he _ horigin
  have hnew : s₀.slots.size ≤ k := SlotTable.size_le_of_new hassigned₀.slots hassigned₁.slots
    ((grows_statement o stmt).of_ok hstmt).slots hnone hsome
  omega

/-- In every program that compiles, variables are assigned before they are read, whatever reading a
variable means that never was. Each load from a field stands behind a store to it; every run, on any
sink and however it ends, has moved a value into a field before it loads from it; the first stores
go to the fields 0, 1, 2 and so on in this order, and there is one for every field. A statement that
gives a variable its slot does not load from it, and neither does anything before the statement. -/
theorem definitely_assigned {o : Options} {program : List Statement} {x : Executable}
    (h : compile o program = .ok x) :
    (∀ offset i line next, (offset, .instr (.getField i) line next) ∈ x.code.walk →
      ∃ offset' line' next', offset' < offset ∧
        (offset', .instr (.setField i) line' next') ∈ x.code.walk) ∧
    (∀ (σ : Type) (sink : Sink σ) (out out' : σ) (m : Machine) i line next,
      Machine.Reaches sink x (Machine.start x) out m out' →
      x.code.fetch m.offset = .instr (.getField i) line next →
      ∃ m₀ out₀ m₁ out₁ line' next' v,
        Machine.Reaches sink x (Machine.start x) out m₀ out₀ ∧
        x.code.fetch m₀.offset = .instr (.setField i) line' next' ∧
        m₀.step sink x out₀ = .running m₁ out₁ ∧
        m₀.memory.stack = v :: m₁.memory.stack ∧ m₁.memory.fields[i.toNat]? = some v ∧
        Machine.Reaches sink x m₁ out₁ m out') ∧
    (x.code.walk.filterMap (·.2.target?)).eraseDups = List.range x.fields.size ∧
    (∀ k < x.fields.size, ∃ offset i line next,
      (offset, .instr (.setField i) line next) ∈ x.code.walk ∧ i.toNat = k) ∧
    ∀ before stmt after, program = before ++ stmt :: after →
      let s := (CompileM.statements o before (.start o)).2
      let s' := (CompileM.statement o stmt s).2
      ∀ name k, s.slots.find? name = none → s'.slots.find? name = some k →
        ∀ offset i line next, (offset, .instr (.getField i) line next) ∈ x.code.walk →
          offset < s'.asm.code.size → i.toNat ≠ k := by
  obtain ⟨s, hstatements, rfl⟩ := exists_session_of_compile h
  obtain ⟨es, hassigned⟩ := CompileM.assigned_statements (Session.assigned_start o) hstatements
  rw [List.nil_append] at hassigned
  -- the return at the end neither loads nor stores
  have hcode : s.finish.code.Spells (es ++ [⟨s.asm.line, .ret⟩]) := hassigned.code.append _ _
  have horder : Assigned (es ++ [⟨s.asm.line, .ret⟩]) s.finish.fields.size :=
    hassigned.order.append_reads fun e he => by
      rw [List.mem_singleton.mp he]
      exact Instr.readsBelow_of_none rfl rfl _
  refine ⟨fun offset i line next => horder.exists_store hcode, ?_, ?_,
    fun k hk => horder.exists_target hcode hk, ?_⟩
  · intro σ sink out out' m i line next hreach hfetch
    exact hreach.exists_store horder hcode hfetch
  · rw [hcode.walk, Code.filterMap_target?_placed]
    exact horder.stores
  · rintro before stmt after rfl s₀ s₁ name k hnone hsome offset i line next hload hlt
    obtain ⟨s₂, hbefore, hrest⟩ := CompileM.statements_append hstatements
    obtain ⟨_, s₃, hstmt, hafter⟩ := CompileM.bind_eq_ok hrest
    obtain rfl : s₀ = s₂ := congrArg Prod.snd hbefore
    obtain rfl : s₁ = s₃ := congrArg Prod.snd hstmt
    exact CompileM.ne_of_new hbefore hstmt hafter hnone hsome hload hlt

/-- A variable that is read in the statement that gives it its slot. -/
def selfProgram : List Statement :=
  [.assign ⟨"X", ⟨1, 5, 1⟩⟩
      (.binary (.equality true) (.variable ⟨"X", ⟨1, 10, 1⟩⟩) (.literal .null ⟨1, 15, 4⟩))
      ⟨1, 1, 18⟩,
    .output .say (.variable ⟨"X", ⟨2, 5, 1⟩⟩) ⟨2, 1, 5⟩]

/-- The variable is mysterious where it has no slot yet, and its field is loaded from in the second
statement only. -/
theorem definitely_assigned_self :
    ∃ x, compile { unbound := .mysterious } selfProgram = .ok x ∧
      (x.code.walk.filterMap (·.2.target?)).eraseDups = List.range x.fields.size ∧
      let s := (CompileM.statement { unbound := .mysterious } selfProgram[0] (.start {})).2
      s.slots.find? "x" = some 0 ∧
      ∀ offset i line next, (offset, .instr (.getField i) line next) ∈ x.code.walk →
        offset < s.asm.code.size → i.toNat ≠ 0 := by
  have hsome : (compile { unbound := .mysterious } selfProgram).toOption.isSome = true := by
    decide +kernel
  obtain ⟨x, hx⟩ := Option.isSome_iff_exists.mp hsome
  have hcompile := eq_ok_of_toOption hx
  obtain ⟨-, -, hstores, -, hnew⟩ := definitely_assigned hcompile
  refine ⟨x, hcompile, hstores, by decide +kernel, ?_⟩
  exact hnew [] selfProgram[0] [selfProgram[1]] rfl "x" 0 (by decide +kernel) (by decide +kernel)

end Rockstar
