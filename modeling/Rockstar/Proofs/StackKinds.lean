import Rockstar.Proofs.Beginnings
import Rockstar.Proofs.Resumption

/-!
# The kinds of the values on the stack

Code says by itself which kinds of values are on the stack where. `Instr.kindsAfter?` works out from
the kinds before an instruction those behind it; it gives none where the instruction could meet a
value that it does not take, in particular where arithmetic could meet something else than a number.
It is sound (`Memory.perform_leaves`): whatever the machine does, it leaves values of these kinds,
and only a check stops because a value is no number.

Compiled code has kinds everywhere, and at the end of an expression they are those that the compiler
has worked out for it (`CompileM.leads_expr`), since the compiler drops a check only where the kinds
of the operand make up for it. So the kinds that the compiler assumes are right, and arithmetic
never has to stop (`kinds_sound`).
-/

namespace Rockstar

/-! ## Kinds along code -/

/-- The kind of the value that loading a constant gives. -/
def Constant.kind? (c : Constant) : Option Kind := c.value?.map Value.kind

/-- The routine that a constant refers to, if it takes the given number of values. -/
def Pool.routine? (p : Pool) (i argc : Nat) : Option Routine :=
  match p.get? i with
  | some (.routine h) => (Routine.ofHash? h).filter (argc = ·.arity)
  | _ => none

/-- The kinds without those of the values on top that an instruction takes, if there are as many. -/
def taking? : Nat → List KindSet → Option (List KindSet)
  | 0, ks => some ks
  | _ + 1, [] => none
  | n + 1, _ :: ks => taking? n ks

/-- The kinds of the values that are on the stack after a call, the top first. -/
def Routine.kindsAfter? (r : Routine) (ks : List KindSet) : Option (List KindSet) :=
  let result : KindSet :=
    match r with
    | .toText => .only .text
    | .add => (KindSet.only .number).union (.only .text)
    | .concat => .only .text
  (taking? r.arity ks).map (result :: ·)

/-- The kinds of the values that are on the stack behind an instruction, from the kinds of those
before it, the top first. There are none where the instruction needs other values. -/
def Instr.kindsAfter? (pool : Pool) (i : Instr) (ks : List KindSet) : Option (List KindSet) :=
  match i with
  | .constant i => ((pool.get? i.toNat).bind Constant.kind?).map (.only · :: ks)
  | .constantWide i => ((pool.get? i.toNat).bind Constant.kind?).map (.only · :: ks)
  | .pushBool _ => some (.only .boolean :: ks)
  | .pushNull => some (.only .null :: ks)
  | .pushMysterious => some (.only .mysterious :: ks)
  | .getField _ => some (.any :: ks)
  | .setField _ => taking? 1 ks
  | .arith _ =>
    match ks with
    | right :: left :: ks =>
      if left.isOnly .number && right.isOnly .number then some (.only .number :: ks) else none
    | _ => none
  | .expectNumber d => if d.toNat < ks.length then some (ks.set d.toNat (.only .number)) else none
  | .equality _ => (taking? 2 ks).map (.only .boolean :: ·)
  | .compare _ => (taking? 2 ks).map (.only .boolean :: ·)
  | .not => (taking? 1 ks).map (.only .boolean :: ·)
  | .logic _ => (taking? 2 ks).map (.only .boolean :: ·)
  | .call i argc => (pool.routine? i.toNat argc.toNat).bind (·.kindsAfter? ks)
  | .writeLine => taking? 1 ks
  | .ret => some ks

/-- The kinds behind instructions that stand one after the other. -/
def kindsThrough? (pool : Pool) : List Entry → List KindSet → Option (List KindSet)
  | [], ks => some ks
  | e :: es, ks => (e.instr.kindsAfter? pool ks).bind (kindsThrough? pool es)

theorem kindsThrough?_append (pool : Pool) (es es' : List Entry) (ks : List KindSet) :
    kindsThrough? pool (es ++ es') ks =
      (kindsThrough? pool es ks).bind (kindsThrough? pool es') := by
  induction es generalizing ks with
  | nil => rfl
  | cons e es ih =>
    simp only [List.cons_append, kindsThrough?]
    cases e.instr.kindsAfter? pool ks with
    | none => rfl
    | some ks₁ => exact ih ks₁

/-! ## Values of the kinds -/

/-- On top of `below` the stack has values of the given kinds. -/
inductive OfKinds (below : List Value) : List KindSet → List Value → Prop where
  | nil : OfKinds below [] below
  | cons {kinds : KindSet} {ks : List KindSet} {v : Value} {stack : List Value} :
      kinds.has v.kind = true → OfKinds below ks stack → OfKinds below (kinds :: ks) (v :: stack)

theorem OfKinds.set {below stack : List Value} {ks : List KindSet} (h : OfKinds below ks stack)
    {d : Nat} {v : Value} (hv : stack[d]? = some v) {kinds : KindSet}
    (hkinds : kinds.has v.kind = true) : OfKinds below (ks.set d kinds) stack := by
  induction h generalizing d with
  | nil => exact .nil
  | cons hfirst hrest ih =>
    cases d with
    | zero =>
      cases hv
      exact .cons hkinds hrest
    | succ d => exact .cons hfirst (ih hv)

/-- Arithmetic that has kinds behind it has numbers before it. -/
theorem OfKinds.numbers_of_arith {pool : Pool} {below stack : List Value} {ks ks' : List KindSet}
    {op : Arithmetic} (h : OfKinds below ks stack)
    (hop : (Instr.arith op).kindsAfter? pool ks = some ks') :
    ∃ y z rest ks₀, stack = .number z :: .number y :: rest ∧ ks' = .only .number :: ks₀ ∧
      OfKinds below ks₀ rest := by
  rcases ks with _ | ⟨right, _ | ⟨left, ks⟩⟩
  · cases hop
  · cases hop
  simp only [Instr.kindsAfter?] at hop
  split at hop
  next hnumbers =>
    cases hop
    rw [Bool.and_eq_true] at hnumbers
    cases h with
    | cons hright hrest =>
    cases hrest with
    | cons hleft hrest =>
    obtain ⟨y, rfl⟩ := Value.eq_number_of_kind (KindSet.eq_of_isOnly hnumbers.1 hleft)
    obtain ⟨z, rfl⟩ := Value.eq_number_of_kind (KindSet.eq_of_isOnly hnumbers.2 hright)
    exact ⟨y, z, _, ks, rfl, rfl, hrest⟩
  next => cases hop

/-- What may come of an instruction: values of the given kinds where the machine goes on, and where
it does not, no value that should be a number, but for instructions that check this. -/
def Effect.Leaves (below : List Value) (ks : List KindSet) (checks : Prop) : Effect → Prop
  | .proceed m => OfKinds below ks m.stack
  | .write _ m => OfKinds below ks m.stack
  | .finish _ => True
  | .fault f _ => ∀ kind line, f = .expectedNumber kind line → checks

namespace Memory

variable {m : Memory} {site : Site} {pool : Pool} {below : List Value} {ks ks' : List KindSet}
  {checks : Prop}

theorem pop_leaves {kinds : KindSet} (h : OfKinds below (kinds :: ks) m.stack)
    {f : Value → Memory → Effect}
    (hf : ∀ v stack, kinds.has v.kind = true → OfKinds below ks stack →
      (f v { m with stack := stack }).Leaves below ks' checks) :
    (m.pop site f).Leaves below ks' checks := by
  obtain ⟨fields, stack⟩ := m
  cases h with
  | cons hv hrest => exact hf _ _ hv hrest

theorem popPair_leaves {left right : KindSet} (h : OfKinds below (right :: left :: ks) m.stack)
    {f : Value → Value → Memory → Effect}
    (hf : ∀ a b stack, left.has a.kind = true → right.has b.kind = true →
      OfKinds below ks stack → (f a b { m with stack := stack }).Leaves below ks' checks) :
    (m.popPair site f).Leaves below ks' checks :=
  pop_leaves h fun b _ hb hrest =>
    pop_leaves hrest fun a stack ha hrest' => hf a b stack ha hb hrest'

theorem pushConstant_leaves (h : OfKinds below ks m.stack) {i : Nat}
    (hi : ((pool.get? i).bind Constant.kind?).map (.only · :: ks) = some ks') :
    (m.pushConstant pool i).Leaves below ks' checks := by
  obtain ⟨kind, hkind, rfl⟩ := Option.map_eq_some_iff.mp hi
  obtain ⟨c, hc, hkind⟩ := Option.bind_eq_some_iff.mp hkind
  obtain ⟨v, hv, rfl⟩ := Option.map_eq_some_iff.mp hkind
  rw [pushConstant, hc, Option.bind_some, hv]
  exact .cons (by simp) h

theorem callRoutine_leaves (h : OfKinds below ks m.stack) {r : Routine}
    (hr : r.kindsAfter? ks = some ks') : (m.callRoutine site r).Leaves below ks' checks := by
  obtain ⟨fields, stack⟩ := m
  cases r with
  | toText =>
    rcases ks with _ | ⟨kinds, ks⟩ <;> cases hr
    cases h with
    | cons _ hrest => exact .cons (by simp [Value.kind]) hrest
  | add =>
    rcases ks with _ | ⟨right, _ | ⟨left, ks⟩⟩ <;> cases hr
    cases h with
    | @cons _ _ b _ _ hrest =>
    cases hrest with
    | @cons _ _ a _ _ hrest =>
    unfold callRoutine
    dsimp only
    cases hsum : a.arithmetic .add b with
    | ok v =>
      refine .cons ?_ hrest
      rcases Value.kind_arithmetic_add hsum with hkind | hkind <;> simp [hkind]
    | error e => rintro _ _ ⟨⟩
  | concat =>
    rcases ks with _ | ⟨right, _ | ⟨left, ks⟩⟩ <;> cases hr
    cases h with
    | cons _ hrest =>
    cases hrest with
    | cons _ hrest => exact .cons (by simp [Value.concat, Value.kind]) hrest

theorem call_leaves (h : OfKinds below ks m.stack) {i argc : Nat}
    (hi : (pool.routine? i argc).bind (·.kindsAfter? ks) = some ks') :
    (m.call site pool i argc).Leaves below ks' checks := by
  obtain ⟨r, hr, hks⟩ := Option.bind_eq_some_iff.mp hi
  unfold Pool.routine? at hr
  split at hr
  next hash hget =>
    obtain ⟨hhash, harity⟩ := Option.filter_eq_some_iff.mp hr
    unfold call
    simp only [hget, hhash, of_decide_eq_true harity, if_true]
    exact callRoutine_leaves h hks
  next => cases hr

/-- An instruction leaves values of the kinds that were worked out for it. -/
theorem perform_leaves (site : Site) {i : Instr} (h : OfKinds below ks m.stack)
    (hi : i.kindsAfter? pool ks = some ks') :
    (m.perform site pool i).Leaves below ks' (∃ d, i = .expectNumber d) := by
  cases i with
  | constant k => exact pushConstant_leaves h hi
  | constantWide k => exact pushConstant_leaves h hi
  | pushBool b =>
    cases hi
    exact .cons (by simp [Value.kind]) h
  | pushNull =>
    cases hi
    exact .cons (by simp [Value.kind]) h
  | pushMysterious =>
    cases hi
    exact .cons (by simp [Value.kind]) h
  | getField k =>
    cases hi
    unfold perform
    dsimp only
    split
    · exact .cons (by simp) h
    · rintro _ _ ⟨⟩
  | setField k =>
    rcases ks with _ | ⟨kinds, ks⟩ <;> cases hi
    rw [perform]
    refine pop_leaves h fun v stack _ hrest => ?_
    split
    · exact hrest
    · rintro _ _ ⟨⟩
  | arith op =>
    obtain ⟨fields, stack⟩ := m
    obtain ⟨y, z, rest, ks₀, rfl, rfl, hrest⟩ := h.numbers_of_arith hi
    exact .cons (by simp [Value.kind]) hrest
  | expectNumber d =>
    simp only [Instr.kindsAfter?] at hi
    split at hi
    next hd =>
      cases hi
      unfold perform
      dsimp only
      split
      next y hy => exact h.set hy (by simp [Value.kind])
      next v hv => exact fun _ _ _ => ⟨d, rfl⟩
      next => rintro _ _ ⟨⟩
    next => cases hi
  | equality positive =>
    rcases ks with _ | ⟨right, _ | ⟨left, ks⟩⟩ <;> cases hi
    exact popPair_leaves h fun a b stack _ _ hrest => .cons (by simp [Value.kind]) hrest
  | compare op =>
    rcases ks with _ | ⟨right, _ | ⟨left, ks⟩⟩ <;> cases hi
    refine popPair_leaves h fun a b stack _ _ hrest => ?_
    split
    · exact .cons (by simp [Value.kind]) hrest
    · rintro _ _ ⟨⟩
  | not =>
    rcases ks with _ | ⟨kinds, ks⟩ <;> cases hi
    rw [perform]
    exact pop_leaves h fun v stack _ hrest => .cons (by simp [Value.kind]) hrest
  | logic op =>
    rcases ks with _ | ⟨right, _ | ⟨left, ks⟩⟩ <;> cases hi
    exact popPair_leaves h fun a b stack _ _ hrest => .cons (by simp [Value.kind]) hrest
  | call k argc => exact call_leaves h hi
  | writeLine =>
    rcases ks with _ | ⟨kinds, ks⟩ <;> cases hi
    exact pop_leaves h fun v stack _ hrest => hrest
  | ret => trivial

end Memory

/-! ## Runs -/

namespace Machine

variable {σ : Type} {sink : Sink σ} {x : Executable} {below : List Value} {ks ks' : List KindSet}

/-- A machine that goes on has the values that the instruction leaves. -/
theorem ofKinds_of_apply {site : Site} {out out' : σ} {effect : Effect} {m' : Machine}
    {checks : Prop} (h : effect.Leaves below ks checks)
    (happly : apply sink site out effect = .running m' out') :
    OfKinds below ks m'.memory.stack := by
  cases effect with
  | proceed memory =>
    cases happly
    exact h
  | write text memory =>
    unfold apply at happly
    dsimp only at happly
    split at happly
    · cases happly
      exact h
    · cases happly
  | finish memory =>
    unfold apply at happly
    dsimp only at happly
    split at happly <;> cases happly
  | fault f memory => cases happly

/-- A machine that has run into instructions stands before one of them or behind them all, and its
stack is of the kinds that were worked out for this place. -/
theorem Reaches.ofKinds {m m' : Machine} {out out' : σ} (hreach : Reaches sink x m out m' out')
    {es : List Entry} {front back : List Cell}
    (hcode : x.code.cells.toList = front ++ (es.flatMap Entry.cells ++ back))
    (hkinds : kindsThrough? x.pool es ks = some ks') (h : OfKinds below ks m.memory.stack)
    (hoffset : m.offset = front.length)
    (hle : m'.offset ≤ (front ++ es.flatMap Entry.cells).length) :
    ∃ passed ahead ks₁, es = passed ++ ahead ∧
      m'.offset = (front ++ passed.flatMap Entry.cells).length ∧
      kindsThrough? x.pool ahead ks₁ = some ks' ∧ OfKinds below ks₁ m'.memory.stack := by
  induction hreach generalizing es front ks with
  | refl m out => exact ⟨[], es, ks, rfl, by simpa using hoffset, hkinds, h⟩
  | @step m m₁ m₂ out out₁ out₂ hstep hrest ih =>
    cases es with
    | nil =>
      have hlt := (lt_of_step_running hstep).2
      have hpast := hrest.offset_le
      simp only [List.flatMap_nil, List.append_nil] at hle
      omega
    | cons e es =>
      obtain ⟨ks₁, hone, hmore⟩ := Option.bind_eq_some_iff.mp hkinds
      rw [List.flatMap_cons, List.append_assoc] at hcode
      have hfetch := Code.fetch_of_cells hcode
      rw [← hoffset] at hfetch
      have hnext : m₁.offset = m.offset + 1 + e.instr.opcode.operandSize := by
        rw [offset_of_step_running hstep, hfetch]
        rfl
      rw [hoffset, Nat.add_assoc, ← e.length_cells, ← List.length_append] at hnext
      obtain ⟨-, i, line, next, hfetch', happly⟩ := exists_of_step_running hstep
      rw [hfetch] at hfetch'
      cases hfetch'
      have h₁ := ofKinds_of_apply (Memory.perform_leaves _ h hone) happly
      -- the instruction is behind the machine now, and so part of the front
      rw [← List.append_assoc] at hcode
      rw [List.flatMap_cons, ← List.append_assoc] at hle
      obtain ⟨passed, ahead, ks₂, rfl, hoffset', hkinds', h'⟩ := ih hcode hmore h₁ hnext hle
      exact ⟨e :: passed, ahead, ks₂, rfl, by simpa using hoffset', hkinds', h'⟩

/-- A machine that has run through instructions has values of the kinds behind them. -/
theorem Reaches.ofKinds_end {m m' : Machine} {out out' : σ} (hreach : Reaches sink x m out m' out')
    {es : List Entry} {front back : List Cell}
    (hcode : x.code.cells.toList = front ++ (es.flatMap Entry.cells ++ back))
    (hkinds : kindsThrough? x.pool es ks = some ks') (h : OfKinds below ks m.memory.stack)
    (hoffset : m.offset = front.length)
    (hend : m'.offset = (front ++ es.flatMap Entry.cells).length) :
    OfKinds below ks' m'.memory.stack := by
  obtain ⟨passed, ahead, ks₁, rfl, hoffset', hahead, h'⟩ :=
    hreach.ofKinds hcode hkinds h hoffset (Nat.le_of_eq hend)
  cases ahead with
  | nil =>
    cases hahead
    exact h'
  | cons e ahead =>
    have hpos := e.length_cells
    simp only [List.flatMap_append, List.flatMap_cons, List.length_append] at hend hoffset'
    omega

/-- In code that has kinds from its beginning on, every machine of a run from there stands before an
instruction that takes the values on the stack, or behind all code. -/
theorem Reaches.exists_kinds {es : List Entry} (hcode : x.code.Spells es)
    (hkinds : kindsThrough? x.pool es [] = some ks) {m : Machine} {out out' : σ}
    (hreach : Reaches sink x (Machine.start x) out m out') (hlt : m.offset < x.code.size) :
    ∃ i line next ks₁ ks₂, x.code.fetch m.offset = .instr i line next ∧
      i.kindsAfter? x.pool ks₁ = some ks₂ ∧ OfKinds [] ks₁ m.memory.stack := by
  have hcode' : x.code.cells.toList = [] ++ (es.flatMap Entry.cells ++ []) := by
    rw [List.append_nil]
    exact hcode
  have hsize : (es.flatMap Entry.cells).length = x.code.size := hcode.length_eq
  obtain ⟨passed, ahead, ks₁, rfl, hoffset, hahead, h⟩ :=
    hreach.ofKinds hcode' hkinds .nil rfl (by rw [List.nil_append]; omega)
  rw [List.nil_append] at hoffset
  cases ahead with
  | nil =>
    rw [List.append_nil] at hsize
    omega
  | cons e ahead =>
    obtain ⟨ks₂, hone, -⟩ := Option.bind_eq_some_iff.mp hahead
    have hfront : x.code.cells.toList =
        passed.flatMap Entry.cells ++ (e.cells ++ ahead.flatMap Entry.cells) := by
      rw [hcode, List.flatMap_append, List.flatMap_cons]
    have hfetch := Code.fetch_of_cells hfront
    rw [← hoffset] at hfetch
    exact ⟨e.instr, e.line, _, ks₁, ks₂, hfetch, hone, h⟩

/-- A machine that stops because a value is no number has performed an instruction. -/
theorem exists_of_expectedNumber {m : Machine} {out : σ} {run : Run σ}
    (h : m.step sink x out = .stopped run) {kind : Kind} {line : Nat}
    (hfault : run.fault = some (.expectedNumber kind line)) :
    ∃ i line' next, x.code.fetch m.offset = .instr i line' next ∧
      apply sink ⟨m.offset, next, line'⟩ out
        (m.memory.perform ⟨m.offset, next, line'⟩ x.pool i) = .stopped run := by
  cases hfinished : m.finished with
  | true =>
    rw [step, hfinished] at h
    cases h
    cases hfault
  | false =>
    cases hfetch : x.code.fetch m.offset with
    | instr i line' next =>
      rw [step_of_fetch out hfinished hfetch] at h
      exact ⟨i, line', next, rfl, h⟩
    | invalid b line' =>
      rw [step, hfinished, hfetch] at h
      cases h
      cases hfault
    | truncated op line' operand =>
      rw [step, hfinished, hfetch] at h
      cases h
      cases hfault
    | ended =>
      rw [step, hfinished, hfetch] at h
      cases h
      cases hfault

/-- If an effect stops the machine because a value is no number, it is that of a check. -/
theorem checks_of_apply {site : Site} {out : σ} {effect : Effect} {run : Run σ} {checks : Prop}
    (h : effect.Leaves below ks checks) (happly : apply sink site out effect = .stopped run)
    {kind : Kind} {line : Nat} (hfault : run.fault = some (.expectedNumber kind line)) :
    checks := by
  cases effect with
  | proceed memory => cases happly
  | write text memory =>
    unfold apply at happly
    dsimp only at happly
    split at happly <;> cases happly
    cases hfault
  | finish memory =>
    unfold apply at happly
    dsimp only at happly
    split at happly <;> cases happly <;> cases hfault
  | fault f memory =>
    cases happly
    exact h kind line (Option.some.inj hfault)

end Machine

/-! ## Constants and their kinds -/

/-- The key of a constant tells its kind. -/
theorem Constant.kind?_eq (c : Constant) :
    c.kind? = match c.key with
      | 0 :: _ => some .number
      | 1 :: _ => some .text
      | _ => none := by
  cases c with
  | number x =>
    obtain ⟨rest, hx⟩ := exists_key_number x
    rw [hx]
    rfl
  | text t => rfl
  | routine h => rfl

theorem Constant.eq_routine_of_key {c : Constant} {h : UInt64}
    (hkey : c.key = (Constant.routine h).key) : c = .routine h := by
  cases c with
  | number x =>
    obtain ⟨rest, hx⟩ := exists_key_number x
    rw [hx] at hkey
    simp [Constant.key] at hkey
  | text t => simp [Constant.key] at hkey
  | routine h' =>
    simp only [Constant.key, List.cons.injEq, true_and, and_true] at hkey
    rw [UInt64.toNat_inj.mp hkey]

namespace Pool

variable {p : Pool} {k : Nat}

theorem Has.kind? {c : Constant} (h : p.Has k c) : (p.get? k).bind Constant.kind? = c.kind? := by
  obtain ⟨found, hget, hkey⟩ := h
  rw [hget, Option.bind_some, Constant.kind?_eq, hkey, ← Constant.kind?_eq]

theorem Has.routine? {r : Routine} (h : p.Has k (.routine r.hash)) :
    p.routine? k r.arity = some r := by
  obtain ⟨found, hget, hkey⟩ := h
  obtain rfl := Constant.eq_routine_of_key hkey
  simp [Pool.routine?, hget, Routine.ofHash?_hash]

end Pool

theorem Assembler.kindsAfter?_loadInstr {k : Nat} (hk : k < indexLimit) (pool : Pool)
    (ks : List KindSet) :
    (loadInstr (UInt16.ofNat k)).kindsAfter? pool ks =
      ((pool.get? k).bind Constant.kind?).map (.only · :: ks) := by
  have hword : (UInt16.ofNat k).toNat = k := UInt16.toNat_ofNat_of_lt' hk
  unfold loadInstr
  rw [hword]
  split
  next hnarrow => rw [Instr.kindsAfter?, UInt8.toNat_ofNat_of_lt' hnarrow]
  next => rw [Instr.kindsAfter?, hword]

/-! ## Sessions whose tables are in order -/

/-- Slots are found by their names and constants by their keys. -/
structure Session.Indexed (s : Session) : Prop where
  slots : s.slots.Wf
  pool : s.asm.pool.table.Keyed Constant.key

theorem Session.indexed_start (o : Options) : (Session.start o).Indexed :=
  ⟨SlotTable.wf_empty _, Registry.keyed_empty _⟩

namespace CompileM

def KeepsIndexed (s s' : Session) : Prop := s.Indexed → s'.Indexed

theorem keyed_emitIndexed {a : Assembler} (h : a.pool.table.Keyed Constant.key) (c : Constant)
    (instr : UInt16 → Instr) : (a.emitIndexed c instr).2.pool.table.Keyed Constant.key := by
  rw [Assembler.emitIndexed_eq]
  split
  · exact (h.enter c).1
  · exact (h.enter c).1

theorem indexed_passesAll (o : Options) : PassesAll KeepsIndexed o where
  refl _ h := h
  trans h h' hs := h' (h hs)
  identify ref s h := by
    obtain ⟨last, hlast⟩ := identify_last o ref s
    rw [hlast]
    exact ⟨h.slots, h.pool⟩
  emit i s h := ⟨h.slots, h.pool⟩
  emitCall r s h := ⟨h.slots, keyed_emitIndexed h.pool (.routine r.hash) _⟩
  setLine line s h := ⟨h.slots, h.pool⟩
  slotToWrite i span s h := ⟨h.slots.enter_any i.name span, h.pool⟩

theorem indexed_emitValue (v : Value) : Respects KeepsIndexed (emitValue v) := by
  intro s h
  refine ⟨h.slots, ?_⟩
  show (s.asm.emitValue v).2.pool.table.Keyed Constant.key
  cases v with
  | number x => exact keyed_emitIndexed h.pool (.number x) Assembler.loadInstr
  | text t => exact keyed_emitIndexed h.pool (.text t) Assembler.loadInstr
  | boolean b => exact h.pool
  | mysterious => exact h.pool
  | null => exact h.pool

theorem indexed_expr (o : Options) (e : Expr) : Respects KeepsIndexed (expr o e) :=
  respects_expr (indexed_passesAll o).toPasses e fun v _ => indexed_emitValue v

theorem indexed_statement (o : Options) (stmt : Statement) :
    Respects KeepsIndexed (statement o stmt) :=
  respects_statement (indexed_passesAll o) stmt fun v _ => indexed_emitValue v

end CompileM

/-! ## Kinds in compiled code -/

/-- The second session has code behind that of the first through which kinds are worked out. -/
def Session.Leads (x : Executable) (s : Session) (ks : List KindSet) (s' : Session)
    (ks' : List KindSet) : Prop :=
  ∃ es, s.Writes es s' ∧ kindsThrough? x.pool es ks = some ks'

namespace Session

variable {x : Executable} {s s' s'' : Session} {ks ks' ks'' : List KindSet}

theorem leads_of_code (h : s'.asm.code = s.asm.code) : s.Leads x ks s' ks :=
  ⟨[], by simp [Writes, h], rfl⟩

theorem Leads.trans (h : s.Leads x ks s' ks') (h' : s'.Leads x ks' s'' ks'') :
    s.Leads x ks s'' ks'' := by
  obtain ⟨es, hes, hkinds⟩ := h
  obtain ⟨es', hes', hkinds'⟩ := h'
  refine ⟨es ++ es', ?_, ?_⟩
  · exact hes.trans hes'
  · rw [kindsThrough?_append, hkinds]
    exact hkinds'

theorem Emits.leads {i : Instr} (h : s.Emits i s') (hi : i.kindsAfter? x.pool ks = some ks') :
    s.Leads x ks s' ks' :=
  ⟨_, h.writes, by simp [kindsThrough?, hi]⟩

end Session

/-- A plan makes up for the kinds of the operands: either it is arithmetic, with the checks that the
operands need, or it takes operands of all kinds. -/
theorem Plan.binary?_cases {op : BinaryOp} {left right kinds : KindSet} {plan : Plan}
    (h : binary? op left right = some (plan, kinds)) :
    (∃ op', plan = ofNumbers op' left right ∧ kinds = .only .number) ∨
    (∃ r, plan = .routine r ∧ ∀ ks, r.kindsAfter? (right :: left :: ks) = some (kinds :: ks)) ∨
    ∃ i, plan = .dispatch i ∧
      ∀ pool ks, i.kindsAfter? pool (right :: left :: ks) = some (kinds :: ks) := by
  cases op with
  | arith op =>
    have hother : (if left.number && right.number then
        some (ofNumbers op left right, KindSet.only .number) else none) = some (plan, kinds) →
        ∃ op', plan = ofNumbers op' left right ∧ kinds = .only .number := by
      intro h
      split at h
      · cases h
        exact ⟨op, rfl, rfl⟩
      · cases h
    cases op with
    | add =>
      rcases addition?_cases h with ⟨-, -, rfl, rfl⟩ | ⟨-, rfl, rfl⟩ | ⟨rfl, rfl⟩
      · exact .inl ⟨.add, rfl, rfl⟩
      · exact .inr (.inl ⟨.concat, rfl, fun _ => rfl⟩)
      · exact .inr (.inl ⟨.add, rfl, fun _ => rfl⟩)
    | subtract => exact .inl (hother h)
    | multiply => exact .inl (hother h)
    | divide => exact .inl (hother h)
  | equality positive =>
    cases h
    exact .inr (.inr ⟨_, rfl, fun _ _ => rfl⟩)
  | compare op =>
    simp only [binary?] at h
    split at h
    · cases h
      exact .inr (.inr ⟨_, rfl, fun _ _ => rfl⟩)
    · cases h
  | logic op =>
    cases h
    exact .inr (.inr ⟨_, rfl, fun _ _ => rfl⟩)

namespace CompileM

variable {o : Options} {x : Executable} {s s' : Session} {ks ks' : List KindSet}

theorem leads_emit {i : Instr} (h : emit i s = (.ok (), s'))
    (hi : i.kindsAfter? x.pool ks = some ks') : s.Leads x ks s' ks' :=
  (emits_of_emit h).leads hi

/-- A constant that an instruction refers to is in the pool of the executable, or another one with
the same key. -/
theorem exists_has_of_emitIndexed {c : Constant} {instr : UInt16 → Instr}
    {f : Assembler → Except CompileError Unit × Assembler}
    (hf : ∀ a, f a = a.emitIndexed c instr) (h : assemble f s = (.ok (), s')) (hs : s.Indexed)
    (hin : s'.Within x) :
    ∃ k < indexLimit, s.Emits (instr (UInt16.ofNat k)) s' ∧ x.pool.Has k c := by
  rw [assemble_apply, hf, Assembler.emitIndexed_eq] at h
  split at h
  next hlt =>
    cases h
    exact ⟨_, hlt, rfl, Pool.Has.of_grows hin.pool (hs.pool.enter c).2⟩
  next => cases h

theorem leads_emitValue {v : Value} (h : emitValue v s = (.ok (), s')) (hs : s.Indexed)
    (hin : s'.Within x) (ks : List KindSet) : s.Leads x ks s' (.only v.kind :: ks) := by
  have hconstant : ∀ c : Constant, c.kind? = some v.kind →
      (∀ a : Assembler, a.emitValue v = a.emitIndexed c Assembler.loadInstr) →
      s.Leads x ks s' (.only v.kind :: ks) := by
    intro c hc hf
    obtain ⟨k, hk, hemits, hhas⟩ := exists_has_of_emitIndexed hf h hs hin
    refine hemits.leads ?_
    rw [Assembler.kindsAfter?_loadInstr hk, hhas.kind?, hc]
    rfl
  cases v with
  | number y => exact hconstant (.number y) rfl fun _ => rfl
  | text t => exact hconstant (.text t) rfl fun _ => rfl
  | boolean b => exact leads_emit (i := .pushBool b) h rfl
  | mysterious => exact leads_emit (i := .pushMysterious) h rfl
  | null => exact leads_emit (i := .pushNull) h rfl

theorem leads_emitCall {r : Routine} (h : emitCall r s = (.ok (), s')) (hs : s.Indexed)
    (hin : s'.Within x) (hr : r.kindsAfter? ks = some ks') : s.Leads x ks s' ks' := by
  obtain ⟨k, hk, hemits, hhas⟩ :=
    exists_has_of_emitIndexed (c := .routine r.hash) (fun _ => rfl) h hs hin
  refine hemits.leads ?_
  rw [Instr.kindsAfter?, UInt16.toNat_ofNat_of_lt' hk, r.toNat_arity, hhas.routine?]
  exact hr

/-- Behind a check that was left out where it is not needed, the value is a number. -/
theorem leads_check {kinds : KindSet} {d : UInt8}
    (h : check (!kinds.isOnly .number) d s = (.ok (), s')) (hkinds : ks[d.toNat]? = some kinds) :
    s.Leads x ks s' (ks.set d.toNat (.only .number)) := by
  obtain ⟨hlt, hget⟩ := List.getElem?_eq_some_iff.mp hkinds
  unfold check at h
  by_cases honly : kinds.isOnly .number = true
  · obtain rfl : s = s' := by
      rw [honly] at h
      exact congrArg Prod.snd h
    obtain rfl : kinds = .only .number := by simpa [KindSet.isOnly] using honly
    rw [← hget, List.set_getElem_self]
    exact Session.leads_of_code rfl
  · rw [Bool.not_eq_true] at honly
    rw [honly] at h
    refine leads_emit (i := .expectNumber d) h ?_
    simp [Instr.kindsAfter?, hlt]

theorem leads_ofNumbers {op : Arithmetic} {left right : KindSet}
    (h : follow (Plan.ofNumbers op left right) s = (.ok (), s')) (ks : List KindSet) :
    s.Leads x (right :: left :: ks) s' (.only .number :: ks) := by
  rw [Plan.ofNumbers, follow_typed] at h
  obtain ⟨_, s₁, hleft, h⟩ := bind_eq_ok h
  obtain ⟨_, s₂, hright, harith⟩ := bind_eq_ok h
  have hfirst : s.Leads x (right :: left :: ks) s₁ (right :: .only .number :: ks) :=
    leads_check hleft rfl
  exact hfirst.trans ((leads_check hright rfl).trans (leads_emit harith rfl))

theorem leads_follow {op : BinaryOp} {left right kinds : KindSet} {plan : Plan}
    (hplan : Plan.binary? op left right = some (plan, kinds))
    (h : follow plan s = (.ok (), s')) (hs : s.Indexed) (hin : s'.Within x) (ks : List KindSet) :
    s.Leads x (right :: left :: ks) s' (kinds :: ks) := by
  rcases Plan.binary?_cases hplan with ⟨op', rfl, rfl⟩ | ⟨r, rfl, hr⟩ | ⟨i, rfl, hi⟩
  · exact leads_ofNumbers h ks
  · exact leads_emitCall h hs hin (hr ks)
  · exact leads_emit h (hi x.pool ks)

theorem leads_identify {ref : Variable} {i : Identity} (h : identify o ref s = (.ok i, s'))
    (ks : List KindSet) : s.Leads x ks s' ks :=
  Session.leads_of_code (by rw [(keeps_of_identify h).2])

theorem leads_readVariable {ref : Variable} {kinds : KindSet}
    (h : readVariable o ref s = (.ok kinds, s')) (hs : s.Indexed) (ks : List KindSet) :
    s.Leads x ks s' (kinds :: ks) := by
  obtain ⟨i, s₁, hidentify, h⟩ := bind_eq_ok h
  obtain ⟨slot?, s₂, hslot, h⟩ := bind_eq_ok h
  obtain ⟨rfl, -, -⟩ := slotToRead_ok hslot
  refine (leads_identify hidentify ks).trans ?_
  have hs₂ := ((indexed_passesAll o).identify ref).of_ok hidentify hs
  cases slot? with
  | some slot =>
    obtain ⟨_, s₃, hemit, hkinds⟩ := bind_eq_ok h
    -- every slot is declared to hold all kinds
    have hs₃ := ((indexed_passesAll o).emit _).of_ok hemit hs₂
    rw [declaredKinds, hs₃.slots.declared_getD slot] at hkinds
    cases hkinds
    exact leads_emit hemit rfl
  | none =>
    obtain ⟨_, s₃, hemit, hpure⟩ := bind_eq_ok h
    cases hpure
    exact leads_emit hemit rfl

/-- The code of an expression leads to the kinds that the compiler has worked out for it. -/
theorem leads_expr {e : Expr} {kinds : KindSet} (h : expr o e s = (.ok kinds, s'))
    (hs : s.Indexed) (hin : s'.Within x) (ks : List KindSet) : s.Leads x ks s' (kinds :: ks) := by
  induction e generalizing s s' kinds ks with
  | literal v span =>
    obtain ⟨_, s₁, hvalue, hpure⟩ := bind_eq_ok h
    cases hpure
    exact leads_emitValue hvalue hs hin ks
  | poetic y text span =>
    obtain ⟨_, s₁, hvalue, hpure⟩ := bind_eq_ok h
    cases hpure
    exact leads_emitValue hvalue hs hin ks
  | «variable» ref => exact leads_readVariable h hs ks
  | binary op l r ihl ihr =>
    obtain ⟨left, s₁, right, s₂, plan, hl, hr, hplan, hfollow⟩ := expr_binary_ok h
    have hin₂ := hin.of_grows
      ((respects_follow (grows_passesAll o).toPassesCode plan).of_ok hfollow)
    have hs₁ := (indexed_expr o l).of_ok hl hs
    have hs₂ := (indexed_expr o r).of_ok hr hs₁
    exact (ihl hl hs (hin₂.of_grows ((grows_expr o r).of_ok hr)) ks).trans
      ((ihr hr hs₁ hin₂ (left :: ks)).trans (leads_follow hplan hfollow hs₂ hin ks))
  | negation word e ih =>
    obtain ⟨kinds₁, s₁, he, hemit, rfl⟩ := expr_negation_ok h
    exact (ih he hs (hin.of_grows (((grows_passesAll o).emit _).of_ok hemit)) ks).trans
      (leads_emit hemit rfl)

theorem leads_store {i : Identity} {span : Span} (h : store i span s = (.ok (), s'))
    (kinds : KindSet) (ks : List KindSet) : s.Leads x (kinds :: ks) s' ks := by
  obtain ⟨slot, s₁, henter, hemit⟩ := bind_eq_ok h
  have hcode : s₁.asm.code = s.asm.code := by
    rw [slotToWrite_apply] at henter
    exact congrArg (·.2.asm.code) henter.symm
  exact (Session.leads_of_code hcode).trans (leads_emit hemit rfl)

theorem leads_assignParts {target : Variable} {value : Expr} {i : Identity}
    (h : assignParts o target value s = (.ok i, s')) (hs : s.Indexed) (hin : s'.Within x)
    (ks : List KindSet) : ∃ kinds, s.Leads x ks s' (kinds :: ks) := by
  unfold assignParts at h
  split at h
  · obtain ⟨j, s₁, hidentify, h⟩ := bind_eq_ok h
    obtain ⟨kinds, s₂, hexpr, hpure⟩ := bind_eq_ok h
    cases hpure
    have hs₁ := ((indexed_passesAll o).identify target).of_ok hidentify hs
    exact ⟨kinds, (leads_identify hidentify ks).trans (leads_expr hexpr hs₁ hin ks)⟩
  · obtain ⟨kinds, s₁, hexpr, hidentify⟩ := bind_eq_ok h
    have hin₁ := hin.of_grows (((grows_passesAll o).identify target).of_ok hidentify)
    exact ⟨kinds, (leads_expr hexpr hs hin₁ ks).trans (leads_identify hidentify _)⟩

/-- A step checks the variable, and the count is a number anyway. -/
theorem leads_step {direction : Direction} {target : Variable} {count : Nat}
    (h : step o direction target count s = (.ok (), s')) (hs : s.Indexed) (hin : s'.Within x)
    (ks : List KindSet) : s.Leads x ks s' ks := by
  obtain ⟨i, s₁, hidentify, h⟩ := bind_eq_ok h
  obtain ⟨slot?, s₂, hslot, h⟩ := bind_eq_ok h
  obtain ⟨rfl, -, -⟩ := slotToRead_ok hslot
  refine (leads_identify hidentify ks).trans ?_
  have hs₂ := ((indexed_passesAll o).identify target).of_ok hidentify hs
  have hrest : ∀ {load : Instr} {kinds : KindSet},
      load.kindsAfter? x.pool ks = some (kinds :: ks) →
      (do
        emit load
        emit (.expectNumber 0)
        emitValue (.number (Float.ofNat count))
        emit (.arith direction.operation)
        store i target.span : CompileM Unit) s₂ = (.ok (), s') →
      s₂.Leads x ks s' ks := by
    intro load kinds hload h
    obtain ⟨_, s₃, hemit, h⟩ := bind_eq_ok h
    obtain ⟨_, s₄, hcheck, h⟩ := bind_eq_ok h
    obtain ⟨_, s₅, hvalue, h⟩ := bind_eq_ok h
    obtain ⟨_, s₆, harith, hstore⟩ := bind_eq_ok h
    have hs₃ := ((indexed_passesAll o).emit _).of_ok hemit hs₂
    have hs₄ := ((indexed_passesAll o).emit _).of_ok hcheck hs₃
    have hin₆ := hin.of_grows ((respects_store (grows_passesAll o) i target.span).of_ok hstore)
    have hin₅ := hin₆.of_grows (((grows_passesAll o).emit _).of_ok harith)
    have hchecked : s₂.Leads x ks s₄ (.only .number :: ks) :=
      (leads_emit hemit hload).trans (leads_emit hcheck (by simp [Instr.kindsAfter?]))
    have hchanged : s₄.Leads x (.only .number :: ks) s₆ (.only .number :: ks) :=
      (leads_emitValue hvalue hs₄ hin₅ _).trans (leads_emit harith rfl)
    exact hchecked.trans (hchanged.trans (leads_store hstore _ ks))
  cases slot? with
  | some slot => exact hrest rfl h
  | none => exact hrest (show Instr.pushMysterious.kindsAfter? x.pool ks = _ from rfl) h

/-- Statements leave nothing on the stack. -/
theorem leads_statement {stmt : Statement} (h : statement o stmt s = (.ok (), s'))
    (hs : s.Indexed) (hin : s'.Within x) (ks : List KindSet) : s.Leads x ks s' ks := by
  obtain ⟨_, s₁, hset, h⟩ := bind_eq_ok h
  have hs₁ := ((indexed_passesAll o).setLine _).of_ok hset hs
  have hline : s.Leads x ks s₁ ks := by
    cases hset
    exact Session.leads_of_code rfl
  refine hline.trans ?_
  cases stmt with
  | assign target value span =>
    obtain ⟨i, s₂, hparts, hstore⟩ := bind_eq_ok h
    have hin₂ := hin.of_grows ((respects_store (grows_passesAll o) i target.span).of_ok hstore)
    obtain ⟨kinds, hleads⟩ := leads_assignParts hparts hs₁ hin₂ ks
    exact hleads.trans (leads_store hstore kinds ks)
  | output verb value span =>
    obtain ⟨kinds, s₂, hexpr, h⟩ := bind_eq_ok h
    obtain ⟨_, s₃, hcall, hwrite⟩ := bind_eq_ok h
    have hin₃ := hin.of_grows (((grows_passesAll o).emit _).of_ok hwrite)
    have hin₂ := hin₃.of_grows (((grows_passesAll o).emitCall _).of_ok hcall)
    have hs₂ := (indexed_expr o value).of_ok hexpr hs₁
    exact (leads_expr hexpr hs₁ hin₂ ks).trans
      ((leads_emitCall hcall hs₂ hin₃ rfl).trans (leads_emit hwrite rfl))
  | step direction target count span => exact leads_step h hs₁ hin ks

theorem leads_statements {program : List Statement} (h : statements o program s = (.ok (), s'))
    (hs : s.Indexed) (hin : s'.Within x) (ks : List KindSet) : s.Leads x ks s' ks := by
  induction program generalizing s with
  | nil =>
    cases h
    exact Session.leads_of_code rfl
  | cons stmt rest ih =>
    obtain ⟨_, s₁, hstmt, hrest⟩ := bind_eq_ok h
    have hin₁ := hin.of_grows ((grows_statements o rest).of_ok hrest)
    exact (leads_statement hstmt hs hin₁ ks).trans
      (ih hrest ((indexed_statement o stmt).of_ok hstmt hs))

end CompileM

/-! ## Programs -/

/-- A compiled program has kinds from its beginning to its end. -/
theorem Session.exists_kinds_finish {o : Options} {program : List Statement} {s : Session}
    (h : CompileM.statements o program (.start o) = (.ok (), s)) :
    ∃ es, s.finish.code.Spells es ∧ kindsThrough? s.finish.pool es [] = some [] := by
  obtain ⟨es, hwrites, hkinds⟩ :=
    CompileM.leads_statements h (Session.indexed_start o) s.within_finish []
  have hspells : s.asm.code.Spells es := hwrites.spells Code.spells_empty
  have hfinish : s.finish.code.Spells (es ++ [⟨s.asm.line, .ret⟩]) := hspells.append _ _
  refine ⟨_, hfinish, ?_⟩
  rw [kindsThrough?_append, hkinds]
  rfl

/-- The code of an expression, wherever it is entered, leaves a value of the kinds that it leads
to. -/
theorem Session.Leads.exists_value {x : Executable} {s s' : Session} {kinds : KindSet}
    (h : s.Leads x [] s' [kinds]) (hin : s'.Within x) {σ : Type} {sink : Sink σ} {m m' : Machine}
    {out out' : σ} (hoffset : m.offset = s.asm.code.size)
    (hreach : Machine.Reaches sink x m out m' out') (hend : m'.offset = s'.asm.code.size) :
    ∃ v, m'.memory.stack = v :: m.memory.stack ∧ kinds.has v.kind = true := by
  obtain ⟨es, hwrites, hkinds⟩ := h
  obtain ⟨back, hback⟩ := hin.code
  have hcode : x.code.cells.toList =
      s.asm.code.cells.toList ++ (es.flatMap Entry.cells ++ back) := by
    rw [← hback, hwrites, List.append_assoc]
  have hend' : m'.offset = (s.asm.code.cells.toList ++ es.flatMap Entry.cells).length := by
    rw [← hwrites, hend]
    exact Array.length_toList.symm
  have hempty : OfKinds m.memory.stack [] m.memory.stack := .nil
  have hvalues := hreach.ofKinds_end hcode hkinds hempty
    (hoffset.trans Array.length_toList.symm) hend'
  generalize hstack : m'.memory.stack = stack at hvalues
  cases hvalues with
  | cons hkind hrest =>
    cases hrest with
    | nil => exact ⟨_, rfl, hkind⟩

/-- The kinds that the compiler works out are right. In every program that compiles, the code of
each expression that runs through, from any stack and any fields and on any sink, leaves one value
more, and its kind is among those that the compiler has returned for the expression. In every run of
the program, arithmetic finds two numbers on the stack; so where a run stops because a value is no
number, it stops at an explicit check. -/
theorem kinds_sound {o : Options} {program : List Statement} {x : Executable}
    (h : compile o program = .ok x) :
    (∀ e s, ExprAt o program e s →
      ∃ kinds s', CompileM.expr o e s = (.ok kinds, s') ∧
        ∀ (σ : Type) (sink : Sink σ) (m m' : Machine) (out out' : σ),
          m.offset = s.asm.code.size → Machine.Reaches sink x m out m' out' →
          m'.offset = s'.asm.code.size →
          ∃ v, m'.memory.stack = v :: m.memory.stack ∧ kinds.has v.kind = true) ∧
    ∀ (σ : Type) (sink : Sink σ) (out : σ),
      (∀ m out' op line next, Machine.Reaches sink x (Machine.start x) out m out' →
        x.code.fetch m.offset = .instr (.arith op) line next →
        ∃ y z rest, m.memory.stack = .number z :: .number y :: rest) ∧
      ∀ kind line,
        ((Machine.start x).execute sink x out).fault = some (.expectedNumber kind line) →
        ∃ m out' d line' next, Machine.Reaches sink x (Machine.start x) out m out' ∧
          x.code.fetch m.offset = .instr (.expectNumber d) line' next ∧
          m.step sink x out' = .stopped ((Machine.start x).execute sink x out) := by
  obtain ⟨s, hstatements, rfl⟩ := exists_session_of_compile h
  obtain ⟨es, hcode, hkinds⟩ := Session.exists_kinds_finish hstatements
  refine ⟨?_, fun σ sink out => ⟨?_, ?_⟩⟩
  · intro e s₁ hat
    obtain ⟨kinds, s', hok, hin⟩ := CompileM.ok_of_exprAt hstatements s.within_finish hat
    have hindexed : s₁.Indexed := hat.respected (CompileM.indexed_passesAll o)
      (fun _ _ v _ => CompileM.indexed_emitValue v) (Session.indexed_start o)
    refine ⟨kinds, s', hok, fun σ sink m m' out out' hoffset hreach hend => ?_⟩
    exact (CompileM.leads_expr hok hindexed hin []).exists_value hin hoffset hreach hend
  · intro m out' op line next hreach hfetch
    obtain ⟨i, line', next', ks, ks', hfetch', hi, hstack⟩ :=
      hreach.exists_kinds hcode hkinds (Code.fetch_instr hfetch).1
    rw [hfetch] at hfetch'
    cases hfetch'
    obtain ⟨y, z, rest, -, hnumbers, -, -⟩ := hstack.numbers_of_arith hi
    exact ⟨y, z, rest, hnumbers⟩
  · intro kind line hfault
    have hstart : (Machine.start s.finish).offset ≤ s.finish.code.size := Nat.zero_le _
    obtain ⟨m, out', hreach, -, hstop⟩ := Machine.halts_execute sink out hstart
    obtain ⟨i, line', next, hfetch, happly⟩ := Machine.exists_of_expectedNumber hstop hfault
    obtain ⟨i', line'', next', ks, ks', hfetch', hi, hstack⟩ :=
      hreach.exists_kinds hcode hkinds (Code.fetch_instr hfetch).1
    rw [hfetch] at hfetch'
    cases hfetch'
    obtain ⟨d, rfl⟩ := Machine.checks_of_apply (Memory.perform_leaves _ hstack hi) happly hfault
    exact ⟨m, out', d, line', next, hreach, hfetch, hstop⟩

/-- A difference of two numbers. -/
def riverValue : Expr :=
  .binary (.arith .subtract) (.literal (.number 5) ⟨1, 5, 1⟩) (.literal (.number 2) ⟨1, 13, 1⟩)

/-- A number and then a text in one variable, both of which are calculated with. -/
def riverProgram : List Statement :=
  [.assign ⟨"X", ⟨1, 20, 1⟩⟩ riverValue ⟨1, 1, 20⟩,
    .output .say (.binary (.arith .subtract) (.variable ⟨"X", ⟨2, 5, 1⟩⟩)
      (.literal (.number 1) ⟨2, 13, 1⟩)) ⟨2, 1, 13⟩,
    .assign ⟨"X", ⟨3, 1, 1⟩⟩ (.literal (.text "deep") ⟨3, 6, 6⟩) ⟨3, 1, 11⟩,
    .output .say (.binary (.arith .multiply) (.variable ⟨"X", ⟨4, 5, 1⟩⟩)
      (.variable ⟨"X", ⟨4, 13, 1⟩⟩)) ⟨4, 1, 13⟩]

/-- The first difference needs no check, and gives a number; the product needs both, and the first
of them stops the run. -/
theorem kinds_sound_river :
    ∃ x, compile {} riverProgram = .ok x ∧
      (∃ s', CompileM.expr {} riverValue (CompileM.setLine 1 (.start {})).2 =
          (.ok (.only .number), s') ∧
        ∀ (m m' : Machine) (out out' : String), m.offset = 0 →
          Machine.Reaches .collect x m out m' out' → m'.offset = s'.asm.code.size →
          ∃ v, m'.memory.stack = v :: m.memory.stack ∧
            (KindSet.only .number).has v.kind = true) ∧
      ((Machine.start x).execute .collect x "").out = "2\n" ∧
      ((Machine.start x).execute .collect x "").fault = some (.expectedNumber .text 4) ∧
      ∃ m out' d line' next, Machine.Reaches .collect x (Machine.start x) "" m out' ∧
        x.code.fetch m.offset = .instr (.expectNumber d) line' next ∧
        m.step .collect x out' = .stopped ((Machine.start x).execute .collect x "") := by
  have hruns : outcome? riverProgram = some (some (.expectedNumber .text 4), "2\n") := by
    decide +kernel
  obtain ⟨x, hx, hfault, hout⟩ := exists_of_outcome? hruns
  obtain ⟨hexprs, hrun⟩ := kinds_sound hx
  obtain ⟨kinds, s', hok, hvalue⟩ := hexprs riverValue (CompileM.setLine 1 (.start {})).2
    ⟨[], _, riverProgram.drop 1, riverValue, _, rfl, rfl, .self _ _⟩
  have hkinds : (CompileM.expr {} riverValue (CompileM.setLine 1 (.start {})).2).1.toOption =
      some (.only .number) := by decide +kernel
  rw [hok] at hkinds
  cases hkinds
  exact ⟨x, hx, ⟨s', hok, hvalue String .collect⟩, hout, hfault,
    (hrun String .collect "").2 .text 4 hfault⟩

end Rockstar
