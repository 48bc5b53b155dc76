import Rockstar.Proofs.Walking

/-!
# Calls in a row

A machine that was stopped can be executed again, with another sink and from wherever the fault has
left it: between the operands of an instruction, or with values missing on its stack. No code is
run twice all the same. Reading an operation code takes the machine forward, whether its operands
are there or not and whatever it then does (`Machine.offset_step`); so every call that finds one
ends further on (`Machine.settled_or_advances`), and what it executes lies between the offsets
before and after it (`Machine.begun_bounds`). A call that finds none changes nothing, and then no
later call does (`Machine.RestsWith.call_afterCalls`). Since there are only so many offsets, the
machine has finished or is stuck after as many calls as the code has bytes
(`Machine.settled_of_length_le`).
-/

namespace Rockstar

/-! ## How far reading gets -/

namespace Code

variable {α β : Type} {c : Code} {offset : Nat}

/-- The offset at which reading operands ended, or failed. -/
def readTo : Except Nat (α × Nat) → Nat
  | .ok (_, next) => next
  | .error operand => operand

theorem readTo_map (x : Except Nat (α × Nat)) (f : α → β) :
    readTo (do let (a, next) ← x; return (f a, next)) = readTo x := by
  cases x with
  | error operand => rfl
  | ok result => rfl

theorem lt_size_of_byte? {b : UInt8} (h : c.byte? offset = some b) : offset < c.size := by
  obtain ⟨cell, hcell, -⟩ := Option.map_eq_some_iff.mp h
  exact (Array.getElem?_eq_some_iff.mp hcell).1

theorem readTo_byteOperand (h : offset ≤ c.size) :
    offset ≤ readTo (c.byteOperand offset) ∧ readTo (c.byteOperand offset) ≤ c.size := by
  unfold byteOperand
  cases hbyte : c.byte? offset with
  | none => exact ⟨Nat.le_refl _, h⟩
  | some b => exact ⟨Nat.le_succ _, lt_size_of_byte? hbyte⟩

theorem readTo_wordOperand (h : offset ≤ c.size) :
    offset ≤ readTo (c.wordOperand offset) ∧ readTo (c.wordOperand offset) ≤ c.size := by
  unfold wordOperand
  cases hword : c.word? offset with
  | none => exact ⟨Nat.le_refl _, h⟩
  | some w =>
    obtain ⟨high, -, hrest⟩ := Option.bind_eq_some_iff.mp hword
    obtain ⟨low, hlow, -⟩ := Option.bind_eq_some_iff.mp hrest
    exact ⟨Nat.le_add_right _ _, lt_size_of_byte? hlow⟩

/-- Operands are read forward and inside the code, also those in front of a missing one. -/
theorem readTo_decode (op : Opcode) (h : offset ≤ c.size) :
    offset ≤ readTo (c.decode op offset) ∧ readTo (c.decode op offset) ≤ c.size := by
  cases op with
  | constant => exact (readTo_map (c.byteOperand offset) Instr.constant) ▸ readTo_byteOperand h
  | constantWide =>
    exact (readTo_map (c.wordOperand offset) Instr.constantWide) ▸ readTo_wordOperand h
  | getField => exact (readTo_map (c.wordOperand offset) Instr.getField) ▸ readTo_wordOperand h
  | setField => exact (readTo_map (c.wordOperand offset) Instr.setField) ▸ readTo_wordOperand h
  | expectNumber =>
    exact (readTo_map (c.byteOperand offset) Instr.expectNumber) ▸ readTo_byteOperand h
  | callRoutine =>
    -- the second operand is looked for where the first one ended
    have hroutine := readTo_wordOperand h
    unfold decode
    cases hread : c.wordOperand offset with
    | error operand =>
      rw [hread] at hroutine
      exact hroutine
    | ok result =>
      rw [hread] at hroutine
      have hargc := readTo_byteOperand hroutine.2
      have hmap := readTo_map (c.byteOperand result.2) (Instr.call result.1)
      exact hmap ▸ ⟨Nat.le_trans hroutine.1 hargc.1, hargc.2⟩
  | _ => exact ⟨Nat.le_refl _, h⟩

end Code

/-- The offset to which the machine has read what stands at `offset`. -/
def Fetch.readTo (f : Fetch) (offset : Nat) : Nat :=
  match f with
  | .instr _ _ next => next
  | .truncated _ _ operand => operand
  | .invalid _ _ => offset
  | .ended => offset

/-- An operation code is left behind, with the operands that are there. -/
theorem Code.readTo_fetch {c : Code} {offset : Nat} (h : (c.opcode? offset).isSome = true) :
    offset < (c.fetch offset).readTo offset ∧ (c.fetch offset).readTo offset ≤ c.size := by
  unfold fetch
  unfold opcode? byte? at h
  cases hcell : c.cells[offset]? with
  | none => simp [hcell] at h
  | some cell =>
    have hlt : offset < c.size := (Array.getElem?_eq_some_iff.mp hcell).1
    rw [hcell] at h
    cases hop : Opcode.ofByte? cell.byte with
    | none => simp [hop] at h
    | some op =>
      have hread := readTo_decode op hlt
      cases hdecode : c.decode op (offset + 1) with
      | ok result =>
        rw [hdecode] at hread
        simp only [hop, hdecode]
        exact hread
      | error operand =>
        rw [hdecode] at hread
        simp only [hop, hdecode]
        exact hread

/-! ## One step -/

/-- The machine after a step. -/
def Progress.machine {σ : Type} : Progress σ → Machine
  | .running m _ => m
  | .stopped run => run.machine

namespace Machine

variable {σ : Type} {sink : Sink σ} {x : Executable} {m : Machine} {out : σ}

theorem offset_apply (sink : Sink σ) (site : Site) (out : σ) (effect : Effect) :
    (apply sink site out effect).machine.offset = site.next := by
  cases effect with
  | proceed memory => rfl
  | write text memory =>
    unfold apply
    dsimp only
    split <;> rfl
  | finish memory =>
    unfold apply
    dsimp only
    split <;> rfl
  | fault f memory => rfl

/-- Whatever a step does, it leaves the machine behind what was read. -/
theorem offset_step (sink : Sink σ) (x : Executable) (out : σ) (h : m.finished = false) :
    (m.step sink x out).machine.offset = (x.code.fetch m.offset).readTo m.offset := by
  cases hfetch : x.code.fetch m.offset with
  | instr i line next => rw [step_of_fetch out h hfetch, offset_apply, Fetch.readTo]
  | _ =>
    rw [step, h, hfetch]
    rfl

/-- The machine has not finished, and what stands before it is no operation code. Then `f` says
so. -/
def StuckWith (x : Executable) (m : Machine) (f : Fault) : Prop :=
  m.finished = false ∧
    (x.code.fetch m.offset = .ended ∧ f = .truncatedInstruction m.offset ∨
      ∃ b line, x.code.fetch m.offset = .invalid b line ∧ f = .invalidOpcode b m.offset)

/-- Three states of a machine between two calls. -/
theorem finished_or_stuck_or_opcode (x : Executable) (m : Machine) :
    m.finished = true ∨ (∃ f, StuckWith x m f) ∨
      m.finished = false ∧ (x.code.opcode? m.offset).isSome = true := by
  cases hfinished : m.finished with
  | true => exact .inl rfl
  | false =>
    rw [← Code.opcode?_fetch]
    cases hfetch : x.code.fetch m.offset with
    | instr i line next => exact .inr (.inr ⟨rfl, rfl⟩)
    | truncated op line operand => exact .inr (.inr ⟨rfl, rfl⟩)
    | invalid b line => exact .inr (.inl ⟨_, hfinished, .inr ⟨b, line, hfetch, rfl⟩⟩)
    | ended => exact .inr (.inl ⟨_, hfinished, .inl ⟨hfetch, rfl⟩⟩)

theorem StuckWith.step_eq {f : Fault} (h : StuckWith x m f) (sink : Sink σ) (out : σ) :
    m.step sink x out = .stopped ⟨some f, m, out⟩ := by
  obtain ⟨hrun, ⟨hfetch, rfl⟩ | ⟨b, line, hfetch, rfl⟩⟩ := h
  · rw [step, hrun, hfetch]
    rfl
  · rw [step, hrun, hfetch]
    rfl

theorem step_of_finished (h : m.finished = true) (sink : Sink σ) (x : Executable) (out : σ) :
    m.step sink x out = .stopped ⟨none, m, out⟩ := by
  rw [step, h]
  rfl

/-- A step goes forward or stays, inside the code or at its end. -/
theorem offset_step_bounds (sink : Sink σ) (out : σ) (h : m.offset ≤ x.code.size) :
    m.offset ≤ (m.step sink x out).machine.offset ∧
      (m.step sink x out).machine.offset ≤ x.code.size := by
  rcases finished_or_stuck_or_opcode x m with hdone | ⟨f, hstuck⟩ | ⟨hrun, hop⟩
  · rw [step_of_finished hdone]
    exact ⟨Nat.le_refl _, h⟩
  · rw [hstuck.step_eq]
    exact ⟨Nat.le_refl _, h⟩
  · rw [offset_step sink x out hrun]
    obtain ⟨hlt, hle⟩ := Code.readTo_fetch hop
    exact ⟨Nat.le_of_lt hlt, hle⟩

/-! ## One call -/

/-- A call follows the machine to the step that stops it. -/
theorem halts_execute (sink : Sink σ) (out : σ) (h : m.offset ≤ x.code.size) :
    Halts sink x (x.code.size + 1) m out (m.execute sink x out) := by
  fun_induction execute sink x m out with
  | case1 m out m' out' hstep ih =>
    have hle := (offset_step_bounds sink out h).2
    rw [hstep] at hle
    exact (Reaches.step hstep (.refl m' out')).halts (ih hle)
  | case2 m out run hstep => exact ⟨m, out, .refl m out, Nat.lt_succ_of_le h, hstep⟩

/-- A call ends no earlier than its first step, inside the code or at its end. -/
theorem offset_execute_bounds (sink : Sink σ) (out : σ) (h : m.offset ≤ x.code.size) :
    (m.step sink x out).machine.offset ≤ (m.execute sink x out).machine.offset ∧
      (m.execute sink x out).machine.offset ≤ x.code.size := by
  fun_induction execute sink x m out with
  | case1 m out m' out' hstep ih =>
    have hle := (offset_step_bounds sink out h).2
    rw [hstep] at hle ⊢
    have hnext := (offset_step_bounds sink out' hle).1
    obtain ⟨hafter, hend⟩ := ih hle
    exact ⟨Nat.le_trans hnext hafter, hend⟩
  | case2 m out run hstep =>
    have hle := (offset_step_bounds sink out h).2
    rw [hstep] at hle ⊢
    exact ⟨Nat.le_refl _, hle⟩

/-- A call that finds an operation code ends behind it. -/
theorem lt_offset_execute (sink : Sink σ) (out : σ) (hrun : m.finished = false)
    (hop : (x.code.opcode? m.offset).isSome = true) (h : m.offset ≤ x.code.size) :
    m.offset < (m.execute sink x out).machine.offset := by
  have hstep := (Code.readTo_fetch hop).1
  rw [← offset_step sink x out hrun] at hstep
  exact Nat.lt_of_lt_of_le hstep (offset_execute_bounds sink out h).1

/-- The offsets of the operation codes that a call finds, in order: those of the instructions that
it performs, and at last perhaps that of one without all of its operands. -/
def begun (sink : Sink σ) (x : Executable) (m : Machine) (out : σ) : List Nat :=
  (m.fetched sink x out).filter fun offset => (x.code.opcode? offset).isSome

/-- What a call executes lies between where it began and where it ended, and comes in order. -/
theorem begun_bounds (sink : Sink σ) (out : σ) (h : m.offset ≤ x.code.size) :
    (m.begun sink x out).Pairwise (· < ·) ∧
      ∀ k ∈ m.begun sink x out, m.offset ≤ k ∧ k < (m.execute sink x out).machine.offset := by
  unfold begun
  fun_induction fetched sink x m out with
  | case1 m out hrun m' out' hstep ih =>
    have hnext := (lt_of_step_running hstep).2
    have hle := (offset_step_bounds sink out h).2
    rw [hstep] at hle
    obtain ⟨hsorted, hbounds⟩ := ih hle
    have hafter : ∀ k ∈ (m'.fetched sink x out').filter fun k => (x.code.opcode? k).isSome,
        m.offset < k ∧ k < (m.execute sink x out).machine.offset := by
      intro k hk
      obtain ⟨hlow, hhigh⟩ := hbounds k hk
      rw [execute_of_running hstep]
      exact ⟨Nat.lt_of_lt_of_le hnext hlow, hhigh⟩
    rw [List.filter_cons]
    -- a machine that runs on has found an operation code, but the bounds do not need that
    split
    next hop =>
      refine ⟨List.pairwise_cons.mpr ⟨fun k hk => (hafter k hk).1, hsorted⟩, ?_⟩
      intro k hk
      rcases List.mem_cons.mp hk with rfl | hk
      · exact ⟨Nat.le_refl _, lt_offset_execute sink out hrun.1 hop h⟩
      · exact ⟨Nat.le_of_lt (hafter k hk).1, (hafter k hk).2⟩
    next => exact ⟨hsorted, fun k hk => ⟨Nat.le_of_lt (hafter k hk).1, (hafter k hk).2⟩⟩
  | case2 m out hrun run hstep =>
    refine ⟨(List.pairwise_singleton _ _).filter _, fun k hk => ?_⟩
    obtain ⟨hmem, hop⟩ := List.mem_filter.mp hk
    obtain rfl := List.mem_singleton.mp hmem
    exact ⟨Nat.le_refl _, lt_offset_execute sink out hrun.1 hop h⟩
  | case3 m out hstop => exact ⟨.nil, fun k hk => by cases hk⟩

end Machine

/-! ## Calls in a row -/

/-- A sink in some state. -/
structure Outlet where
  State : Type
  sink : Sink State
  held : State

namespace Machine

variable {x : Executable} {m : Machine}

/-- Executes the machine with a sink. -/
def call (x : Executable) (m : Machine) (w : Outlet) : Run w.State := m.execute w.sink x w.held

/-- The machine after calls with these sinks. -/
def afterCalls (x : Executable) (m : Machine) : List Outlet → Machine
  | [] => m
  | w :: ws => afterCalls x (m.call x w).machine ws

/-- The offsets of the operation codes that calls with these sinks find, in order. -/
def begunByCalls (x : Executable) (m : Machine) : List Outlet → List Nat
  | [] => []
  | w :: ws => m.begun w.sink x w.held ++ begunByCalls x (m.call x w).machine ws

/-- Calls change nothing, and all return the same. -/
def RestsWith (x : Executable) (m : Machine) (fault : Option Fault) : Prop :=
  ∀ w : Outlet, m.call x w = ⟨fault, m, w.held⟩

theorem StuckWith.fault_eq {f : Fault} (h : StuckWith x m f) :
    f = .truncatedInstruction m.offset ∨ ∃ b, f = .invalidOpcode b m.offset := by
  obtain ⟨-, ⟨-, rfl⟩ | ⟨b, line, -, rfl⟩⟩ := h
  · exact .inl rfl
  · exact .inr ⟨b, rfl⟩

theorem restsWith_of_finished (h : m.finished = true) : RestsWith x m none := fun w =>
  execute_of_stopped (step_of_finished h w.sink x w.held)

theorem StuckWith.restsWith {f : Fault} (h : StuckWith x m f) : RestsWith x m (some f) := fun w =>
  execute_of_stopped (h.step_eq w.sink w.held)

theorem RestsWith.afterCalls {fault : Option Fault} (h : RestsWith x m fault)
    (ws : List Outlet) : m.afterCalls x ws = m := by
  induction ws with
  | nil => rfl
  | cons w ws ih => rw [Machine.afterCalls, h w, ih]

theorem RestsWith.call_afterCalls {fault : Option Fault} (h : RestsWith x m fault)
    (more : List Outlet) (w : Outlet) :
    (m.afterCalls x more).call x w = ⟨fault, m, w.held⟩ := by
  rw [h.afterCalls]
  exact h w

theorem offset_afterCalls_le (ws : List Outlet) (h : m.offset ≤ x.code.size) :
    (m.afterCalls x ws).offset ≤ x.code.size := by
  induction ws generalizing m with
  | nil => exact h
  | cons w ws ih => exact ih (offset_execute_bounds w.sink w.held h).2

/-- Every call finds the machine finished or stuck, or it takes the machine forward. -/
theorem settled_or_advances (ws : List Outlet) (h : m.offset ≤ x.code.size) :
    (m.afterCalls x ws).finished = true ∨ (∃ f, StuckWith x (m.afterCalls x ws) f) ∨
      m.offset + ws.length ≤ (m.afterCalls x ws).offset := by
  induction ws generalizing m with
  | nil => exact .inr (.inr (Nat.le_refl _))
  | cons w ws ih =>
    rcases finished_or_stuck_or_opcode x m with hdone | ⟨f, hstuck⟩ | ⟨hrun, hop⟩
    · rw [(restsWith_of_finished hdone).afterCalls]
      exact .inl hdone
    · rw [hstuck.restsWith.afterCalls]
      exact .inr (.inl ⟨f, hstuck⟩)
    · have hlt := lt_offset_execute w.sink w.held hrun hop h
      rcases ih (offset_execute_bounds w.sink w.held h).2 with hdone | hstuck | hle
      · exact .inl hdone
      · exact .inr (.inl hstuck)
      · refine .inr (.inr (Nat.le_trans ?_ hle))
        rw [List.length_cons]
        omega

/-- What calls in a row execute comes in order, and nothing in front of the machine's place. -/
theorem pairwise_begunByCalls (ws : List Outlet) (h : m.offset ≤ x.code.size) :
    (m.begunByCalls x ws).Pairwise (· < ·) ∧ ∀ k ∈ m.begunByCalls x ws, m.offset ≤ k := by
  induction ws generalizing m with
  | nil => exact ⟨.nil, fun k hk => by cases hk⟩
  | cons w ws ih =>
    obtain ⟨hsorted, hbounds⟩ := begun_bounds w.sink w.held h
    obtain ⟨hstep, hle⟩ := offset_execute_bounds w.sink w.held h
    obtain ⟨hlater, hbeyond⟩ := ih hle
    have hmono := Nat.le_trans (offset_step_bounds w.sink w.held h).1 hstep
    refine ⟨List.pairwise_append.mpr ⟨hsorted, hlater, fun k hk k' hk' => ?_⟩, fun k hk => ?_⟩
    · exact Nat.lt_of_lt_of_le (hbounds k hk).2 (hbeyond k' hk')
    · rcases List.mem_append.mp hk with hk | hk
      · exact (hbounds k hk).1
      · exact Nat.le_trans hmono (hbeyond k hk)

/-- A machine that went forward with every call stands at the end of the code at last. -/
theorem settled_of_length_le (ws : List Outlet) (h : m.offset ≤ x.code.size)
    (hlong : x.code.size ≤ ws.length) :
    (m.afterCalls x ws).finished = true ∨ ∃ f, StuckWith x (m.afterCalls x ws) f := by
  rcases settled_or_advances ws h with hdone | hstuck | hle
  · exact .inl hdone
  · exact .inr hstuck
  · rcases finished_or_stuck_or_opcode x (m.afterCalls x ws) with hdone | hstuck | ⟨-, hop⟩
    · exact .inl hdone
    · exact .inr hstuck
    · obtain ⟨hlt, hend⟩ := Code.readTo_fetch hop
      omega

/-- Whatever code an executable has, and whatever sinks a machine for it is executed with, call
after call: the next call ends; the offsets of all that was executed so far are in increasing order,
so nothing was executed twice; a machine that has finished stays as it is, returns without a fault
and writes nothing; and after as many calls as the code has bytes, it has finished or is stuck, with
one fault about the byte before it that every later call returns without changing anything. -/
theorem calls_never_replay (x : Executable) (ws : List Outlet) :
    let m := (start x).afterCalls x ws
    (∀ w : Outlet, Halts w.sink x (x.code.size + 1) m w.held (m.call x w)) ∧
    ((start x).begunByCalls x ws).Pairwise (· < ·) ∧
    (m.finished = true → ∀ (more : List Outlet) (w : Outlet),
      (m.afterCalls x more).call x w = ⟨none, m, w.held⟩) ∧
    (x.code.size ≤ ws.length → m.finished = true ∨
      ∃ f, (f = .truncatedInstruction m.offset ∨ ∃ b, f = .invalidOpcode b m.offset) ∧
        ∀ (more : List Outlet) (w : Outlet),
          (m.afterCalls x more).call x w = ⟨some f, m, w.held⟩) := by
  intro m
  have hstart : (start x).offset ≤ x.code.size := Nat.zero_le _
  have hinside : m.offset ≤ x.code.size := offset_afterCalls_le ws hstart
  refine ⟨fun w => halts_execute w.sink w.held hinside, (pairwise_begunByCalls ws hstart).1, ?_, ?_⟩
  · intro hdone
    exact (restsWith_of_finished hdone).call_afterCalls
  · intro hlong
    rcases settled_of_length_le ws hstart hlong with hdone | ⟨f, hstuck⟩
    · exact .inl hdone
    · exact .inr ⟨f, hstuck.fault_eq, hstuck.restsWith.call_afterCalls⟩

/-- A write from an empty stack, and an instruction without its operands: the one byte that is left
in their place is no operation code. -/
def brokenCode : Executable :=
  ⟨"Broken", #[], ⟨#[⟨Opcode.writeLine.byte, 1⟩, ⟨Opcode.constantWide.byte, 1⟩, ⟨255, 2⟩]⟩, .empty⟩

/-- A return behind a return. -/
def doubleReturn : Executable :=
  ⟨"Double", #[], ⟨#[⟨Opcode.return.byte, 1⟩, ⟨Opcode.return.byte, 2⟩]⟩, .empty⟩

/-- A sink that cannot pass anything on, and one that takes everything. -/
def outlets : List Outlet := [⟨_, .limited none (some "closed"), ⟨"", 0⟩⟩, ⟨_, .collect, ""⟩]

/-- Two faults on the way to the byte that no call gets past; and a return that fails, so that the
next call takes the other one. -/
theorem calls_never_replay_broken :
    (brokenCode.code.size ≤ (outlets ++ outlets).length ∧
      (start brokenCode).begunByCalls brokenCode (outlets ++ outlets) = [0, 1] ∧
      ∀ more w, (((start brokenCode).afterCalls brokenCode (outlets ++ outlets)).afterCalls
        brokenCode more).call brokenCode w =
          ⟨some (.invalidOpcode 255 2),
            (start brokenCode).afterCalls brokenCode (outlets ++ outlets), w.held⟩) ∧
    (start doubleReturn).begunByCalls doubleReturn outlets = [0, 1] ∧
    ((start doubleReturn).afterCalls doubleReturn outlets).finished = true ∧
    ∀ more w, (((start doubleReturn).afterCalls doubleReturn outlets).afterCalls
      doubleReturn more).call doubleReturn w =
        ⟨none, (start doubleReturn).afterCalls doubleReturn outlets, w.held⟩ := by
  obtain ⟨-, -, -, hstuck⟩ := calls_never_replay brokenCode (outlets ++ outlets)
  obtain ⟨-, -, hfinished, -⟩ := calls_never_replay doubleReturn outlets
  have hdone : ((start doubleReturn).afterCalls doubleReturn outlets).finished = true := by
    decide +kernel
  refine ⟨⟨by decide +kernel, by decide +kernel, ?_⟩, by decide +kernel, hdone, hfinished hdone⟩
  have hrun : ((start brokenCode).afterCalls brokenCode (outlets ++ outlets)).finished = false := by
    decide +kernel
  have hfault : (((start brokenCode).afterCalls brokenCode (outlets ++ outlets)).call brokenCode
      ⟨_, .collect, ""⟩).fault = some (.invalidOpcode 255 2) := by
    decide +kernel
  rcases hstuck (by decide +kernel) with hdone | ⟨f, -, hcalls⟩
  · rw [hrun] at hdone
    cases hdone
  · have hf := hcalls [] ⟨_, .collect, ""⟩
    rw [afterCalls] at hf
    rw [hf] at hfault
    cases hfault
    exact hcalls

end Machine

end Rockstar
