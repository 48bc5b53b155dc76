import Rockstar.Proofs.ClosedCode
import Rockstar.Proofs.Refusal

/-!
# Programs and their beginnings

Statements that are added at the end change nothing about what is compiled before them: slots,
constants and code are only ever added to. The beginning of a program has fewer fields and constants
than the program, but its code refers to none of the others (`CompileM.fits_of_statements`). So a
machine for the beginning and one for the whole program, with stacks alike and the same values in
their common fields (`Memory.Agrees`), do the same with each instruction (`Memory.perform_agrees`),
and go through the code of the beginning side by side (`Machine.agrees_through`). There the one
machine ends and the other goes on; what it writes can only add to what was written
(`Machine.text_execute`).
-/

namespace Rockstar

/-! ## Machines side by side -/

/-- The second memory has the stack of the first one, and behind its `n` fields perhaps more. -/
structure Memory.Agrees (n : Nat) (m m' : Memory) : Prop where
  stack : m'.stack = m.stack
  size : m.fields.size = n
  fields : m.fields.toList <+: m'.fields.toList

/-- Effects that write or say the same and leave memories that agree, unless they are faults. -/
inductive Effect.Agrees (n : Nat) : Effect → Effect → Prop where
  | proceed {m m' : Memory} : m.Agrees n m' → Agrees n (.proceed m) (.proceed m')
  | write (text : String) {m m' : Memory} :
      m.Agrees n m' → Agrees n (.write text m) (.write text m')
  | finish {m m' : Memory} : m.Agrees n m' → Agrees n (.finish m) (.finish m')
  | fault (f : Fault) (m m' : Memory) : Agrees n (.fault f m) (.fault f m')

namespace Memory

variable {n : Nat} {m m' : Memory} {site : Site}

theorem Agrees.push (h : m.Agrees n m') (v : Value) : (m.push v).Agrees n (m'.push v) :=
  ⟨by rw [Memory.push, Memory.push, h.stack], h.size, h.fields⟩

theorem Agrees.withStack (h : m.Agrees n m') (stack : List Value) :
    Agrees n { m with stack := stack } { m' with stack := stack } :=
  ⟨rfl, h.size, h.fields⟩

theorem Agrees.field (h : m.Agrees n m') {i : Nat} (hi : i < n) :
    m'.fields[i]? = m.fields[i]? := by
  have hlt : i < m.fields.size := h.size ▸ hi
  rw [Array.getElem?_eq_getElem hlt]
  exact getElem?_of_prefix h.fields (Array.getElem?_eq_getElem hlt)

theorem Agrees.set (h : m.Agrees n m') {i : Nat} (hi : i < n) (v : Value) :
    Agrees n { m with fields := m.fields.setIfInBounds i v }
      { m' with fields := m'.fields.setIfInBounds i v } := by
  refine ⟨h.stack, by simpa using h.size, ?_⟩
  obtain ⟨more, hmore⟩ := h.fields
  have hlt : i < m.fields.toList.length := by simpa [h.size] using hi
  refine ⟨more, ?_⟩
  simp only [Array.toList_setIfInBounds]
  rw [← hmore, List.set_append_left _ _ hlt]

theorem pop_agrees (h : m.Agrees n m') {f f' : Value → Memory → Effect}
    (hf : ∀ v (m m' : Memory), m.Agrees n m' → (f v m).Agrees n (f' v m')) :
    (m.pop site f).Agrees n (m'.pop site f') := by
  unfold pop
  rw [h.stack]
  cases m.stack with
  | nil => exact .fault _ _ _
  | cons v rest => exact hf v _ _ (h.withStack rest)

theorem popPair_agrees (h : m.Agrees n m') {f f' : Value → Value → Memory → Effect}
    (hf : ∀ left right (m m' : Memory), m.Agrees n m' →
      (f left right m).Agrees n (f' left right m')) :
    (m.popPair site f).Agrees n (m'.popPair site f') :=
  pop_agrees h fun right _ _ h => pop_agrees h fun left _ _ h => hf left right _ _ h

theorem callRoutine_agrees (h : m.Agrees n m') (r : Routine) :
    (m.callRoutine site r).Agrees n (m'.callRoutine site r) := by
  unfold callRoutine
  rw [h.stack]
  split
  · exact .proceed (h.withStack _)
  · split
    · exact .proceed (h.withStack _)
    · exact .fault _ _ _
  · exact .proceed (h.withStack _)
  · exact .fault _ _ _

theorem call_agrees (h : m.Agrees n m') {pool pool' : Pool} {i : Nat}
    (hget : pool'.get? i = pool.get? i) (argc : Nat) :
    (m.call site pool i argc).Agrees n (m'.call site pool' i argc) := by
  unfold call
  rw [hget]
  split
  · split
    · split
      · exact callRoutine_agrees h _
      · exact .fault _ _ _
    · exact .fault _ _ _
  · exact .fault _ _ _

theorem pushConstant_agrees (h : m.Agrees n m') {pool pool' : Pool} {i : Nat}
    (hget : pool'.get? i = pool.get? i) :
    (m.pushConstant pool i).Agrees n (m'.pushConstant pool' i) := by
  unfold pushConstant
  rw [hget]
  split
  · exact .proceed (h.push _)
  · exact .fault _ _ _

theorem arith_agrees (h : m.Agrees n m') (op : Arithmetic) (left right : Value) :
    (m.arith site op left right).Agrees n (m'.arith site op left right) := by
  unfold arith
  split
  · exact .proceed (h.push _)
  · exact .fault _ _ _
  · exact .fault _ _ _

/-- Memories that agree are treated alike by an instruction that needs no more than they have in
common. -/
theorem perform_agrees (h : m.Agrees n m') {pool pool' : Pool} {i : Instr}
    (hfits : i.Fits n pool.size) (hpool : pool.table.Grows pool'.table) :
    (m.perform site pool i).Agrees n (m'.perform site pool' i) := by
  -- only a constant that the smaller pool has is the same one in both
  have hget : ∀ k, i.constant? = some k → pool'.get? k = pool.get? k := by
    intro k hk
    have hlt : k < pool.table.entries.size := hfits.constant k hk
    have hsome : pool.get? k = some pool.table.entries[k] := Array.getElem?_eq_getElem hlt
    rw [hsome]
    exact hpool.get? hsome
  cases i with
  | constant k => exact pushConstant_agrees h (hget _ rfl)
  | constantWide k => exact pushConstant_agrees h (hget _ rfl)
  | pushBool b => exact .proceed (h.push _)
  | pushNull => exact .proceed (h.push _)
  | pushMysterious => exact .proceed (h.push _)
  | getField k =>
    have hfield := h.field (hfits.origin _ rfl)
    unfold perform
    dsimp only
    rw [hfield]
    split
    · exact .proceed (h.push _)
    · exact .fault _ _ _
  | setField k =>
    have hlt := hfits.target _ rfl
    rw [perform, perform]
    refine pop_agrees h fun v m m' h => ?_
    have hle := h.fields.length_le
    have hbelow : k.toNat < m.fields.size := h.size ▸ hlt
    have hbelow' : k.toNat < m'.fields.size := Nat.lt_of_lt_of_le hbelow (by simpa using hle)
    rw [if_pos hbelow, if_pos hbelow']
    exact .proceed (h.set hlt v)
  | arith op => exact popPair_agrees h fun left right m m' h => arith_agrees h op left right
  | expectNumber depth =>
    unfold perform
    dsimp only
    rw [h.stack]
    split
    · exact .proceed h
    · exact .fault _ _ _
    · exact .fault _ _ _
  | equality positive => exact popPair_agrees h fun left right m m' h => .proceed (h.push _)
  | compare op =>
    refine popPair_agrees h fun left right m m' h => ?_
    split
    · exact .proceed (h.push _)
    · exact .fault _ _ _
  | not =>
    rw [perform, perform]
    exact pop_agrees h fun v m m' h => .proceed (h.push _)
  | logic op => exact popPair_agrees h fun left right m m' h => .proceed (h.push _)
  | call k argc => exact call_agrees h (hget _ rfl) _
  | writeLine => exact pop_agrees h fun v m m' h => .write _ h
  | ret => exact .finish h

end Memory

/-- Both machines run at the same place, with memories that agree. -/
structure Machine.Agrees (n : Nat) (m m' : Machine) : Prop where
  memory : m.memory.Agrees n m'.memory
  offset : m'.offset = m.offset
  running : m.finished = false
  running' : m'.finished = false

/-- Runs that end alike, as seen from outside. -/
def Run.EndsLike {σ : Type} (run run' : Run σ) : Prop := run'.fault = run.fault ∧ run'.out = run.out

/-- Both machines run on with the same output, or both have stopped alike. -/
inductive Progress.Agrees {σ : Type} (n : Nat) : Progress σ → Progress σ → Prop where
  | running {m m' : Machine} (out : σ) : m.Agrees n m' → Agrees n (.running m out) (.running m' out)
  | stopped {run run' : Run σ} : run.EndsLike run' → Agrees n (.stopped run) (.stopped run')

namespace Machine

variable {σ : Type} {n : Nat} {m m' : Machine}

theorem apply_agrees (sink : Sink σ) (site : Site) (out : σ) {effect effect' : Effect}
    (h : effect.Agrees n effect') :
    (apply sink site out effect).Agrees n (apply sink site out effect') := by
  cases h with
  | proceed h => exact .running out ⟨h, rfl, rfl, rfl⟩
  | write text h =>
    unfold apply
    dsimp only
    split
    · exact .running _ ⟨h, rfl, rfl, rfl⟩
    · exact .stopped ⟨rfl, rfl⟩
  | finish h =>
    unfold apply
    dsimp only
    split
    · exact .stopped ⟨rfl, rfl⟩
    · exact .stopped ⟨rfl, rfl⟩
  | fault f m m' => exact .stopped ⟨rfl, rfl⟩

variable {x x' : Executable}

/-- One instruction that stands at the same place in both executables. -/
theorem step_agrees (sink : Sink σ) (out : σ) (h : m.Agrees n m') {i : Instr} {line next : Nat}
    (hfetch : x.code.fetch m.offset = .instr i line next)
    (hfetch' : x'.code.fetch m.offset = .instr i line next) (hfits : i.Fits n x.pool.size)
    (hpool : x.pool.table.Grows x'.pool.table) :
    (m.step sink x out).Agrees n (m'.step sink x' out) := by
  rw [← h.offset] at hfetch'
  rw [step_of_fetch out h.running hfetch, step_of_fetch out h.running' hfetch', h.offset]
  exact apply_agrees sink _ out (Memory.perform_agrees h.memory hfits hpool)

/-- Machines that agree go side by side through instructions that both executables have, to the end
of them unless both are stopped before. -/
theorem agrees_through (sink : Sink σ) {es : List Entry} (front : List Cell)
    {back back' : List Cell}
    (hcode : x.code.cells.toList = front ++ (es.flatMap Entry.cells ++ back))
    (hcode' : x'.code.cells.toList = front ++ (es.flatMap Entry.cells ++ back'))
    (hpool : x.pool.table.Grows x'.pool.table)
    (hfits : ∀ e ∈ es, e.instr.Fits n x.pool.size) (h : m.Agrees n m')
    (hoffset : m.offset = front.length) (out : σ) :
    (m.execute sink x out).EndsLike (m'.execute sink x' out) ∨
      ∃ (m₁ m₁' : Machine) (out₁ : σ), m₁.Agrees n m₁' ∧
        m₁.offset = (front ++ es.flatMap Entry.cells).length ∧
        m.execute sink x out = m₁.execute sink x out₁ ∧
        m'.execute sink x' out = m₁'.execute sink x' out₁ := by
  induction es generalizing front m m' out with
  | nil => exact .inr ⟨m, m', out, h, by simpa using hoffset, rfl, rfl⟩
  | cons e es ih =>
    rw [List.flatMap_cons, List.append_assoc] at hcode hcode'
    have hfetch := Code.fetch_of_cells hcode
    have hfetch' := Code.fetch_of_cells hcode'
    rw [← hoffset] at hfetch hfetch'
    have hstep := step_agrees sink out h hfetch hfetch' (hfits e (by simp)) hpool
    generalize hone : m.step sink x out = progress at hstep
    generalize hother : m'.step sink x' out = progress' at hstep
    cases hstep with
    | @running m₁ m₁' out₁ hagrees =>
      rw [execute_of_running hone, execute_of_running hother]
      have hnext : m₁.offset = m.offset + 1 + e.instr.opcode.operandSize := by
        rw [offset_of_step_running hone, hfetch]
        rfl
      rw [hoffset, Nat.add_assoc, ← e.length_cells, ← List.length_append] at hnext
      -- the instruction is behind both machines now, and so part of the front
      rw [← List.append_assoc] at hcode hcode'
      have hrest := ih (front ++ e.cells) hcode hcode' (fun e' he' => hfits e' (by simp [he']))
        hagrees hnext out₁
      rwa [List.append_assoc, ← List.flatMap_cons] at hrest
    | stopped hends =>
      rw [execute_of_stopped hone, execute_of_stopped hother]
      exact .inl hends

end Machine

/-! ## Sinks that collect what is written -/

/-- The sink never fails, and its states hold a text to which whatever is written is added. -/
structure Sink.Collects {σ : Type} (sink : Sink σ) (text : σ → String) : Prop where
  write : ∀ line out, ∃ out', sink.write line out = (.ok (), out') ∧ text out' = text out ++ line
  flush : ∀ out, ∃ out', sink.flush out = (.ok (), out') ∧ text out' = text out

theorem Sink.collects_collect : Sink.collect.Collects id :=
  ⟨fun _ _ => ⟨_, rfl, rfl⟩, fun _ => ⟨_, rfl, rfl⟩⟩

/-- The sink after a step. -/
def Progress.out {σ : Type} : Progress σ → σ
  | .running _ out => out
  | .stopped run => run.out

namespace Machine

variable {σ : Type} {sink : Sink σ} {text : σ → String}

theorem text_apply (hsink : sink.Collects text) (site : Site) (out : σ) (effect : Effect) :
    ∃ more, text (apply sink site out effect).out = text out ++ more := by
  have hsame : ∃ more, text out = text out ++ more := ⟨"", by simp⟩
  cases effect with
  | proceed memory => exact hsame
  | write line memory =>
    obtain ⟨out', hwrite, htext⟩ := hsink.write line out
    rw [apply, hwrite]
    exact ⟨line, htext⟩
  | finish memory =>
    obtain ⟨out', hflush, htext⟩ := hsink.flush out
    rw [apply, hflush]
    exact ⟨"", htext.trans (by simp)⟩
  | fault f memory => exact hsame

theorem text_step (hsink : sink.Collects text) (x : Executable) (m : Machine) (out : σ) :
    ∃ more, text (m.step sink x out).out = text out ++ more := by
  have hsame : ∃ more, text out = text out ++ more := ⟨"", by simp⟩
  cases hfinished : m.finished with
  | true =>
    rw [step, hfinished]
    exact hsame
  | false =>
    cases hfetch : x.code.fetch m.offset with
    | instr i line next =>
      rw [step_of_fetch out hfinished hfetch]
      exact text_apply hsink _ out _
    | _ =>
      rw [step, hfinished, hfetch]
      exact hsame

/-- A machine only adds to the text. -/
theorem text_execute (hsink : sink.Collects text) (x : Executable) (m : Machine) (out : σ) :
    ∃ more, text (m.execute sink x out).out = text out ++ more := by
  fun_induction execute sink x m out with
  | case1 m out m' out' hstep ih =>
    obtain ⟨first, hfirst⟩ := text_step hsink x m out
    obtain ⟨more, hmore⟩ := ih
    rw [hstep] at hfirst
    refine ⟨first ++ more, ?_⟩
    rw [hmore, ← String.append_assoc, ← hfirst]
    rfl
  | case2 m out run hstep =>
    obtain ⟨more, hmore⟩ := text_step hsink x m out
    rw [hstep] at hmore
    exact ⟨more, hmore⟩

end Machine

/-! ## Beginnings of programs -/

/-- Statements are compiled up to the first error. -/
theorem CompileM.statements_append_error {o : Options} {before after : List Statement}
    {s s' : Session} {e : CompileError} (h : statements o before s = (.error e, s')) :
    statements o (before ++ after) s = (.error e, s') := by
  induction before generalizing s with
  | nil => cases h
  | cons stmt before ih =>
    show (statement o stmt >>= fun _ => statements o (before ++ after)) s = _
    rw [bind_apply]
    rcases bind_eq_error h with hstmt | ⟨_, s₁, hstmt, hrest⟩
    · rw [hstmt]
    · rw [hstmt]
      exact ih hrest

/-- Behind the code of a session its executable has a return. -/
theorem Session.cells_finish (s : Session) :
    s.finish.code.cells.toList =
      s.asm.code.cells.toList ++ [⟨Opcode.return.byte, s.asm.line⟩] := by
  rw [Session.finish, Assembler.finish, Assembler.emit, Code.cells_append]
  rfl

theorem Machine.start_agrees (x x' : Executable) (h : x.fields.toList <+: x'.fields.toList) :
    (Machine.start x).Agrees x.fields.size (Machine.start x') := by
  refine ⟨⟨rfl, by simp [Machine.start], ?_⟩, rfl, rfl, rfl⟩
  have hle : x.fields.size ≤ x'.fields.size := by simpa using h.length_le
  simp only [Machine.start, Array.toList_replicate]
  refine ⟨List.replicate (x'.fields.size - x.fields.size) .mysterious, ?_⟩
  rw [List.replicate_append_replicate, Nat.add_sub_cancel' hle]

/-- A program runs as its beginning does: both end alike, or the beginning comes to its end without
a fault and the text of the program begins with what it has written. -/
theorem Session.runs_of_grows {o : Options} {program : List Statement} {s s' : Session}
    (h : CompileM.statements o program (.start o) = (.ok (), s)) (hgrows : s.Grows s')
    {σ : Type} {sink : Sink σ} {text : σ → String} (hsink : sink.Collects text) (out : σ) :
    ((Machine.start s.finish).execute sink s.finish out).EndsLike
        ((Machine.start s'.finish).execute sink s'.finish out) ∨
      ((Machine.start s.finish).execute sink s.finish out).fault = none ∧
      ∃ more, text ((Machine.start s'.finish).execute sink s'.finish out).out =
        text ((Machine.start s.finish).execute sink s.finish out).out ++ more := by
  obtain ⟨es, hspells, hfits⟩ := CompileM.fits_of_statements h
  obtain ⟨added, hadded⟩ := hgrows.code
  have hcode := s.cells_finish
  have hcode' := s'.cells_finish
  rw [← hadded, List.append_assoc] at hcode'
  have hsize := hspells.length_eq
  rw [hspells] at hcode hcode'
  have hstart := Machine.start_agrees s.finish s'.finish hgrows.slots
  rcases Machine.agrees_through sink [] hcode hcode' hgrows.pool hfits hstart rfl out with
    hends | ⟨m, m', out₁, hagrees, hoffset, hrun, hrun'⟩
  · exact .inl hends
  · refine .inr ?_
    obtain ⟨⟨fields, stack⟩, offset, line, finished⟩ := m
    obtain rfl : finished = false := hagrees.running
    obtain rfl : offset = s.asm.code.size := hoffset.trans hsize
    -- the return flushes the sink, which cannot fail
    obtain ⟨out₂, hflush, htext⟩ := hsink.flush out₁
    obtain ⟨last, -, hstep⟩ := step_finish sink s fields stack line out₁
    rw [hflush] at hstep
    obtain ⟨more, hmore⟩ := Machine.text_execute hsink s'.finish m' out₁
    rw [hrun.trans (Machine.execute_of_stopped hstep), hrun']
    exact ⟨rfl, more, by rw [hmore, htext]⟩

/-- Compilation and execution go from the beginning of a program to its end. If a program is
refused, then with any more statements it is refused for the same reason. If it compiles with more
statements, it compiles without them, to fewer fields and constants and less code, the code up to
its return; every cell of code has its source line with it. And on a sink that never fails the
additional statements come after everything else: where the beginning stops with a fault, the whole
program stops with that fault and the same output, and otherwise its output continues that of the
beginning. -/
theorem compile_append (o : Options) (p q : List Statement) :
    (∀ e, compile o p = .error e → compile o (p ++ q) = .error e) ∧
    ∀ x', compile o (p ++ q) = .ok x' → ∃ x, compile o p = .ok x ∧
      x.fields.toList <+: x'.fields.toList ∧
      x.pool.table.entries.toList <+: x'.pool.table.entries.toList ∧
      (∃ cells more line line', x.code.cells.toList = cells ++ [⟨Opcode.return.byte, line⟩] ∧
        x'.code.cells.toList = cells ++ more ++ [⟨Opcode.return.byte, line'⟩]) ∧
      ∀ (σ : Type) (sink : Sink σ) (text : σ → String), sink.Collects text → ∀ out,
        let run := (Machine.start x).execute sink x out
        let run' := (Machine.start x').execute sink x' out
        (∀ f, run.fault = some f → run'.fault = some f ∧ run'.out = run.out) ∧
        (run.fault = none → ∃ more, text run'.out = text run.out ++ more) := by
  refine ⟨fun e he => ?_, fun x' hx' => ?_⟩
  · obtain ⟨s, hstatements⟩ := exists_session_of_error he
    rw [compile, CompileM.statements_append_error hstatements]
  · obtain ⟨s', hstatements, rfl⟩ := exists_session_of_compile hx'
    obtain ⟨s, hbefore, hafter⟩ := CompileM.statements_append hstatements
    have hgrows : s.Grows s' := (CompileM.grows_statements o q).of_ok hafter
    refine ⟨s.finish, by rw [compile, hbefore], hgrows.slots, hgrows.pool, ?_, ?_⟩
    · obtain ⟨more, hmore⟩ := hgrows.code
      refine ⟨_, more, _, s'.asm.line, s.cells_finish, ?_⟩
      rw [hmore]
      exact s'.cells_finish
    · intro σ sink text hsink out run run'
      rcases Session.runs_of_grows hbefore hgrows hsink out with ⟨hfault, hout⟩ | ⟨hnone, hmore⟩
      · refine ⟨fun f hf => ⟨hfault.trans hf, hout⟩, fun _ => ⟨"", ?_⟩⟩
        rw [String.append_empty]
        exact congrArg text hout
      · refine ⟨fun f hf => ?_, fun _ => hmore⟩
        rw [hnone] at hf
        cases hf

/-- The fault and the output of a program on the sink that takes everything. -/
def outcome? (program : List Statement) : Option (Option Fault × String) :=
  (compile {} program).toOption.map fun x =>
    (((Machine.start x).execute .collect x "").fault, ((Machine.start x).execute .collect x "").out)

theorem exists_of_outcome? {program : List Statement} {fault : Option Fault} {out : String}
    (h : outcome? program = some (fault, out)) :
    ∃ x, compile {} program = .ok x ∧ ((Machine.start x).execute .collect x "").fault = fault ∧
      ((Machine.start x).execute .collect x "").out = out := by
  obtain ⟨x, hx, hrun⟩ := Option.map_eq_some_iff.mp h
  cases hrun
  exact ⟨x, eq_ok_of_toOption hx, rfl, rfl⟩

/-- A pronoun without a referent, whatever comes after it; a program that fails at its last line and
so never gets to what is added; and one that fails at a line that was added. -/
theorem compile_append_sky :
    compile {} (skyProgram.drop 1 ++ skyProgram) = .error (.unresolvedPronoun "it" ⟨2, 5, 2⟩) ∧
    (∃ x', compile {} (skyProgram ++ skyProgram) = .ok x' ∧
      ((Machine.start x').execute .collect x' "").fault =
        some (.typeMismatch ⟨"add", .number, .null⟩ 3) ∧
      ((Machine.start x').execute .collect x' "").out = "5\n") ∧
    ∃ x', compile {} (skyProgram.take 2 ++ skyProgram.drop 2) = .ok x' ∧
      ∃ more, ((Machine.start x').execute .collect x' "").out = "5\n" ++ more := by
  have hrefused : compile {} (skyProgram.drop 1) = .error (.unresolvedPronoun "it" ⟨2, 5, 2⟩) :=
    eq_error_of_map (by decide +kernel)
  refine ⟨(compile_append {} _ skyProgram).1 _ hrefused, ?_, ?_⟩
  · have hfails : outcome? skyProgram =
        some (some (.typeMismatch ⟨"add", .number, .null⟩ 3), "5\n") := by
      decide +kernel
    have hsome : (compile {} (skyProgram ++ skyProgram)).toOption.isSome = true := by
      decide +kernel
    obtain ⟨x, hx, hfault, hout⟩ := exists_of_outcome? hfails
    obtain ⟨x', hx'⟩ := Option.isSome_iff_exists.mp hsome
    obtain ⟨x₁, hx₁, -, -, -, hruns⟩ :=
      (compile_append {} skyProgram skyProgram).2 x' (eq_ok_of_toOption hx')
    rw [hx] at hx₁
    cases hx₁
    obtain ⟨hfault', hout'⟩ := (hruns String .collect id Sink.collects_collect "").1 _ hfault
    exact ⟨x', eq_ok_of_toOption hx', hfault', hout'.trans hout⟩
  · have hends : outcome? (skyProgram.take 2) = some (none, "5\n") := by decide +kernel
    obtain ⟨x, hx, hfault, hout⟩ := exists_of_outcome? hends
    obtain ⟨x', hx'⟩ := exists_compile_skyProgram
    rw [← List.take_append_drop 2 skyProgram] at hx'
    obtain ⟨x₁, hx₁, -, -, -, hruns⟩ := (compile_append {} _ _).2 x' hx'
    rw [hx] at hx₁
    cases hx₁
    obtain ⟨more, hmore⟩ := (hruns String .collect id Sink.collects_collect "").2 hfault
    exact ⟨x', hx', more, by rw [← hout]; exact hmore⟩

end Rockstar
