import Rockstar.Program
import Rockstar.Proofs.Execution
import Rockstar.Proofs.SourceOrder

/-!
# Compiled programs mean what is written

A program that was read and compiled runs as its direct evaluation does (`execute_eq_evaluate`):
what reaches the sink, the fault that stops it, if any, and the values of all variables at the end
are the same.
-/

namespace Rockstar

/-! ## From the source to its program -/

theorem compileSource_of_parse {o : Options} {source : String} {p : List Statement}
    (h : parse o.vocabulary source.toList = .ok p) :
    compileSource o source = (compile o p).mapError .compile := by
  unfold compileSource
  rw [h]
  dsimp only
  cases compile o p <;> rfl

/-- What comes of a source that can be read is what comes of its program. -/
theorem exists_of_compileSource {o : Options} {source : String}
    {r : Except CompileError Executable}
    (h : compileSource o source = r.mapError .compile) :
    ∃ p, parse o.vocabulary source.toList = .ok p ∧ compile o p = r := by
  cases hparse : parse o.vocabulary source.toList with
  | error es =>
    unfold compileSource at h
    rw [hparse] at h
    cases r <;> cases h
  | ok p =>
    rw [compileSource_of_parse hparse] at h
    refine ⟨p, rfl, ?_⟩
    generalize compile o p = x at h ⊢
    cases x with
    | error e' =>
      cases r <;> cases h
      rfl
    | ok y =>
      cases r <;> cases h
      rfl

/-! ## The first and the last instruction -/

theorem exists_session_of_compile {o : Options} {program : List Statement} {x : Executable}
    (h : compile o program = .ok x) :
    ∃ s, CompileM.statements o program (.start o) = (.ok (), s) ∧ x = s.finish := by
  unfold compile at h
  rcases hrun : CompileM.statements o program (.start o) with ⟨result, s⟩
  rw [hrun] at h
  cases result with
  | error e => cases h
  | ok =>
    cases h
    exact ⟨s, rfl, rfl⟩

theorem tracks_start (o : Options) (x : Executable) :
    Tracks .start (.start o) x (Machine.start x).memory.fields := by
  refine ⟨⟨rfl, fun name => ?_⟩, ?_, fun i _ hi => ?_⟩
  · have hnone : (Session.start o).slots.find? name = none := by
      simp [Session.start, SlotTable.find?, SlotTable.empty, Registry.find?, Registry.empty]
    rw [hnone]
    rfl
  · simp [Machine.start]
  · simp only [Machine.start, Array.size_replicate] at hi
    simp [Machine.start, hi]

/-- Behind the code of all statements the machine flushes the sink and ends. -/
theorem step_finish {σ : Type} (sink : Sink σ) (s : Session) (fields : Array Value)
    (stack : List Value) (line : Nat) (out : σ) :
    ∃ m, m.memory = ⟨fields, stack⟩ ∧
      (s.machine fields stack line).step sink s.finish out =
        match sink.flush out with
        | (.ok _, out) => .stopped ⟨none, { m with finished := true }, out⟩
        | (.error reason, out) => .stopped ⟨some (.output reason), m, out⟩ := by
  let s' : Session := { s with asm := s.asm.emit .ret }
  have hin : s'.Within s.finish := ⟨.refl _, .refl _, List.prefix_refl _⟩
  have hemits : s.Emits .ret s' := rfl
  refine ⟨Machine.moved ⟨fields, stack⟩ (s.site s'), rfl, ?_⟩
  rw [Machine.step_of_emits sink hemits hin]
  rfl

theorem wf_of_statements {o : Options} {program : List Statement} {s : Session}
    (h : CompileM.statements o program (.start o) = (.ok (), s))
    (hplain : ∀ stmt ∈ program, ∀ v ∈ stmt.literals, v.IsPlain) : s.Wf := by
  refine (CompileM.respects_statements (CompileM.wf_passesAll o) program ?_).of_ok h
    (Session.wf_start o)
  exact fun stmt hstmt v hv => CompileM.wf_emitValue (hplain stmt hstmt v hv)

/-! ## Whole programs -/

/-- How the machine and the evaluation end. -/
structure Matches {σ : Type} (s : Session) (run : Run σ) (ref : Evaluation σ) : Prop where
  out : run.out = ref.out
  fault : run.fault.map Halt.fault = ref.halt
  ordinary : ∀ f, run.fault = some f → f.isOrdinary = true
  stack : run.fault = none → run.machine.memory.stack = []
  fields : ∃ s₁, s₁.Wf ∧ s₁.Grows s ∧
    Tracks ref.env s₁ s.finish run.machine.memory.fields

theorem matches_of_statements {o : Options} {program : List Statement} {s : Session}
    (h : CompileM.statements o program (.start o) = (.ok (), s))
    (hplain : ∀ stmt ∈ program, ∀ v ∈ stmt.literals, v.IsPlain) {σ : Type} (sink : Sink σ)
    (out : σ) :
    Matches s ((Machine.start s.finish).execute sink s.finish out)
      (evaluate sink o program .start out) := by
  have hadvances : Advances sink o s.finish program .start (.start o) s
      (Machine.start s.finish).memory.fields 0 out :=
    CompileM.advances_statements h hplain (Session.wf_start o) s.within_finish
      (tracks_start o s.finish) 0 out
  have hwf := wf_of_statements h hplain
  cases hadvances with
  | stopped heval hfault hwf₁ hgrows htracks hhalts =>
    have hrun : (Machine.start s.finish).execute sink s.finish out = _ := hhalts.execute_eq
    have href := heval []
    rw [List.append_nil] at href
    rw [hrun, href]
    refine ⟨rfl, rfl, ?_, ?_, _, hwf₁, hgrows, htracks⟩
    · intro f hf
      cases hf
      exact hfault
    · intro hnone
      cases hnone
  | @through env' fields' line' out' heval htracks hreach =>
    have hrun : (Machine.start s.finish).execute sink s.finish out = _ := hreach.execute_eq
    have href := heval []
    rw [List.append_nil] at href
    rw [hrun, href, evaluate]
    -- all statements are through; what is left is the flush at the end
    obtain ⟨m, hmemory, hstep⟩ := step_finish sink s fields' [] line' out'
    have hfields : m.memory.fields = fields' := by rw [hmemory]
    rcases hflush : sink.flush out' with ⟨result, out''⟩
    rw [hflush] at hstep
    cases result with
    | ok =>
      rw [Machine.execute_of_stopped hstep]
      refine ⟨rfl, rfl, ?_, ?_, s, hwf, Session.grows_isPreorder.refl s, ?_⟩
      · intro f hf
        cases hf
      · intro _
        show m.memory.stack = []
        rw [hmemory]
      · show Tracks env' s s.finish m.memory.fields
        rw [hfields]
        exact htracks
    | error reason =>
      rw [Machine.execute_of_stopped hstep]
      refine ⟨rfl, rfl, ?_, ?_, s, hwf, Session.grows_isPreorder.refl s, ?_⟩
      · intro f hf
        cases hf
        rfl
      · intro hnone
        cases hnone
      · show Tracks env' s s.finish m.memory.fields
        rw [hfields]
        exact htracks

/-! ## Fields at the end -/

/-- Every field holds the value of its variable, or is mysterious as long as there is none. -/
theorem Tracks.field {env : Env} {s s₁ : Session} {fields : Array Value}
    (h : Tracks env s₁ s.finish fields) (hwf₁ : s₁.Wf) (hwf : s.Wf) (hgrows : s₁.Grows s)
    {i : Nat} {slot : Slot} (hslot : s.finish.fields[i]? = some slot) :
    fields[i]? = some ((env.values slot.name).getD .mysterious) := by
  replace hslot : s.slots.get? i = some slot := hslot
  have hlt : i < fields.size := by
    rw [h.size]
    exact Registry.lt_size_of_get? hslot
  rw [h.values]
  cases hfind : s₁.slots.find? slot.name with
  | some j =>
    -- the name has one slot only, also in the session at the end
    obtain ⟨slot', hget, hname⟩ := (hwf₁.slots.keyed slot.name j).mp hfind
    have hj := (hwf.slots.keyed slot.name j).mpr ⟨slot', hgrows.slots.get? hget, hname⟩
    have hi := (hwf.slots.keyed slot.name i).mpr ⟨slot, hslot, rfl⟩
    rw [hj] at hi
    cases hi
    rw [Option.bind_some, Array.getElem?_eq_getElem hlt]
    rfl
  | none =>
    refine h.fresh i (Nat.le_of_not_lt fun hold => ?_) hlt
    have hget : s₁.slots.get? i = some slot := by
      have hsome : s₁.slots.get? i = some s₁.slots.slots.entries[i] :=
        Array.getElem?_eq_getElem hold
      have hlater := hgrows.slots.get? hsome
      rw [hsome, ← hlater]
      exact hslot
    have hsome : s₁.slots.find? slot.name = some i :=
      (hwf₁.slots.keyed slot.name i).mpr ⟨slot, hget, rfl⟩
    rw [hfind] at hsome
    cases hsome

/-- Every variable that has a value has a field. -/
theorem Tracks.exists_field {env : Env} {s s₁ : Session} {fields : Array Value}
    (h : Tracks env s₁ s.finish fields) (hwf₁ : s₁.Wf) (hgrows : s₁.Grows s) {name : String}
    {v : Value} (hv : env.values name = some v) : ∃ slot ∈ s.finish.fields, slot.name = name := by
  rw [h.values] at hv
  obtain ⟨i, hfind, -⟩ := Option.bind_eq_some_iff.mp hv
  obtain ⟨slot, hget, hname⟩ := (hwf₁.slots.keyed name i).mp hfind
  exact ⟨slot, Array.mem_of_getElem? (hgrows.slots.get? hget), hname⟩

/-- A program that was read and compiled runs as it is evaluated, whatever the sink does: the sink
is left in the same state; the run ends with the fault of the evaluation, on the line of the
statement at fault, or without one when the evaluation has none; and at the end every field holds
the value of its variable. -/
theorem execute_eq_evaluate {o : Options} {source : String} {program : List Statement}
    {x : Executable} (hparse : parse o.vocabulary source.toList = .ok program)
    (hcompile : compile o program = .ok x) {σ : Type} (sink : Sink σ) (out : σ) :
    let ref := evaluate sink o program .start out
    let run := (Machine.start x).execute sink x out
    run.out = ref.out ∧ run.fault.map Halt.fault = ref.halt ∧
      (∀ (i : Nat) (slot : Slot), x.fields[i]? = some slot →
        run.machine.memory.fields[i]? = some ((ref.env.values slot.name).getD .mysterious)) ∧
      ∀ name v, ref.env.values name = some v → ∃ slot ∈ x.fields, slot.name = name := by
  obtain ⟨s, hstatements, rfl⟩ := exists_session_of_compile hcompile
  have hplain := (source_of_parse hparse).literals
  have hmatches := matches_of_statements hstatements hplain sink out
  have hwf := wf_of_statements hstatements hplain
  obtain ⟨s₁, hwf₁, hgrows, htracks⟩ := hmatches.fields
  exact ⟨hmatches.out, hmatches.fault, fun i slot hslot => htracks.field hwf₁ hwf hgrows hslot,
    fun name v hv => htracks.exists_field hwf₁ hgrows hv⟩

theorem eq_ok_of_toOption {ε α : Type} {e : Except ε α} {a : α} (h : e.toOption = some a) :
    e = .ok a := by
  cases e with
  | error _ => cases h
  | ok _ =>
    cases h
    rfl

theorem eq_error_of_map {ε α : Type} {x : Except ε α} {e : ε}
    (h : x.map (fun _ => ()) = .error e) : x = .error e := by
  cases x with
  | error _ =>
    cases h
    rfl
  | ok _ => cases h

/-- Three lines: an assignment, a pronoun that is written, and a sum that fails. -/
def skySource : String := "The sky is 5\nSay it\nSay it plus null"

/-- The statements of `skySource`. -/
def skyProgram : List Statement :=
  [.assign ⟨"The sky", ⟨1, 1, 7⟩⟩ (.literal (.number 5) ⟨1, 12, 1⟩) ⟨1, 1, 12⟩,
    .output .say (.variable ⟨"it", ⟨2, 5, 2⟩⟩) ⟨2, 1, 6⟩,
    .output .say (.binary (.arith .add) (.variable ⟨"it", ⟨3, 5, 2⟩⟩) (.literal .null ⟨3, 13, 4⟩))
      ⟨3, 1, 16⟩]

theorem parse_skySource :
    parse (Options.vocabulary {}) skySource.toList = .ok skyProgram :=
  eq_ok_of_toOption (by decide +kernel)

theorem exists_compile_skyProgram : ∃ x, compile {} skyProgram = .ok x := by
  have hsome : (compile {} skyProgram).toOption.isSome = true := by decide +kernel
  obtain ⟨x, hx⟩ := Option.isSome_iff_exists.mp hsome
  exact ⟨x, eq_ok_of_toOption hx⟩

/-- The machine writes the five and stops at the sum, as evaluation does. -/
theorem execute_eq_evaluate_sky :
    ∃ x, parse (Options.vocabulary {}) skySource.toList = .ok skyProgram ∧
      compile {} skyProgram = .ok x ∧
      ((Machine.start x).execute Sink.collect x "").out = "5\n" ∧
      ((Machine.start x).execute Sink.collect x "").fault.map Halt.fault =
        some (.fault (.typeMismatch ⟨"add", .number, .null⟩ 3)) := by
  obtain ⟨x, hx⟩ := exists_compile_skyProgram
  obtain ⟨hout, hfault, -, -⟩ := execute_eq_evaluate parse_skySource hx Sink.collect ""
  refine ⟨x, parse_skySource, hx, hout.trans ?_, hfault.trans ?_⟩
  · decide +kernel
  · decide +kernel

end Rockstar
