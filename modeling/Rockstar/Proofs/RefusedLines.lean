import Mathlib.Order.Interval.Finset.Nat
import Rockstar.Proofs.Correctness

/-!
# Lines that a sink refuses

A sink may refuse a line. The machine has then taken the value from its stack and stands behind the
instruction, as it does when the line was taken: the next call goes on from there. So a run that is
resumed after every refusal differs from an undisturbed one in the lines that were refused, and in
nothing else (`Machine.resumed_loses_refused`).

What an instruction does depends on the sink only in the answer to a line or to the flush at the end
(`Machine.acts`). An undisturbed run is followed step by step, and the calls of the other one are
put together along it (`Machine.Resumed`).
-/

namespace Rockstar

/-! ## One step, whatever the sink -/

namespace Machine

/-- What the next step of a machine does, told without the sink. -/
inductive Acts (x : Executable) (m : Machine) : Prop where
  | proceeds (m' : Machine)
      (h : ∀ {σ : Type} (sink : Sink σ) (out : σ), m.step sink x out = .running m' out)
  | writes (line : String) (m' : Machine)
      (h : ∀ {σ : Type} (sink : Sink σ) (out : σ), m.step sink x out =
        match sink.write line out with
        | (.ok _, out) => .running m' out
        | (.error reason, out) => .stopped ⟨some (.output reason), m', out⟩)
  | returns (m' : Machine)
      (h : ∀ {σ : Type} (sink : Sink σ) (out : σ), m.step sink x out =
        match sink.flush out with
        | (.ok _, out) => .stopped ⟨none, { m' with finished := true }, out⟩
        | (.error reason, out) => .stopped ⟨some (.output reason), m', out⟩)
  | rests (hfinished : m.finished = true)
      (h : ∀ {σ : Type} (sink : Sink σ) (out : σ), m.step sink x out = .stopped ⟨none, m, out⟩)
  | faults (f : Fault) (m' : Machine)
      (h : ∀ {σ : Type} (sink : Sink σ) (out : σ), m.step sink x out = .stopped ⟨some f, m', out⟩)

theorem acts (x : Executable) (m : Machine) : Acts x m := by
  cases hfinished : m.finished with
  | true => exact .rests hfinished fun sink out => by rw [step, hfinished]; rfl
  | false =>
    cases hfetch : x.code.fetch m.offset with
    | ended => exact .faults _ m fun sink out => by rw [step, hfinished, hfetch]; rfl
    | invalid b line => exact .faults _ m fun sink out => by rw [step, hfinished, hfetch]; rfl
    | truncated op line operand =>
      exact .faults _ _ fun sink out => by rw [step, hfinished, hfetch]; rfl
    | instr i line next =>
      -- the memory decides what is to be done, and the sink what becomes of it
      cases heffect : m.memory.perform ⟨m.offset, next, line⟩ x.pool i with
      | proceed memory =>
        exact .proceeds _ fun sink out => by rw [step_of_fetch out hfinished hfetch, heffect]; rfl
      | write text memory =>
        exact .writes text _ fun sink out => by
          rw [step_of_fetch out hfinished hfetch, heffect]; rfl
      | finish memory =>
        exact .returns _ fun sink out => by rw [step_of_fetch out hfinished hfetch, heffect]; rfl
      | fault f memory =>
        exact .faults f _ fun sink out => by rw [step_of_fetch out hfinished hfetch, heffect]; rfl

end Machine

/-! ## Sinks that refuse lines -/

/-- What can be told from the states of a sink: how many lines were offered to it, and those that it
took. -/
structure Tally (σ : Type) where
  offered : σ → Nat
  taken : σ → List String

/-- Of the lines that are offered the sink refuses those with the given numbers, counted from one
and each as a whole. It takes the others, and it can be flushed. -/
structure Sink.Refuses {σ : Type} (sink : Sink σ) (tally : Tally σ) (refused : Finset Nat) :
    Prop where
  refuse : ∀ line out, tally.offered out + 1 ∈ refused →
    ∃ reason out', sink.write line out = (.error reason, out') ∧
      tally.offered out' = tally.offered out + 1 ∧ tally.taken out' = tally.taken out
  take : ∀ line out, tally.offered out + 1 ∉ refused →
    ∃ out', sink.write line out = (.ok (), out') ∧
      tally.offered out' = tally.offered out + 1 ∧ tally.taken out' = tally.taken out ++ [line]
  flush : ∀ out, ∃ out', sink.flush out = (.ok (), out') ∧
    tally.offered out' = tally.offered out ∧ tally.taken out' = tally.taken out

/-- The lines, the first of which has the number `first`, without those that are refused. -/
def remaining (refused : Finset Nat) (first : Nat) (lines : List String) : List String :=
  ((lines.zipIdx first).filter (·.2 ∉ refused)).map Prod.fst

/-- How many of the lines are refused. -/
def refusals (refused : Finset Nat) (first : Nat) (lines : List String) : Nat :=
  (List.range' first lines.length).countP (· ∈ refused)

section Counting

variable {refused : Finset Nat} {first : Nat}

theorem remaining_of_mem (h : first ∈ refused) (line : String) (lines : List String) :
    remaining refused first (line :: lines) = remaining refused (first + 1) lines := by
  simp [remaining, List.zipIdx_cons, h]

theorem remaining_of_not_mem (h : first ∉ refused) (line : String) (lines : List String) :
    remaining refused first (line :: lines) = line :: remaining refused (first + 1) lines := by
  simp [remaining, List.zipIdx_cons, h]

theorem refusals_of_mem (h : first ∈ refused) (line : String) (lines : List String) :
    refusals refused first (line :: lines) = refusals refused (first + 1) lines + 1 := by
  simp [refusals, List.range'_succ, h]

theorem refusals_of_not_mem (h : first ∉ refused) (line : String) (lines : List String) :
    refusals refused first (line :: lines) = refusals refused (first + 1) lines := by
  simp [refusals, List.range'_succ, h]

/-- If all numbers belong to lines, there are as many refusals as numbers. -/
theorem refusals_eq_card {lines : List String} (h : refused ⊆ Finset.Icc 1 lines.length) :
    refusals refused 1 lines = refused.card := by
  have hnumbers : ((List.range' 1 lines.length).filter (· ∈ refused)).toFinset = refused := by
    ext k
    have hk : k ∈ refused → 1 ≤ k ∧ k ≤ lines.length := fun hmem => Finset.mem_Icc.mp (h hmem)
    simp only [List.mem_toFinset, List.mem_filter, List.mem_range'_1, decide_eq_true_eq]
    constructor
    · exact fun hmem => hmem.2
    · intro hmem
      have hle := hk hmem
      exact ⟨by omega, hmem⟩
  have hnodup : ((List.range' 1 lines.length).filter (· ∈ refused)).Nodup :=
    List.Nodup.filter _ List.nodup_range'
  rw [refusals, List.countP_eq_length_filter, ← List.toFinset_card_of_nodup hnodup, hnumbers]

end Counting

/-! ## Calls in a row -/

namespace Machine

variable {σ τ : Type} {x : Executable}

/-- The runs of calls in a row. Each goes on with the machine and the sink that the one before it
has left. -/
def calls (sink : Sink σ) (x : Executable) : Nat → Machine → σ → List (Run σ)
  | 0, _, _ => []
  | n + 1, m, out =>
    let run := m.execute sink x out
    run :: calls sink x n run.machine run.out

/-- Calls end with these refusals, one after the other, and the call after them with the run. -/
inductive Resumed (sink : Sink σ) (x : Executable) : Machine → σ → List String → Run σ → Prop where
  | done {m : Machine} {out : σ} {run : Run σ} : m.execute sink x out = run →
      Resumed sink x m out [] run
  | again {m m' : Machine} {out out' : σ} {reason : String} {reasons : List String} {run : Run σ} :
      m.execute sink x out = ⟨some (.output reason), m', out'⟩ →
      Resumed sink x m' out' reasons run → Resumed sink x m out (reason :: reasons) run

namespace Resumed

variable {sink : Sink σ} {m m' : Machine} {out out' : σ} {reasons : List String} {run : Run σ}

theorem of_running (hstep : m.step sink x out = .running m' out')
    (h : Resumed sink x m' out' reasons run) : Resumed sink x m out reasons run := by
  cases h with
  | done hrun => exact .done ((execute_of_running hstep).trans hrun)
  | again hrun hrest => exact .again ((execute_of_running hstep).trans hrun) hrest

theorem calls_eq (h : Resumed sink x m out reasons run) :
    (calls sink x (reasons.length + 1) m out).map Run.fault =
        reasons.map (fun reason => some (.output reason)) ++ [run.fault] ∧
      (calls sink x (reasons.length + 1) m out).getLast? = some run := by
  induction h with
  | done hrun => simp [calls, hrun]
  | again hrun _ ih =>
    rw [List.length_cons, calls, hrun]
    refine ⟨by simp [ih.1], ?_⟩
    rw [List.getLast?_cons, ih.2]
    rfl

end Resumed

/-- A call that ends without a fault leaves a machine that has finished. -/
theorem finished_of_execute {sink : Sink σ} {m : Machine} {out : σ}
    (h : (m.execute sink x out).fault = none) :
    (m.execute sink x out).machine.finished = true := by
  fun_induction execute sink x m out with
  | case1 m out m' out' hstep ih => exact ih h
  | case2 m out run hstep =>
    cases acts x m with
    | proceeds m' hacts => cases (hacts sink out).symm.trans hstep
    | writes line m' hacts =>
      have hwrite := (hacts sink out).symm.trans hstep
      split at hwrite <;> cases hwrite
      cases h
    | returns m' hacts =>
      have hflush := (hacts sink out).symm.trans hstep
      split at hflush <;> cases hflush
      · rfl
      · cases h
    | rests hfinished hacts =>
      cases (hacts sink out).symm.trans hstep
      exact hfinished
    | faults f m' hacts =>
      cases (hacts sink out).symm.trans hstep
      cases h

/-! ## Following an undisturbed run -/

/-- Calls with the sink get from the machine to the other one, and lose of the lines those that are
refused. -/
def LosesRefused (sink : Sink τ) (tally : Tally τ) (refused : Finset Nat) (x : Executable)
    (m : Machine) (lines : List String) (m' : Machine) : Prop :=
  ∀ out, ∃ reasons out', Resumed sink x m out reasons ⟨none, m', out'⟩ ∧
    reasons.length = refusals refused (tally.offered out + 1) lines ∧
    tally.taken out' = tally.taken out ++ remaining refused (tally.offered out + 1) lines

section

variable {sink : Sink τ} {tally : Tally τ} {refused : Finset Nat} {m m₁ m' : Machine}
  {line : String} {lines : List String}

/-- A machine that stops by itself has no lines left to write. -/
theorem losesRefused_nil
    (h : ∀ out, ∃ out', m.step sink x out = .stopped ⟨none, m', out'⟩ ∧
      tally.taken out' = tally.taken out) : LosesRefused sink tally refused x m [] m' := by
  intro out
  obtain ⟨out', hstep, htaken⟩ := h out
  refine ⟨[], out', .done (execute_of_stopped hstep), rfl, ?_⟩
  rw [htaken]
  simp [remaining]

theorem LosesRefused.of_proceeds (h : LosesRefused sink tally refused x m₁ lines m')
    (hstep : ∀ out, m.step sink x out = .running m₁ out) :
    LosesRefused sink tally refused x m lines m' := by
  intro out
  obtain ⟨reasons, out', hresumed, hcount, htaken⟩ := h out
  exact ⟨reasons, out', hresumed.of_running (hstep out), hcount, htaken⟩

/-- A machine that offers a line goes on with the others, in the same call if the line is taken, and
in the next one if it is refused. -/
theorem LosesRefused.of_writes (h : LosesRefused sink tally refused x m₁ lines m')
    (hsink : sink.Refuses tally refused)
    (hstep : ∀ out, m.step sink x out =
      match sink.write line out with
      | (.ok _, out) => .running m₁ out
      | (.error reason, out) => .stopped ⟨some (.output reason), m₁, out⟩) :
    LosesRefused sink tally refused x m (line :: lines) m' := by
  intro out
  have hnext := hstep out
  by_cases hmem : tally.offered out + 1 ∈ refused
  · obtain ⟨reason, out₁, hwrite, hoffered, htaken₁⟩ := hsink.refuse line out hmem
    rw [hwrite] at hnext
    obtain ⟨reasons, out', hresumed, hcount, htaken⟩ := h out₁
    rw [hoffered] at hcount htaken
    refine ⟨reason :: reasons, out', .again (execute_of_stopped hnext) hresumed, ?_, ?_⟩
    · rw [List.length_cons, hcount, refusals_of_mem hmem]
    · rw [htaken, htaken₁, remaining_of_mem hmem]
  · obtain ⟨out₁, hwrite, hoffered, htaken₁⟩ := hsink.take line out hmem
    rw [hwrite] at hnext
    obtain ⟨reasons, out', hresumed, hcount, htaken⟩ := h out₁
    rw [hoffered] at hcount htaken
    refine ⟨reasons, out', hresumed.of_running hnext, ?_, ?_⟩
    · rw [hcount, refusals_of_not_mem hmem]
    · rw [htaken, htaken₁, remaining_of_not_mem hmem, List.append_assoc, List.singleton_append]

end

/-- Whatever an undisturbed run writes from here on, a run with refusals writes but for them, and
ends with the same machine. -/
theorem losesRefused_of_execute {works : Sink σ} {record : Tally σ}
    (hworks : works.Refuses record ∅) {sink : Sink τ} {tally : Tally τ} {refused : Finset Nat}
    (hsink : sink.Refuses tally refused) {m : Machine} {out : σ}
    (h : (m.execute works x out).fault = none) :
    ∃ lines, record.taken (m.execute works x out).out = record.taken out ++ lines ∧
      LosesRefused sink tally refused x m lines (m.execute works x out).machine := by
  have hmem : ∀ k : Nat, k ∉ (∅ : Finset Nat) := fun k => Finset.notMem_empty k
  fun_induction execute works x m out with
  | case1 m out m₁ out₁ hstep ih =>
    obtain ⟨lines, htaken, hloses⟩ := ih h
    cases acts x m with
    | proceeds m₂ hacts =>
      cases (hacts works out).symm.trans hstep
      exact ⟨lines, htaken, hloses.of_proceeds (hacts sink)⟩
    | writes line m₂ hacts =>
      obtain ⟨out₂, hwrite, -, htaken₂⟩ := hworks.take line out (hmem _)
      have hrunning := (hacts works out).symm.trans hstep
      rw [hwrite] at hrunning
      cases hrunning
      refine ⟨line :: lines, ?_, hloses.of_writes hsink (hacts sink)⟩
      rw [htaken, htaken₂, List.append_assoc, List.singleton_append]
    | returns m₂ hacts =>
      have hstopped := (hacts works out).symm.trans hstep
      split at hstopped <;> cases hstopped
    | rests hfinished hacts => cases (hacts works out).symm.trans hstep
    | faults f m₂ hacts => cases (hacts works out).symm.trans hstep
  | case2 m out run hstep =>
    cases acts x m with
    | proceeds m₂ hacts => cases (hacts works out).symm.trans hstep
    | writes line m₂ hacts =>
      obtain ⟨out₂, hwrite, -, -⟩ := hworks.take line out (hmem _)
      have hrunning := (hacts works out).symm.trans hstep
      rw [hwrite] at hrunning
      cases hrunning
    | returns m₂ hacts =>
      obtain ⟨out₂, hflush, -, htaken⟩ := hworks.flush out
      have hstopped := (hacts works out).symm.trans hstep
      rw [hflush] at hstopped
      cases hstopped
      refine ⟨[], by simp [htaken], losesRefused_nil fun out' => ?_⟩
      obtain ⟨out₃, hflush', -, htaken'⟩ := hsink.flush out'
      exact ⟨out₃, by rw [hacts, hflush'], htaken'⟩
    | rests hfinished hacts =>
      cases (hacts works out).symm.trans hstep
      exact ⟨[], by simp, losesRefused_nil fun out' => ⟨out', hacts sink out', rfl⟩⟩
    | faults f m₂ hacts =>
      cases (hacts works out).symm.trans hstep
      cases h

/-- An executable is run twice. With a sink that takes everything the run ends without a fault. With
a sink that refuses some of the lines, each as a whole, as many calls as there are refusals end with
one of them each, and the next one ends without a fault. By then the machine has finished and is the
same as after the undisturbed run, its fields included, and the lines that were taken are those that
were not refused, each once and in order. -/
theorem resumed_loses_refused {x : Executable} {works : Sink σ} {record : Tally σ}
    (hworks : works.Refuses record ∅) {out : σ} (hout : record.taken out = [])
    (hrun : ((start x).execute works x out).fault = none) {refused : Finset Nat}
    (hrefused : refused ⊆
      Finset.Icc 1 (record.taken ((start x).execute works x out).out).length)
    {sink : Sink τ} {tally : Tally τ} (hsink : sink.Refuses tally refused) {fresh : τ}
    (hfresh : tally.offered fresh = 0 ∧ tally.taken fresh = []) :
    let undisturbed := (start x).execute works x out
    let runs := calls sink x (refused.card + 1) (start x) fresh
    ∃ (reasons : List String) (last : Run τ), reasons.length = refused.card ∧
      runs.map Run.fault = reasons.map (fun reason => some (.output reason)) ++ [none] ∧
      runs.getLast? = some last ∧ last.machine.finished = true ∧
      last.machine = undisturbed.machine ∧
      tally.taken last.out =
        (((record.taken undisturbed.out).zipIdx 1).filter (·.2 ∉ refused)).map Prod.fst := by
  intro undisturbed runs
  obtain ⟨lines, htaken, hloses⟩ := losesRefused_of_execute hworks hsink hrun
  rw [hout, List.nil_append] at htaken
  obtain ⟨reasons, out', hresumed, hcount, hkept⟩ := hloses fresh
  rw [hfresh.1, refusals_eq_card (htaken ▸ hrefused)] at hcount
  rw [hfresh.1, hfresh.2, List.nil_append] at hkept
  obtain ⟨hfaults, hlast⟩ := hresumed.calls_eq
  rw [hcount] at hfaults hlast
  refine ⟨reasons, _, hcount, hfaults, hlast, finished_of_execute hrun, rfl, ?_⟩
  rw [hkept, ← htaken]
  rfl

end Machine

/-- What a sink has seen that counts the lines offered to it. -/
structure Offered where
  count : Nat
  taken : List String
  deriving DecidableEq

/-- The tally of such a sink. -/
def Offered.tally : Tally Offered := ⟨Offered.count, Offered.taken⟩

/-- A sink that refuses the lines with the given numbers. -/
def Sink.refusing (refused : Finset Nat) : Sink Offered where
  write line seen :=
    if seen.count + 1 ∈ refused then (.error "refused", ⟨seen.count + 1, seen.taken⟩)
    else (.ok (), ⟨seen.count + 1, seen.taken ++ [line]⟩)
  flush seen := (.ok (), seen)

theorem Sink.refuses_refusing (refused : Finset Nat) :
    (Sink.refusing refused).Refuses Offered.tally refused where
  refuse _ _ h := ⟨_, _, if_pos h, rfl, rfl⟩
  take _ _ h := ⟨_, if_neg h, rfl, rfl⟩
  flush out := ⟨out, rfl, rfl, rfl⟩

/-- Three lines of output, with a change of the variable between the second and the third. -/
def climbingSource : String := "The sky is 5\nSay it\nShout true\nBuild it up\nWhisper it"

/-- The first and the last line are refused. -/
theorem resumed_loses_refused_climbing :
    ∃ x, compileSource {} climbingSource = .ok x ∧
      ((Machine.start x).execute (.refusing ∅) x ⟨0, []⟩).fault = none ∧
      ((Machine.start x).execute (.refusing ∅) x ⟨0, []⟩).out.taken = ["5\n", "true\n", "6\n"] ∧
      ∃ (reasons : List String) (last : Run Offered), reasons.length = 2 ∧
        (Machine.calls (.refusing {1, 3}) x 3 (Machine.start x) ⟨0, []⟩).map Run.fault =
          reasons.map (fun reason => some (.output reason)) ++ [none] ∧
        last.machine.finished = true ∧ last.out.taken = ["true\n"] := by
  have hends : ((compileSource {} climbingSource).toOption.map fun x =>
      (((Machine.start x).execute (.refusing ∅) x ⟨0, []⟩).fault,
        ((Machine.start x).execute (.refusing ∅) x ⟨0, []⟩).out.taken)) =
      some (none, ["5\n", "true\n", "6\n"]) := by
    decide +kernel
  obtain ⟨x, hx, hundisturbed⟩ := Option.map_eq_some_iff.mp hends
  obtain ⟨hfault, htaken⟩ := Prod.mk.inj hundisturbed
  have hnumbers : ({1, 3} : Finset Nat) ⊆ Finset.Icc 1
      (Offered.tally.taken ((Machine.start x).execute (.refusing ∅) x ⟨0, []⟩).out).length := by
    show _ ⊆ Finset.Icc 1 ((Machine.start x).execute (.refusing ∅) x ⟨0, []⟩).out.taken.length
    rw [htaken]
    decide
  have hfresh : Offered.tally.offered ⟨0, []⟩ = 0 ∧ Offered.tally.taken ⟨0, []⟩ = [] := ⟨rfl, rfl⟩
  obtain ⟨reasons, last, hlength, hfaults, -, hfinished, -, hkept⟩ :=
    Machine.resumed_loses_refused (Sink.refuses_refusing ∅) rfl hfault hnumbers
      (Sink.refuses_refusing {1, 3}) hfresh
  refine ⟨x, eq_ok_of_toOption hx, hfault, htaken, reasons, last, hlength, hfaults, hfinished, ?_⟩
  refine hkept.trans ?_
  show ((((Machine.start x).execute (.refusing ∅) x ⟨0, []⟩).out.taken.zipIdx 1).filter _).map _ = _
  rw [htaken]
  decide

end Rockstar
