import Rockstar.Machine
import Rockstar.Proofs.Session

/-!
# Runs of the machine

A machine goes on running until something stops it. `Machine.Reaches` follows it while it runs,
`Machine.Halts` to the step that stops it, and `execute` gives the run of the halt
(`Halts.execute_eq`). There is one run only: of two machines on it one reaches the other
(`Reaches.linear`), and offsets grow along it, so an offset is met at most once
(`Reaches.eq_of_offset_eq`).

A session that lies within an executable has its code there, so what was written last is what the
machine performs at that place (`reaches_of_emits`, `halts_of_emits`).
-/

namespace Rockstar

namespace Machine

variable {σ : Type} {sink : Sink σ} {x : Executable}

/-! ## Reaching and halting -/

/-- The first machine runs on, without being stopped, until it is the second one. -/
inductive Reaches (sink : Sink σ) (x : Executable) : Machine → σ → Machine → σ → Prop where
  | refl (m : Machine) (out : σ) : Reaches sink x m out m out
  | step {m m₁ m₂ : Machine} {out out₁ out₂ : σ} :
      m.step sink x out = .running m₁ out₁ → Reaches sink x m₁ out₁ m₂ out₂ →
      Reaches sink x m out m₂ out₂

/-- The machine runs until an instruction before the offset `bound` stops it. -/
def Halts (sink : Sink σ) (x : Executable) (bound : Nat) (m : Machine) (out : σ) (run : Run σ) :
    Prop :=
  ∃ m' out', Reaches sink x m out m' out' ∧ m'.offset < bound ∧
    m'.step sink x out' = .stopped run

theorem Reaches.trans {m m₁ m₂ : Machine} {out out₁ out₂ : σ}
    (h : Reaches sink x m out m₁ out₁) (h' : Reaches sink x m₁ out₁ m₂ out₂) :
    Reaches sink x m out m₂ out₂ := by
  induction h with
  | refl m out => exact h'
  | step hstep _ ih => exact .step hstep (ih h')

theorem Reaches.halts {bound : Nat} {m m₁ : Machine} {out out₁ : σ} {run : Run σ}
    (h : Reaches sink x m out m₁ out₁) (h' : Halts sink x bound m₁ out₁ run) :
    Halts sink x bound m out run := by
  obtain ⟨m', out', hreach, hlt, hstop⟩ := h'
  exact ⟨m', out', h.trans hreach, hlt, hstop⟩

theorem Halts.mono {bound bound' : Nat} {m : Machine} {out : σ} {run : Run σ}
    (h : Halts sink x bound m out run) (hle : bound ≤ bound') :
    Halts sink x bound' m out run := by
  obtain ⟨m', out', hreach, hlt, hstop⟩ := h
  exact ⟨m', out', hreach, Nat.lt_of_lt_of_le hlt hle, hstop⟩

theorem execute_of_running {m m' : Machine} {out out' : σ}
    (h : m.step sink x out = .running m' out') :
    m.execute sink x out = m'.execute sink x out' := by
  rw [execute]
  split
  next m₁ out₁ hrun =>
    rw [h] at hrun
    cases hrun
    rfl
  next run hstop =>
    rw [h] at hstop
    cases hstop

theorem execute_of_stopped {m : Machine} {out : σ} {run : Run σ}
    (h : m.step sink x out = .stopped run) : m.execute sink x out = run := by
  rw [execute]
  split
  next m₁ out₁ hrun =>
    rw [h] at hrun
    cases hrun
  next run' hstop =>
    rw [h] at hstop
    cases hstop
    rfl

theorem Reaches.execute_eq {m m' : Machine} {out out' : σ}
    (h : Reaches sink x m out m' out') :
    m.execute sink x out = m'.execute sink x out' := by
  induction h with
  | refl m out => rfl
  | step hstep _ ih => exact (execute_of_running hstep).trans ih

/-- A machine that halts ends with the run of the halt. -/
theorem Halts.execute_eq {bound : Nat} {m : Machine} {out : σ} {run : Run σ}
    (h : Halts sink x bound m out run) : m.execute sink x out = run := by
  obtain ⟨m', out', hreach, -, hstop⟩ := h
  exact hreach.execute_eq.trans (execute_of_stopped hstop)

/-! ## There is one run -/

theorem Reaches.offset_le {m m' : Machine} {out out' : σ}
    (h : Reaches sink x m out m' out') : m.offset ≤ m'.offset := by
  induction h with
  | refl m out => exact Nat.le_refl _
  | step hstep _ ih =>
    have hlt := (lt_of_step_running hstep).2
    omega

/-- On one run an offset is met once. -/
theorem Reaches.eq_of_offset_eq {m m' : Machine} {out out' : σ}
    (h : Reaches sink x m out m' out') (heq : m.offset = m'.offset) : m = m' ∧ out = out' := by
  cases h with
  | refl => exact ⟨rfl, rfl⟩
  | step hstep hrest =>
    have hlt := (lt_of_step_running hstep).2
    have hle := hrest.offset_le
    omega

/-- Of two machines on one run, one comes before the other. -/
theorem Reaches.linear {m m₁ m₂ : Machine} {out out₁ out₂ : σ}
    (h₁ : Reaches sink x m out m₁ out₁) (h₂ : Reaches sink x m out m₂ out₂) :
    Reaches sink x m₁ out₁ m₂ out₂ ∨ Reaches sink x m₂ out₂ m₁ out₁ := by
  induction h₁ with
  | refl m out => exact .inl h₂
  | step hstep hrest ih =>
    cases h₂ with
    | refl => exact .inr (.step hstep hrest)
    | step hstep' hrest' =>
      rw [hstep] at hstep'
      cases hstep'
      exact ih hrest'

/-- Two machines of one run at one offset are the same. -/
theorem Reaches.unique {m m₁ m₂ : Machine} {out out₁ out₂ : σ}
    (h₁ : Reaches sink x m out m₁ out₁) (h₂ : Reaches sink x m out m₂ out₂)
    (heq : m₁.offset = m₂.offset) : m₁ = m₂ := by
  rcases h₁.linear h₂ with h | h
  · exact (h.eq_of_offset_eq heq).1
  · exact (h.eq_of_offset_eq heq.symm).1.symm

/-- A run that halts before an offset never gets there. -/
theorem Halts.offset_lt {bound : Nat} {m m' : Machine} {out out' : σ} {run : Run σ}
    (h : Halts sink x bound m out run) (h' : Reaches sink x m out m' out') :
    m'.offset < bound := by
  obtain ⟨m₁, out₁, hreach, hlt, hstop⟩ := h
  rcases hreach.linear h' with h | h
  · cases h with
    | refl => exact hlt
    | step hstep _ =>
      rw [hstop] at hstep
      cases hstep
  · have hle := h.offset_le
    omega

/-! ## Single instructions -/

/-- What the machine makes of the effect of an instruction. -/
def apply (sink : Sink σ) (site : Site) (out : σ) : Effect → Progress σ
  | .proceed memory => .running (moved memory site) out
  | .write text memory =>
    match sink.write text out with
    | (.ok _, out) => .running (moved memory site) out
    | (.error reason, out) => .stopped ⟨some (.output reason), moved memory site, out⟩
  | .finish memory =>
    match sink.flush out with
    | (.ok _, out) => .stopped ⟨none, { moved memory site with finished := true }, out⟩
    | (.error reason, out) => .stopped ⟨some (.output reason), moved memory site, out⟩
  | .fault f memory => .stopped ⟨some f, moved memory site, out⟩

/-- A machine that stands before an instruction performs it. -/
theorem step_of_fetch {m : Machine} {i : Instr} {line next : Nat} (out : σ)
    (hrun : m.finished = false) (hfetch : x.code.fetch m.offset = .instr i line next) :
    m.step sink x out =
      apply sink ⟨m.offset, next, line⟩ out
        (m.memory.perform ⟨m.offset, next, line⟩ x.pool i) := by
  unfold step
  rw [hrun, hfetch]
  rfl

end Machine

/-! ## Sessions within an executable -/

/-- What the session has compiled stands in the executable. -/
structure Session.Within (s : Session) (x : Executable) : Prop where
  code : s.asm.code.Grows x.code
  pool : s.asm.pool.table.Grows x.pool.table
  slots : s.slots.slots.entries.toList <+: x.fields.toList

theorem Session.Within.of_grows {s s' : Session} {x : Executable} (h : s'.Within x)
    (hgrows : s.Grows s') : s.Within x :=
  ⟨hgrows.code.trans h.code, hgrows.pool.trans h.pool, List.IsPrefix.trans hgrows.slots h.slots⟩

theorem Session.within_finish (s : Session) : s.Within s.finish :=
  ⟨s.asm.grows_emit .ret, .refl _, List.prefix_refl _⟩

theorem Session.Within.size_le {s : Session} {x : Executable} (h : s.Within x) :
    s.slots.size ≤ x.fields.size := by
  simpa [SlotTable.size, Registry.size] using h.slots.length_le

/-- A machine that stands behind all code of the session. -/
def Session.machine (s : Session) (fields : Array Value) (stack : List Value) (line : Nat) :
    Machine :=
  ⟨⟨fields, stack⟩, s.asm.code.size, line, false⟩

/-- The second session has one instruction more than the first. -/
def Session.Emits (s : Session) (i : Instr) (s' : Session) : Prop :=
  s'.asm.code = (s.asm.emit i).code

/-- Where the instruction stands that the second session has more than the first. -/
def Session.site (s s' : Session) : Site := ⟨s.asm.code.size, s'.asm.code.size, s.asm.line⟩

namespace Machine

variable {σ : Type} {sink : Sink σ} {x : Executable} {s s' : Session} {i : Instr}

/-- The machine behind a session performs what is written there next. -/
theorem step_of_emits (sink : Sink σ) (hemits : s.Emits i s') (hin : s'.Within x)
    (fields : Array Value) (stack : List Value) (line : Nat) (out : σ) :
    (s.machine fields stack line).step sink x out =
      apply sink (s.site s') out ((Memory.mk fields stack).perform (s.site s') x.pool i) := by
  have hcode : (s.asm.emit i).code.Grows x.code := hemits ▸ hin.code
  have hfetch := Assembler.fetch_of_grows_emit hcode
  rw [← hemits] at hfetch
  exact step_of_fetch out rfl hfetch

theorem lt_of_emits (hemits : s.Emits i s') : s.asm.code.size < s'.asm.code.size := by
  rw [hemits, Assembler.size_emit]
  simp [Instr.bytes]

theorem reaches_of_emits (hemits : s.Emits i s') (hin : s'.Within x)
    {fields fields' : Array Value} {stack stack' : List Value} (line : Nat) (out : σ)
    (hperform : (Memory.mk fields stack).perform (s.site s') x.pool i =
      .proceed ⟨fields', stack'⟩) :
    Reaches sink x (s.machine fields stack line) out
      (s'.machine fields' stack' s.asm.line) out := by
  refine .step ?_ (.refl _ _)
  rw [step_of_emits sink hemits hin, hperform]
  rfl

theorem halts_of_emits (hemits : s.Emits i s') (hin : s'.Within x)
    {fields : Array Value} {stack : List Value} (line : Nat) (out : σ) {f : Fault}
    {memory : Memory}
    (hperform : (Memory.mk fields stack).perform (s.site s') x.pool i = .fault f memory) :
    Halts sink x s'.asm.code.size (s.machine fields stack line) out
      ⟨some f, moved memory (s.site s'), out⟩ := by
  refine ⟨_, _, .refl _ _, lt_of_emits hemits, ?_⟩
  rw [step_of_emits sink hemits hin, hperform]
  rfl

end Machine

end Rockstar
