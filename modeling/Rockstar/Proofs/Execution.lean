import Rockstar.Proofs.Simulation

/-!
# Statements and programs on the machine

A statement takes the machine from the place where its code begins, with an empty stack, to the
place where it ends, with an empty stack again; the fields follow the variables (`Tracks`). So a
program is run statement by statement, and the machine goes on or stops as the evaluation does
(`CompileM.advances_statements`).
-/

namespace Rockstar

/-- The fields hold the variables of the evaluation, and nothing but mysterious values where no
variable has its slot yet. -/
structure Tracks (env : Env) (s : Session) (x : Executable) (fields : Array Value) : Prop
    extends Agrees env s fields where
  size : fields.size = x.fields.size
  fresh : ∀ i, s.slots.size ≤ i → i < fields.size → fields[i]? = some .mysterious

theorem Tracks.of_agrees {env env' : Env} {s s' : Session} {x : Executable}
    {fields : Array Value} (h : Tracks env s x fields) (hagrees : Agrees env' s' fields)
    (hslots : s'.slots = s.slots) : Tracks env' s' x fields :=
  ⟨hagrees, h.size, by rw [hslots]; exact h.fresh⟩

/-- The field of a variable takes the value that is assigned to it; no other variable has that
field. -/
theorem Tracks.assign {env : Env} {s s' : Session} {x : Executable} {fields : Array Value}
    (h : Tracks env s x fields) (hwf : s.Wf) {name : String} {span : Span} {slot : Nat}
    (henter : s.slots.enter name .any span = (.ok slot, s'.slots)) (hlast : s'.last = s.last)
    (hroom : s'.slots.size ≤ x.fields.size) (v : Value) :
    Tracks (env.assign name v) s' x (fields.setIfInBounds slot v) := by
  obtain ⟨hwf', -, hfind⟩ := hwf.slots.enter henter
  have hname : s'.slots.find? name = some slot := by rw [hfind, if_pos rfl]
  have hlt : slot < s'.slots.size := hwf'.lt_size hname
  have hgrows := SlotTable.grows_enter s.slots name .any span
  rw [henter] at hgrows
  have hsize : s.slots.size ≤ s'.slots.size := hgrows.size_le
  refine ⟨⟨by rw [hlast]; exact h.last, fun other => ?_⟩, ?_, fun i hi hbound => ?_⟩
  · show (if other = name then some v else env.values other) = _
    by_cases hother : other = name
    · subst hother
      rw [if_pos rfl, hname, Option.bind_some, Array.getElem?_setIfInBounds, if_pos rfl,
        if_pos (by rw [h.size]; omega)]
    · have hold : s'.slots.find? other = s.slots.find? other := by rw [hfind, if_neg hother]
      rw [if_neg hother, h.values, ← hold]
      cases hslot : s'.slots.find? other with
      | none => rfl
      | some j =>
        -- two names never share a slot, so the store misses the other one
        have hne : slot ≠ j := by
          rintro rfl
          exact hother (hwf'.name_eq hslot hname)
        rw [Option.bind_some, Option.bind_some, Array.getElem?_setIfInBounds, if_neg hne]
  · rw [Array.size_setIfInBounds]
    exact h.size
  · rw [Array.size_setIfInBounds] at hbound
    rw [Array.getElem?_setIfInBounds, if_neg (by omega)]
    exact h.fresh i (by omega) hbound

/-- What the code of a statement does from an empty stack on. -/
inductive Performs (o : Options) (x : Executable) (stmt : Statement) (env : Env) (s s' : Session)
    (fields : Array Value) : Prop where
  | silent {env' : Env} {fields' : Array Value} (heval : stmt.eval o env = .ok (env', none))
      (htracks : Tracks env' s' x fields')
      (hreach : ∀ (σ : Type) (sink : Sink σ) (line : Nat) (out : σ), ∃ line',
        Machine.Reaches sink x (s.machine fields [] line) out (s'.machine fields' [] line') out)
  | spoken {env' : Env} {text : String} {s₁ : Session}
      (heval : stmt.eval o env = .ok (env', some (text ++ "\n")))
      (htracks : Tracks env' s' x fields)
      (hruns : s.Runs x s₁ fields [] (.ok [.text text])) (hemits : s₁.Emits .writeLine s')
  | fault {f : Fault} (heval : stmt.eval o env = .error (.fault f))
      (hruns : s.Runs x s' fields [] (.error f))

theorem Performs.congr {o : Options} {x : Executable} {stmt : Statement} {env : Env}
    {r s s' : Session} {fields : Array Value} (h : Performs o x stmt env s s' fields)
    (hcode : r.asm.code = s.asm.code) : Performs o x stmt env r s' fields := by
  cases h with
  | silent heval htracks hreach =>
    refine .silent heval htracks ?_
    simp only [Session.machine, hcode]
    exact hreach
  | spoken heval htracks hruns hemits =>
    exact .spoken heval htracks (hruns.congr hcode rfl) hemits
  | fault heval hruns => exact .fault heval (hruns.congr hcode rfl)

namespace CompileM

variable {o : Options} {x : Executable} {s s' : Session} {env : Env} {fields : Array Value}

/-- A store puts the top value into the field of the variable. -/
theorem reaches_store {i : Identity} {span : Span} (h : store i span s = (.ok (), s'))
    (hwf : s.Wf) (hin : s'.Within x) (htracks : Tracks env s x fields) (v : Value) :
    ∃ fields', Tracks (env.assign i.name v) s' x fields' ∧
      ∀ (σ : Type) (sink : Sink σ) (stack : List Value) (line : Nat) (out : σ),
        Machine.Reaches sink x (s.machine fields (v :: stack) line) out
          (s'.machine fields' stack s.asm.line) out := by
  obtain ⟨slot, s₁, hslot, hemit⟩ := bind_eq_ok h
  rw [slotToWrite_apply] at hslot
  rcases henter : s.slots.enter i.name .any span with ⟨result, t⟩
  rw [henter] at hslot
  cases hslot
  have hsame := (sameVars_assemble _).of_ok hemit
  have hslots : s'.slots = t := hsame.slots
  obtain ⟨hwf', hlimit, hfind⟩ := hwf.slots.enter henter
  have hlt : slot < t.size := hwf'.lt_size (by rw [hfind, if_pos rfl])
  have hroom : s'.slots.size ≤ x.fields.size := hin.size_le
  refine ⟨fields.setIfInBounds slot v,
    htracks.assign hwf (by rw [hslots]; exact henter) hsame.last hroom v, ?_⟩
  intro σ sink stack line out
  have hemits : s.Emits (.setField (UInt16.ofNat slot)) s' := by
    have hcode := emits_of_emit hemit
    exact hcode
  refine Machine.reaches_of_emits hemits hin line out ?_
  have hnat : (UInt16.ofNat slot).toNat = slot := UInt16.toNat_ofNat_of_lt' hlimit
  show (if (UInt16.ofNat slot).toNat < fields.size then _ else _) = _
  rw [hnat, if_pos (by rw [htracks.size]; rw [hslots] at hroom; omega)]

/-- Target and value of an assignment are compiled as they are evaluated. -/
theorem simulate_assignParts {target : Variable} {value : Expr} {i : Identity}
    (h : assignParts o target value s = (.ok i, s'))
    (hplain : ∀ v ∈ value.literals, v.IsPlain) (hwf : s.Wf) (hin : s'.Within x)
    (hagrees : Agrees env s fields) (hroom : s.slots.size ≤ fields.size) :
    (∃ v env', env.assignParts o s.asm.line target value = .ok (i.name, v, env') ∧
      Agrees env' s' fields ∧ s.Runs x s' fields [] (.ok [v])) ∨
    (∃ f, env.assignParts o s.asm.line target value = .error (.fault f) ∧
      s.Runs x s' fields [] (.error f)) := by
  unfold assignParts at h
  unfold Env.assignParts
  by_cases hbefore : target.isBefore value = true
  · rw [if_pos hbefore] at h ⊢
    -- the target is named first, and the value may refer back to it
    obtain ⟨j, s₁, hidentify, h⟩ := bind_eq_ok h
    obtain ⟨kinds, s₂, hexpr, hpure⟩ := bind_eq_ok h
    cases hpure
    obtain ⟨hslots, hasm⟩ := keeps_of_identify hidentify
    obtain ⟨env₁, hrefer, hagrees₁⟩ := hagrees.identify hidentify
    have hwf₁ : s₁.Wf := ((wf_passesAll o).identify target).of_ok hidentify hwf
    have hsim := simulate_expr hexpr hplain hwf₁ hin hagrees₁ (by rw [hslots]; exact hroom)
    rw [hrefer]
    cases hsim with
    | value heval hagrees' _ hruns =>
      rw [hasm] at heval
      refine .inl ⟨_, _, ?_, hagrees', (hruns []).congr (by rw [hasm]) rfl⟩
      simp only [bind, Except.bind]
      rw [heval]
      rfl
    | fault heval hruns =>
      rw [hasm] at heval
      refine .inr ⟨_, ?_, (hruns []).congr (by rw [hasm]) rfl⟩
      simp only [bind, Except.bind]
      rw [heval]
  · rw [if_neg hbefore] at h ⊢
    -- the value comes first; naming the target writes no code
    obtain ⟨kinds, s₁, hexpr, hidentify⟩ := bind_eq_ok h
    obtain ⟨hslots, hasm⟩ := keeps_of_identify hidentify
    have hin₁ := hin.of_grows (((grows_passesAll o).identify target).of_ok hidentify)
    cases simulate_expr hexpr hplain hwf hin₁ hagrees hroom with
    | value heval hagrees₁ _ hruns =>
      obtain ⟨env', hrefer, hagrees'⟩ := hagrees₁.identify hidentify
      refine .inl ⟨_, _, ?_, hagrees', (hruns []).congr rfl (by rw [hasm])⟩
      rw [heval]
      simp only [bind, Except.bind]
      rw [hrefer]
      rfl
    | fault heval hruns =>
      refine .inr ⟨_, ?_, (hruns []).congr rfl (by rw [hasm])⟩
      rw [heval]
      rfl

theorem simulate_assign {target : Variable} {value : Expr} {span : Span}
    (hline : s.asm.line = span.line)
    (h : (assignParts o target value >>= fun i => store i target.span) s = (.ok (), s'))
    (hplain : ∀ v ∈ value.literals, v.IsPlain) (hwf : s.Wf) (hin : s'.Within x)
    (htracks : Tracks env s x fields) (hroom : s.slots.size ≤ fields.size) :
    Performs o x (.assign target value span) env s s' fields := by
  obtain ⟨i, s₁, hparts, hstore⟩ := bind_eq_ok h
  have hgrows : s₁.Grows s' := (respects_store (grows_passesAll o) i target.span).of_ok hstore
  have hslots : s₁.slots = s.slots :=
    ((respects_assignParts (keeps_passes o) target value fun v _ => keeps_emitValue v).of_ok
      hparts).slots
  have hwf₁ : s₁.Wf :=
    (respects_assignParts (wf_passesAll o).toPasses target value fun v hv =>
      wf_emitValue (hplain v hv)).of_ok hparts hwf
  rcases simulate_assignParts hparts hplain hwf (hin.of_grows hgrows) htracks.toAgrees hroom with
    ⟨v, env', hassign, hagrees, hruns⟩ | ⟨f, hassign, hruns⟩
  · obtain ⟨fields', htracks', hreach⟩ :=
      reaches_store hstore hwf₁ hin (htracks.of_agrees hagrees hslots) v
    refine .silent ?_ htracks' fun σ sink line out => ?_
    · simp only [Statement.eval, ← hline, hassign]
      rfl
    · obtain ⟨line₁, hreach₁⟩ := hruns σ sink line out
      exact ⟨_, hreach₁.trans (hreach σ sink [] line₁ out)⟩
  · refine .fault ?_ (hruns.error hgrows)
    simp only [Statement.eval, ← hline, hassign]
    rfl

theorem simulate_output {verb : Verb} {value : Expr} {span : Span}
    (hline : s.asm.line = span.line)
    (h : (do let _ ← expr o value; emitCall .toText; emit .writeLine) s = (.ok (), s'))
    (hplain : ∀ v ∈ value.literals, v.IsPlain) (hwf : s.Wf) (hin : s'.Within x)
    (htracks : Tracks env s x fields) (hroom : s.slots.size ≤ fields.size) :
    Performs o x (.output verb value span) env s s' fields := by
  obtain ⟨kinds, s₁, hexpr, h⟩ := bind_eq_ok h
  obtain ⟨_, s₂, hcall, hwrite⟩ := bind_eq_ok h
  have hgrows₁ : s₁.Grows s₂ := ((grows_passesAll o).emitCall _).of_ok hcall
  have hgrows₂ : s₂.Grows s' := ((grows_passesAll o).emit _).of_ok hwrite
  have hin₂ := hin.of_grows hgrows₂
  have hwf₁ : s₁.Wf := (wf_expr o hplain).of_ok hexpr hwf
  have hslots : s₁.slots = s.slots := ((keeps_expr o value).of_ok hexpr).slots
  have hsame : SameVars s₁ s' :=
    sameVars_passesCode.trans ((sameVars_assemble _).of_ok hcall)
      ((sameVars_assemble _).of_ok hwrite)
  cases simulate_expr hexpr hplain hwf (hin₂.of_grows hgrows₁) htracks.toAgrees hroom with
  | @value v env' heval hagrees hkind hruns =>
    obtain ⟨i, hemits, hperform⟩ := emitCall_ok hcall hwf₁
    have htext : s₁.Runs x s₂ fields [v] (.ok [.text v.toText]) := by
      refine Session.runs_of_emits hemits hin₂ ?_
      rw [hperform x hin₂]
      rfl
    refine .spoken ?_ (htracks.of_agrees (hagrees.of_sameVars hsame) (hsame.slots.trans hslots))
      ((hruns []).trans htext) (emits_of_emit hwrite)
    simp only [Statement.eval, ← hline, heval]
    rfl
  | fault heval hruns =>
    -- the machine stops before the code that would write
    refine .fault ?_ ((hruns []).error (Session.grows_isPreorder.trans hgrows₁ hgrows₂))
    simp only [Statement.eval, ← hline, heval]
    rfl

/-- The code of a step between the load of the variable and the store of the new value. -/
def count (op : Arithmetic) (n : Nat) : CompileM Unit := do
  emit (.expectNumber 0)
  emitValue (.number (Float.ofNat n))
  emit (.arith op)

theorem respects_count {R : Session → Session → Prop} (hR : PassesCode R) {op : Arithmetic}
    {n : Nat} (hvalue : Respects R (emitValue (.number (Float.ofNat n)))) :
    Respects R (count op n) :=
  (hR.emit _).bind hR.toIsPreorder fun _ => hvalue.bind hR.toIsPreorder fun _ => hR.emit _

theorem runs_count {op : Arithmetic} {n : Nat} (h : count op n s = (.ok (), s')) (hwf : s.Wf)
    (hin : s'.Within x) (v : Value) :
    s.Runs x s' fields [v]
      (match v.number? with
        | some y => .ok [.number (op.apply y (Float.ofNat n))]
        | none => .error (.expectedNumber v.kind s.asm.line)) := by
  obtain ⟨_, s₁, hcheck, h⟩ := bind_eq_ok h
  obtain ⟨_, s₂, hcount, harith⟩ := bind_eq_ok h
  have hgrows₂ : s₂.Grows s' := ((grows_passesAll {}).emit _).of_ok harith
  have hgrows₁ : s₁.Grows s₂ := (grows_emitValue _).of_ok hcount
  have hin₂ := hin.of_grows hgrows₂
  have hwf₁ : s₁.Wf := ((wf_passesAll {}).emit _).of_ok hcheck hwf
  replace hcheck : check true 0 s = (.ok (), s₁) := hcheck
  have hruncheck : s.Runs x s₁ fields [v] _ :=
    runs_check hcheck (hin₂.of_grows hgrows₁) rfl (by intro hfalse; cases hfalse)
  by_cases hnumber : v.kind = .number
  · rw [if_pos hnumber] at hruncheck
    obtain ⟨y, rfl⟩ := Value.eq_number_of_kind hnumber
    obtain ⟨i, hemits, hperform⟩ := emitValue_ok hcount hwf₁ (Decimal.isPlain_ofNat n)
    have hrunvalue : s₁.Runs x s₂ fields [.number y] (.ok [.number (Float.ofNat n), .number y]) :=
      Session.runs_of_emits hemits hin₂ (hperform x hin₂ _ _)
    refine hruncheck.trans (hrunvalue.trans ?_)
    refine Session.runs_of_emits (emits_of_emit harith) hin ?_
    rfl
  · rw [if_neg hnumber] at hruncheck
    rw [Value.number?_eq_none hnumber]
    exact hruncheck.error (Session.grows_isPreorder.trans hgrows₁ hgrows₂)

theorem simulate_step {direction : Direction} {target : Variable} {n : Nat} {span : Span}
    (hline : s.asm.line = span.line) (h : step o direction target n s = (.ok (), s'))
    (hwf : s.Wf) (hin : s'.Within x) (htracks : Tracks env s x fields)
    (hroom : s.slots.size ≤ fields.size) :
    Performs o x (.step direction target n span) env s s' fields := by
  obtain ⟨i, s₁, hidentify, h⟩ := bind_eq_ok h
  obtain ⟨slot?, s₂, hslot, h⟩ := bind_eq_ok h
  obtain ⟨hslots, hasm⟩ := keeps_of_identify hidentify
  obtain ⟨env₁, hrefer, hagrees₁⟩ := htracks.toAgrees.identify hidentify
  obtain ⟨v, hread, hperform, -⟩ :=
    hagrees₁.read hslot (hslots ▸ hwf.slots) (by rw [hslots]; exact hroom)
  obtain ⟨rfl, -, -⟩ := slotToRead_ok hslot
  -- both ways to load the variable are one instruction, followed by the same code
  replace h : (do
      emit (readInstr slot?)
      count direction.operation n
      store i target.span) s₂ = (.ok (), s') := by
    unfold count
    simp only [bind_assoc]
    cases slot? <;> exact h
  obtain ⟨_, s₃, hload, h⟩ := bind_eq_ok h
  obtain ⟨_, s₄, hcount, hstore⟩ := bind_eq_ok h
  have hplain := Decimal.isPlain_ofNat n
  have hwf₃ : s₃.Wf :=
    ((wf_passesAll o).emit _).of_ok hload ⟨hslots ▸ hwf.slots, hasm ▸ hwf.pool⟩
  have hwf₄ : s₄.Wf :=
    (respects_count (wf_passesAll o).toPassesCode (wf_emitValue hplain)).of_ok hcount hwf₃
  have hgrows₃ : s₃.Grows s₄ :=
    (respects_count (grows_passesAll o).toPassesCode (grows_emitValue _)).of_ok hcount
  have hgrows₄ : s₄.Grows s' := (respects_store (grows_passesAll o) i target.span).of_ok hstore
  have hin₄ := hin.of_grows hgrows₄
  have hsame₃ : SameVars s₂ s₃ := (sameVars_assemble _).of_ok hload
  have hsame₄ : SameVars s₃ s₄ :=
    (respects_count sameVars_passesCode (sameVars_assemble _)).of_ok hcount
  have hline₃ : s₃.asm.line = span.line := by
    rw [((keeps_passes o).emit _).of_ok hload |>.line, hasm, hline]
  -- load, count and store run one after the other, and only the count can fault
  have hrunload : s₂.Runs x s₃ fields [] (.ok [v]) :=
    Session.runs_of_emits (emits_of_emit hload) (hin₄.of_grows hgrows₃) (hperform _ _ _)
  replace hrunload : s.Runs x s₃ fields [] (.ok [v]) := hrunload.congr (by rw [hasm]) rfl
  have hruncount : s₃.Runs x s₄ fields [v] _ := runs_count hcount hwf₃ hin₄ v
  rw [hline₃] at hruncount
  cases hnumber : v.number? with
  | none =>
    rw [hnumber] at hruncount
    refine .fault ?_ ((hrunload.trans hruncount).error hgrows₄)
    simp only [Statement.eval, hrefer, hread, bind, Except.bind, hnumber]
    rfl
  | some y =>
    rw [hnumber] at hruncount
    have htracks₄ : Tracks env₁ s₄ x fields :=
      htracks.of_agrees ((hagrees₁.of_sameVars hsame₃).of_sameVars hsame₄)
        (hsame₄.slots.trans (hsame₃.slots.trans hslots))
    obtain ⟨fields', htracks', hreach⟩ := reaches_store hstore hwf₄ hin htracks₄ _
    refine .silent ?_ htracks' fun σ sink line out => ?_
    · simp only [Statement.eval, hrefer, hread, bind, Except.bind, hnumber]
      rfl
    · obtain ⟨line₁, hreach₁⟩ := hrunload.trans hruncount σ sink line out
      exact ⟨_, hreach₁.trans (hreach σ sink [] line₁ out)⟩

/-- The code of a statement does what its evaluation does. -/
theorem simulate_statement {stmt : Statement} (h : statement o stmt s = (.ok (), s'))
    (hplain : ∀ v ∈ stmt.literals, v.IsPlain) (hwf : s.Wf) (hin : s'.Within x)
    (htracks : Tracks env s x fields) : Performs o x stmt env s s' fields := by
  have hroom : s.slots.size ≤ fields.size := by
    rw [htracks.size]
    exact (hin.of_grows ((grows_statement o stmt).of_ok h)).size_le
  obtain ⟨_, s₁, hset, h⟩ := bind_eq_ok h
  cases hset
  have hwf₁ : Session.Wf { s with asm := s.asm.setLine stmt.span.line } := ⟨hwf.slots, hwf.pool⟩
  have htracks₁ : Tracks env { s with asm := s.asm.setLine stmt.span.line } x fields :=
    htracks.of_agrees ⟨htracks.last, htracks.values⟩ rfl
  cases stmt with
  | assign target value span =>
    exact (simulate_assign rfl h hplain hwf₁ hin htracks₁ hroom).congr rfl
  | output verb value span =>
    exact (simulate_output rfl h hplain hwf₁ hin htracks₁ hroom).congr rfl
  | step direction target n span =>
    exact (simulate_step rfl h hwf₁ hin htracks₁ hroom).congr rfl

end CompileM

/-! ## Programs -/

/-- The faults that a compiled program can meet: values of the wrong kind and a sink that fails. -/
def Fault.isOrdinary : Fault → Bool
  | .output _ => true
  | f => f.isOfKinds

theorem Fault.isOrdinary_of_isOfKinds {f : Fault} (h : f.isOfKinds = true) :
    f.isOrdinary = true := by
  cases f <;> first | rfl | exact h

/-- How far the machine gets with statements: through all of their code, or up to a fault on the
way. Evaluation gets equally far, whatever statements follow. -/
inductive Advances {σ : Type} (sink : Sink σ) (o : Options) (x : Executable)
    (program : List Statement) (env : Env) (s s' : Session) (fields : Array Value) (line : Nat)
    (out : σ) : Prop where
  | through {env' : Env} {fields' : Array Value} {line' : Nat} {out' : σ}
      (heval : ∀ rest, evaluate sink o (program ++ rest) env out = evaluate sink o rest env' out')
      (htracks : Tracks env' s' x fields')
      (hreach : Machine.Reaches sink x (s.machine fields [] line) out
        (s'.machine fields' [] line') out')
  | stopped {f : Fault} {env' : Env} {s₁ : Session} {m : Machine} {out' : σ}
      (heval : ∀ rest, evaluate sink o (program ++ rest) env out = ⟨some (.fault f), env', out'⟩)
      (hfault : f.isOrdinary = true) (hwf : s₁.Wf) (hgrows : s₁.Grows s')
      (htracks : Tracks env' s₁ x m.memory.fields)
      (hhalts : Machine.Halts sink x s'.asm.code.size (s.machine fields [] line) out
        ⟨some f, m, out'⟩)

variable {σ : Type} {sink : Sink σ} {o : Options} {x : Executable} {s s₁ s' : Session}
  {env : Env} {fields : Array Value}

/-- A statement advances the machine, unless a fault stops it or the sink refuses its line. -/
theorem Performs.advances {stmt : Statement} (h : Performs o x stmt env s s' fields)
    (hin : s'.Within x) (hgrows : s.Grows s') (hwf : s.Wf) (hwf' : s'.Wf)
    (htracks : Tracks env s x fields) (line : Nat) (out : σ) :
    Advances sink o x [stmt] env s s' fields line out := by
  cases h with
  | silent heval htracks' hreach =>
    obtain ⟨line', hreach⟩ := hreach σ sink line out
    refine .through (fun rest => ?_) htracks' hreach
    simp only [List.singleton_append, evaluate, heval]
  | fault heval hruns =>
    obtain ⟨m, hfields, hhalts⟩ := hruns.2 σ sink line out
    refine .stopped (fun rest => ?_) (Fault.isOrdinary_of_isOfKinds hruns.1) hwf hgrows
      (hfields ▸ htracks) hhalts
    simp only [List.singleton_append, evaluate, heval]
  | @spoken env' text s₁ heval htracks' hruns hemits =>
    obtain ⟨line₁, hreach⟩ := hruns σ sink line out
    have hstep := Machine.step_of_emits sink hemits hin fields [.text text] line₁ out
    -- the last instruction hands the line to the sink, whose answer decides
    have hperform : (Memory.mk fields [.text text]).perform (s₁.site s') x.pool .writeLine =
        .write (text ++ "\n") ⟨fields, []⟩ := rfl
    rw [hperform, Machine.apply] at hstep
    rcases hwrite : sink.write (text ++ "\n") out with ⟨result, out'⟩
    rw [hwrite] at hstep
    cases result with
    | ok =>
      refine .through (fun rest => ?_) htracks' (hreach.trans (.step hstep (.refl _ _)))
      simp only [List.singleton_append, evaluate, heval, hwrite]
    | error reason =>
      refine .stopped (m := s'.machine fields [] s₁.asm.line) (fun rest => ?_) rfl hwf'
        (Session.grows_isPreorder.refl s') htracks'
        (hreach.halts ⟨_, _, .refl _ _, Machine.lt_of_emits hemits, hstep⟩)
      simp only [List.singleton_append, evaluate, heval, hwrite]

/-- Stretches of statements follow each other. -/
theorem Advances.append {first second : List Statement} {line : Nat} {out : σ}
    (h : Advances sink o x first env s s₁ fields line out) (hgrows : s₁.Grows s')
    (h' : ∀ env' fields' line' out', Tracks env' s₁ x fields' →
      Advances sink o x second env' s₁ s' fields' line' out') :
    Advances sink o x (first ++ second) env s s' fields line out := by
  cases h with
  | stopped heval hfault hwf hgrows₁ htracks hhalts =>
    refine .stopped (fun rest => ?_) hfault hwf (Session.grows_isPreorder.trans hgrows₁ hgrows)
      htracks (hhalts.mono hgrows.code.size_le)
    rw [List.append_assoc]
    exact heval _
  | @through env' fields' line' out' heval htracks hreach =>
    cases h' env' fields' line' out' htracks with
    | stopped heval' hfault hwf hgrows₁ htracks' hhalts =>
      refine .stopped (fun rest => ?_) hfault hwf hgrows₁ htracks' (hreach.halts hhalts)
      rw [List.append_assoc, heval, heval']
    | through heval' htracks' hreach' =>
      refine .through (fun rest => ?_) htracks' (hreach.trans hreach')
      rw [List.append_assoc, heval, heval']

/-- A program advances the machine statement by statement. -/
theorem CompileM.advances_statements {program : List Statement}
    (h : statements o program s = (.ok (), s'))
    (hplain : ∀ stmt ∈ program, ∀ v ∈ stmt.literals, v.IsPlain) (hwf : s.Wf) (hin : s'.Within x)
    (htracks : Tracks env s x fields) (line : Nat) (out : σ) :
    Advances sink o x program env s s' fields line out := by
  induction program generalizing s env fields line out with
  | nil =>
    cases h
    exact .through (fun rest => rfl) htracks (.refl _ _)
  | cons stmt rest ih =>
    obtain ⟨_, s₁, hstmt, hrest⟩ := bind_eq_ok h
    have hgrows : s₁.Grows s' := (grows_statements o rest).of_ok hrest
    have hin₁ := hin.of_grows hgrows
    have hplain₁ := hplain stmt (by simp)
    have hwf₁ : s₁.Wf := (wf_statement o hplain₁).of_ok hstmt hwf
    have hone : Advances sink o x [stmt] env s s₁ fields line out :=
      (simulate_statement hstmt hplain₁ hwf hin₁ htracks).advances hin₁
        ((grows_statement o stmt).of_ok hstmt) hwf hwf₁ htracks line out
    exact hone.append hgrows fun env' fields' line' out' htracks' =>
      ih hrest (fun stmt' hmem => hplain stmt' (by simp [hmem])) hwf₁ htracks' line' out'

end Rockstar
