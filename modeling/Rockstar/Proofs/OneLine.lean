import Rockstar.Proofs.Faults
import Rockstar.Proofs.FieldNames
import Rockstar.Proofs.Partition

/-!
# Texts on one line

No text of a program has a newline in it. Strings and spoken text do not reach over the end of a
line of the source (`oneLine_of_parse`), the pool holds the texts that stand in the program
(`oneLine_pool`), and what is computed from values on one line is on one line: an instruction keeps
fields and stack so (`Memory.oneLine_perform`), and with it every run, however often it is resumed
(`Machine.Reaches.oneLine`, `Machine.oneLine_afterCalls`).
-/

namespace Rockstar

/-! ## Values on one line -/

/-- No newline is in the value, if it is a text. -/
def Value.OneLine : Value → Prop
  | .text s => '\n' ∉ s.toList
  | _ => True

theorem Decimal.newline_notMem_digitText (n : Nat) : '\n' ∉ digitText n := by
  intro hmem
  have hdigit := Nat.isDigit_of_mem_toDigits (by decide) (by decide) hmem
  exact absurd hdigit (by decide)

theorem Decimal.newline_notMem_positional (d : Decimal) : '\n' ∉ d.positional := by
  have hdigits := newline_notMem_digitText d.digits
  unfold positional
  dsimp only
  split
  · simp [hdigits]
  · split
    · simp only [List.mem_append, List.mem_cons, not_or]
      exact ⟨fun hmem => hdigits (List.mem_of_mem_take hmem), by decide,
        fun hmem => hdigits (List.mem_of_mem_drop hmem)⟩
    · simp [hdigits]

theorem Decimal.newline_notMem_text (x : Float) : '\n' ∉ (text x).toList := by
  have hsign : '\n' ∉ (if isNegative x then "-" else "").toList := by
    split <;> decide
  have hpositional := newline_notMem_positional (magnitudeOf x).shortest
  unfold text
  split
  · decide
  · dsimp only
    split
    · simp [hsign]
    · split <;> simp [hsign, hpositional]

namespace Value

variable {v a b : Value}

/-- A value on one line is written on one line. -/
theorem OneLine.toText (h : v.OneLine) : '\n' ∉ v.toText.toList := by
  cases v with
  | number x => exact Decimal.newline_notMem_text x
  | text s => exact h
  | boolean b => cases b <;> decide
  | mysterious => decide
  | null => decide

theorem OneLine.concat (ha : a.OneLine) (hb : b.OneLine) : (a.concat b).OneLine := by
  show '\n' ∉ (a.toText ++ b.toText).toList
  rw [String.toList_append, List.mem_append, not_or]
  exact ⟨ha.toText, hb.toText⟩

theorem OneLine.arithmetic {op : Arithmetic} (h : a.arithmetic op b = .ok v) (ha : a.OneLine)
    (hb : b.OneLine) : v.OneLine := by
  unfold Value.arithmetic at h
  split at h <;> cases h
  · trivial
  · exact ha.concat hb
  · exact ha.concat hb

end Value

/-! ## Literals -/

/-- The value can be read from the tokens as a literal. -/
inductive Value.StemsFrom (ts : List Token) : Value → Prop where
  | number (x : Float) : StemsFrom ts (.number x)
  | literal {t : Token} {v : Value} : t ∈ ts → t.literal? = some v → StemsFrom ts v
  | spoken {t : Token} : t ∈ ts → t.kind = .word →
      StemsFrom ts (.text (String.ofList (Poetic.string t.behind)))

theorem Value.StemsFrom.of_subset {ts us : List Token} {v : Value} (h : v.StemsFrom ts)
    (hsub : ts ⊆ us) : v.StemsFrom us := by
  cases h with
  | number x => exact .number x
  | literal ht hv => exact .literal (hsub ht) hv
  | spoken ht hword => exact .spoken (hsub ht) hword

namespace Reader

variable {r : Reader} {ts rest : List Token} {e : Expr} {stmt : Statement}

theorem stemsFrom_operand (h : r.operand ts = .ok (e, rest)) :
    ∀ v ∈ e.literals, v.StemsFrom ts := by
  induction ts generalizing e rest with
  | nil => cases h
  | cons t tail ih =>
    rw [operand] at h
    split at h
    next v hv =>
      cases h
      intro w hw
      obtain rfl := List.mem_singleton.mp hw
      exact .literal (by simp) hv
    next =>
      split at h
      · split at h
        next e' rest' hrest =>
          cases h
          intro v hv
          exact (ih hrest v hv).of_subset (List.subset_cons_self t tail)
        next => cases h
      · split at h
        · split at h <;> cases h
          rintro v ⟨⟩
        · cases h

theorem stemsFrom_continueExpr {tree : Expr} (h : r.continueExpr tree ts = .ok (e, rest)) :
    ∀ v ∈ e.literals, v ∈ tree.literals ∨ v.StemsFrom ts := by
  fun_induction r.continueExpr tree ts with
  | case1 tree ts hop =>
    cases h
    exact fun v hv => .inl hv
  | case2 tree ts op width hop right rest' hoperand ih =>
    have hdrop := List.drop_suffix width ts
    have hsuffix := (reads_operand hoperand).1.trans hdrop
    intro v hv
    rcases ih h v hv with hattach | hbehind
    · rw [Expr.literals_attach, List.mem_append] at hattach
      rcases hattach with htree | hright
      · exact .inl htree
      · exact .inr ((stemsFrom_operand hoperand v hright).of_subset hdrop.subset)
    · exact .inr (hbehind.of_subset hsuffix.subset)
  | case3 tree ts op width hop f hoperand => cases h

theorem stemsFrom_expr (h : r.expr ts = .ok (e, rest)) : ∀ v ∈ e.literals, v.StemsFrom ts := by
  unfold expr at h
  split at h
  next first rest' hfirst =>
    have hsuffix := (reads_operand hfirst).1.subset
    intro v hv
    rcases stemsFrom_continueExpr h v hv with hmem | hbehind
    · exact stemsFrom_operand hfirst v hmem
    · exact hbehind.of_subset hsuffix
  next => cases h

theorem stemsFrom_isValue {verb : Token} (h : r.isValue verb ts = .ok (e, rest)) :
    ∀ v ∈ e.literals, v.StemsFrom ts := by
  unfold isValue at h
  split at h
  · cases h
  · split at h
    · cases h
    · dsimp only at h
      split at h
      next v hv =>
        cases h
        intro w hw
        obtain rfl := List.mem_singleton.mp hw
        split at hv
        · exact .literal (by simp) hv
        · cases hv
      next =>
        split at h <;> cases h
        intro w hw
        obtain rfl := List.mem_singleton.mp hw
        exact .number _

theorem stemsFrom_name (h : r.nameStatement ts = .ok (stmt, rest)) :
    ∀ v ∈ stmt.literals, v.StemsFrom ts := by
  obtain ⟨⟨target, ts₁⟩, htarget, h⟩ := bind_ok h
  have hsub := (reads_variableRef htarget).1.subset
  cases ts₁ with
  | nil => cases h
  | cons verb tail =>
    dsimp only at h hsub
    split at h
    · obtain ⟨⟨value, rest'⟩, hvalue, hpure⟩ := bind_ok h
      cases hpure
      intro v hv
      exact (stemsFrom_isValue hvalue v hv).of_subset (List.subset_of_cons_subset hsub)
    · split at h
      next hspeech =>
        cases h
        intro v hv
        obtain rfl := List.mem_singleton.mp hv
        obtain ⟨word, -, hword⟩ := List.any_eq_true.mp hspeech
        simp only [Token.isWord, Bool.and_eq_true, decide_eq_true_eq] at hword
        exact .spoken (hsub (by simp)) hword.1
      · cases h

/-- The literals of a statement are read from its tokens. -/
theorem stemsFrom_statement (h : r.statement ts = .ok (stmt, rest)) :
    ∀ v ∈ stmt.literals, v.StemsFrom ts := by
  cases ts with
  | nil => cases h
  | cons t tail =>
    have htail : ∀ {v : Value}, v.StemsFrom tail → v.StemsFrom (t :: tail) :=
      fun hv => hv.of_subset (List.subset_cons_self t tail)
    have hstep : ∀ {direction : Direction},
        r.stepStatement direction t.span tail = .ok (stmt, rest) →
        ∀ v ∈ stmt.literals, v.StemsFrom (t :: tail) := by
      intro direction h
      obtain ⟨⟨target, ts₁⟩, htarget, h⟩ := bind_ok h
      dsimp only at h
      split at h <;> cases h
      intro v hv
      obtain rfl := List.mem_singleton.mp hv
      exact .number _
    unfold statement at h
    dsimp only at h
    split at h
    · cases h
    · split at h
      · obtain ⟨⟨value, ts₁⟩, hvalue, h⟩ := bind_ok h
        obtain ⟨⟨into, ts₂⟩, hinto, h⟩ := bind_ok h
        obtain ⟨⟨target, ts₃⟩, htarget, h⟩ := bind_ok h
        cases h
        exact fun v hv => htail (stemsFrom_expr hvalue v hv)
      · split at h
        · obtain ⟨⟨target, ts₁⟩, htarget, h⟩ := bind_ok h
          obtain ⟨⟨be, ts₂⟩, hbe, h⟩ := bind_ok h
          obtain ⟨⟨value, ts₃⟩, hvalue, h⟩ := bind_ok h
          cases h
          obtain rfl := word_ok hbe
          have hsuffix := (List.suffix_cons be ts₂).trans (reads_variableRef htarget).1
          exact fun v hv => htail ((stemsFrom_expr hvalue v hv).of_subset hsuffix.subset)
        · split at h
          · obtain ⟨⟨value, ts₁⟩, hvalue, h⟩ := bind_ok h
            cases h
            exact fun v hv => htail (stemsFrom_expr hvalue v hv)
          · split at h
            · exact hstep h
            · split at h
              · exact hstep h
              · split at h
                · cases h
                · exact stemsFrom_name h

end Reader

theorem Poetic.mem_of_mem_string {text : List Char} {c : Char} (h : c ∈ string text) :
    c ∈ text := by
  have hreturn : c ∈ dropReturn text → c ∈ text := by
    unfold dropReturn
    split
    · exact fun hmem => List.dropLast_subset text hmem
    · exact id
  unfold string at h
  split at h
  next rest hrest =>
    refine hreturn ?_
    rw [hrest]
    exact List.mem_cons_of_mem _ h
  next => exact hreturn h

/-- A token that does not end a line is spelled without a newline, and there is none in the rest of
its line. -/
theorem Token.exists_spelled {source : List Char} {l : Line} (hl : l ∈ Line.split source)
    {t : Token} (ht : t ∈ l.tokens) (hsound : t.fault? = none) (hends : t.kind.endsLine = false) :
    ∃ slice, t.Spelled slice ∧ '\n' ∉ slice ∧ '\n' ∉ t.behind := by
  obtain ⟨before, slice, after, -, hstands⟩ :=
    standsAt_of_mem_tokenize ((Line.sublist_tokenize hl).subset ht) hsound
  obtain ⟨hslice, hbehind⟩ := hstands.behind hends
  refine ⟨slice, hstands.spelled, hslice, fun hmem => ?_⟩
  rw [hbehind] at hmem
  exact absurd (List.mem_takeWhile_imp hmem) (by decide)

theorem Value.StemsFrom.oneLine {source : List Char} {l : Line} (hl : l ∈ Line.split source)
    {v : Value} (h : v.StemsFrom l.tokens) : v.OneLine := by
  cases h with
  | number x => trivial
  | @literal t v ht hv =>
    have hsound := Token.fault?_of_literal hv
    unfold Token.literal? at hv
    split at hv
    · cases hv
      trivial
    next hkind =>
      cases hv
      obtain ⟨slice, hspelled, hslice, -⟩ :=
        Token.exists_spelled hl ht hsound (by rw [hkind]; rfl)
      rw [Token.Spelled, hkind] at hspelled
      intro hmem
      refine hslice ?_
      rw [hspelled]
      simp [hmem]
    · obtain ⟨word, -, rfl⟩ := Option.map_eq_some_iff.mp hv
      cases word <;> simp [ConstantWord.value, OneLine]
    · cases hv
  | @spoken t ht hword =>
    obtain ⟨-, -, -, hbehind⟩ :=
      Token.exists_spelled hl ht (Token.fault?_of_word hword) (by rw [hword]; rfl)
    show '\n' ∉ (String.ofList (Poetic.string t.behind)).toList
    rw [String.toList_ofList]
    exact fun hmem => hbehind (Poetic.mem_of_mem_string hmem)

/-- No literal of a program reaches over the end of a line. -/
theorem oneLine_of_parse {v : Vocabulary} {source : List Char} {program : List Statement}
    (h : parse v source = .ok program) :
    ∀ stmt ∈ program, ∀ value ∈ stmt.literals, value.OneLine := by
  intro stmt hstmt value hvalue
  obtain ⟨l, hl, rest, hstatement⟩ := exists_line_of_statement h hstmt
  exact (Reader.stemsFrom_statement hstatement value hvalue).oneLine hl

/-! ## Constants -/

/-- No newline is in a text of the pool. -/
def Pool.OneLine (p : Pool) : Prop := ∀ i s, p.get? i = some (.text s) → '\n' ∉ s.toList

namespace CompileM

/-- That all texts are on one line is handed on. -/
def KeepsOneLine (s s' : Session) : Prop := s.asm.pool.OneLine → s'.asm.pool.OneLine

theorem oneLine_emitIndexed {a : Assembler} (h : a.pool.OneLine) {c : Constant}
    (hc : ∀ s, c = .text s → '\n' ∉ s.toList) (instr : UInt16 → Instr) :
    (a.emitIndexed c instr).2.pool.OneLine := by
  have hadd : (a.pool.add c).2.OneLine := by
    intro i s hget
    rcases Registry.get?_enter hget with hold | hnew
    · exact h i s hold
    · exact hc s hnew.symm
  rw [Assembler.emitIndexed_eq]
  split
  · exact hadd
  · exact hadd

theorem oneLine_passesAll (o : Options) : PassesAll KeepsOneLine o where
  refl _ h := h
  trans h h' hs := h' (h hs)
  identify ref s h := by
    obtain ⟨last, hlast⟩ := identify_last o ref s
    rw [hlast]
    exact h
  emit i s h := h
  emitCall r s h := oneLine_emitIndexed h (c := .routine r.hash) (by rintro _ ⟨⟩) _
  setLine line s h := h
  slotToWrite i span s h := h

theorem oneLine_emitValue {v : Value} (hv : v.OneLine) : Respects KeepsOneLine (emitValue v) := by
  intro s h
  show (s.asm.emitValue v).2.pool.OneLine
  cases v with
  | number x =>
    exact oneLine_emitIndexed h (c := .number x) (by rintro _ ⟨⟩) Assembler.loadInstr
  | text t =>
    refine oneLine_emitIndexed h (c := .text t) ?_ Assembler.loadInstr
    rintro _ ⟨⟩
    exact hv
  | boolean b => exact h
  | mysterious => exact h
  | null => exact h

end CompileM

/-- The pool of a program holds the texts that stand in it. -/
theorem oneLine_pool {o : Options} {program : List Statement} {s : Session}
    (h : CompileM.statements o program (.start o) = (.ok (), s))
    (hliterals : ∀ stmt ∈ program, ∀ v ∈ stmt.literals, v.OneLine) : s.finish.pool.OneLine := by
  refine (CompileM.respects_statements (CompileM.oneLine_passesAll o) program ?_).of_ok h ?_
  · exact fun stmt hstmt v hv => CompileM.oneLine_emitValue (hliterals stmt hstmt v hv)
  · rintro i text ⟨⟩

/-! ## Machines -/

/-- No newline is in a field or on the stack. -/
structure Memory.OneLine (m : Memory) : Prop where
  fields : ∀ v ∈ m.fields, v.OneLine
  stack : ∀ v ∈ m.stack, v.OneLine

namespace Memory

variable {m : Memory} {site : Site} {pool : Pool}

theorem OneLine.push (h : m.OneLine) {v : Value} (hv : v.OneLine) : (m.push v).OneLine :=
  ⟨h.fields, List.forall_mem_cons.mpr ⟨hv, h.stack⟩⟩

theorem oneLine_pop (h : m.OneLine) {f : Value → Memory → Effect}
    (hf : ∀ v (m : Memory), v.OneLine → m.OneLine → (f v m).memory.OneLine) :
    (m.pop site f).memory.OneLine := by
  unfold pop
  split
  next v rest hstack =>
    obtain ⟨hv, hrest⟩ := List.forall_mem_cons.mp (hstack ▸ h.stack)
    exact hf v _ hv ⟨h.fields, hrest⟩
  next => exact h

theorem oneLine_popPair (h : m.OneLine) {f : Value → Value → Memory → Effect}
    (hf : ∀ a b (m : Memory), a.OneLine → b.OneLine → m.OneLine → (f a b m).memory.OneLine) :
    (m.popPair site f).memory.OneLine :=
  oneLine_pop h fun b _ hb hm => oneLine_pop hm fun a m ha hm => hf a b m ha hb hm

theorem oneLine_pushConstant (h : m.OneLine) (hpool : pool.OneLine) (i : Nat) :
    (m.pushConstant pool i).memory.OneLine := by
  unfold pushConstant
  split
  next v hv =>
    obtain ⟨c, hget, hvalue⟩ := Option.bind_eq_some_iff.mp hv
    refine h.push ?_
    cases c with
    | number x =>
      cases hvalue
      trivial
    | text s =>
      cases hvalue
      exact hpool i s hget
    | routine hash => cases hvalue
  next => exact h

theorem oneLine_callRoutine (h : m.OneLine) (r : Routine) :
    (m.callRoutine site r).memory.OneLine := by
  have htop := h.stack
  unfold callRoutine
  split
  next v rest hstack =>
    rw [hstack] at htop
    obtain ⟨hv, hrest⟩ := List.forall_mem_cons.mp htop
    exact ⟨h.fields, List.forall_mem_cons.mpr ⟨hv.toText, hrest⟩⟩
  next right left rest hstack =>
    rw [hstack] at htop
    obtain ⟨hright, htop⟩ := List.forall_mem_cons.mp htop
    obtain ⟨hleft, hrest⟩ := List.forall_mem_cons.mp htop
    split
    next v hsum =>
      exact ⟨h.fields, List.forall_mem_cons.mpr ⟨.arithmetic hsum hleft hright, hrest⟩⟩
    next => exact ⟨h.fields, hrest⟩
  next right left rest hstack =>
    rw [hstack] at htop
    obtain ⟨hright, htop⟩ := List.forall_mem_cons.mp htop
    obtain ⟨hleft, hrest⟩ := List.forall_mem_cons.mp htop
    exact ⟨h.fields, List.forall_mem_cons.mpr ⟨hleft.concat hright, hrest⟩⟩
  next => exact h

theorem oneLine_call (h : m.OneLine) (i argc : Nat) :
    (m.call site pool i argc).memory.OneLine := by
  unfold call
  split
  · split
    · split
      · exact oneLine_callRoutine h _
      · exact h
    · exact h
  · exact h

/-- An instruction makes no newline. -/
theorem oneLine_perform (h : m.OneLine) (hpool : pool.OneLine) (site : Site) (i : Instr) :
    (m.perform site pool i).memory.OneLine := by
  cases i with
  | constant k => exact oneLine_pushConstant h hpool _
  | constantWide k => exact oneLine_pushConstant h hpool _
  | pushBool b => exact h.push trivial
  | pushNull => exact h.push trivial
  | pushMysterious => exact h.push trivial
  | getField k =>
    unfold perform
    dsimp only
    split
    next v hv => exact h.push (h.fields v (Array.mem_of_getElem? hv))
    next => exact h
  | setField k =>
    rw [perform]
    refine oneLine_pop h fun v m hv hm => ?_
    split
    · refine ⟨fun w hw => ?_, hm.stack⟩
      rcases Array.mem_or_eq_of_mem_setIfInBounds hw with hold | rfl
      · exact hm.fields w hold
      · exact hv
    · exact hm
  | arith op =>
    refine oneLine_popPair h fun a b m _ _ hm => ?_
    unfold arith
    split
    · exact hm.push trivial
    · exact hm
    · exact hm
  | expectNumber depth =>
    unfold perform
    dsimp only
    split <;> exact h
  | equality positive => exact oneLine_popPair h fun _ _ _ _ _ hm => hm.push trivial
  | compare op =>
    refine oneLine_popPair h fun a b m _ _ hm => ?_
    split
    · exact hm.push trivial
    · exact hm
  | not =>
    rw [perform]
    exact oneLine_pop h fun _ _ _ hm => hm.push trivial
  | logic op => exact oneLine_popPair h fun _ _ _ _ _ hm => hm.push trivial
  | call k argc => exact oneLine_call h _ _
  | writeLine => exact oneLine_pop h fun _ _ _ hm => hm
  | ret => exact h

end Memory

namespace Machine

variable {σ : Type} {sink : Sink σ} {x : Executable} {m m' : Machine} {out out' : σ}

theorem oneLine_start (x : Executable) : (start x).memory.OneLine := by
  refine ⟨fun v hv => ?_, by rintro v ⟨⟩⟩
  rw [(Array.mem_replicate.mp hv).2]
  trivial

theorem oneLine_step (hpool : x.pool.OneLine) (sink : Sink σ) (out : σ)
    (h : m.memory.OneLine) : (m.step sink x out).machine.memory.OneLine := by
  cases hdone : m.finished with
  | true =>
    rw [step_of_finished hdone]
    exact h
  | false =>
    cases hfetch : x.code.fetch m.offset with
    | instr i line next =>
      rw [step_of_fetch out hdone hfetch, memory_apply]
      exact Memory.oneLine_perform h hpool _ i
    | _ =>
      rw [step, hdone, hfetch]
      exact h

theorem Reaches.oneLine (hreach : Reaches sink x m out m' out') (hpool : x.pool.OneLine)
    (h : m.memory.OneLine) : m'.memory.OneLine := by
  induction hreach with
  | refl m out => exact h
  | @step m m₁ m₂ out out₁ out₂ hstep _ ih =>
    have hnext := oneLine_step hpool sink out h
    rw [hstep] at hnext
    exact ih hnext

theorem oneLine_execute (hpool : x.pool.OneLine) (sink : Sink σ) (out : σ)
    (h : m.memory.OneLine) : (m.execute sink x out).machine.memory.OneLine := by
  fun_induction execute sink x m out with
  | case1 m out m' out' hstep ih =>
    have hnext := oneLine_step hpool sink out h
    rw [hstep] at hnext
    exact ih hnext
  | case2 m out run hstep =>
    have hnext := oneLine_step hpool sink out h
    rw [hstep] at hnext
    exact hnext

theorem oneLine_afterCalls (hpool : x.pool.OneLine) (calls : List Outlet)
    (h : m.memory.OneLine) : (m.afterCalls x calls).memory.OneLine := by
  induction calls generalizing m with
  | nil => exact h
  | cons w ws ih => exact ih (oneLine_execute hpool w.sink w.held h)

end Machine

end Rockstar
