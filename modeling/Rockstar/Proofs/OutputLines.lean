import Rockstar.Proofs.Beginnings
import Rockstar.Proofs.OneLine

/-!
# Lines of output

A text is written with a newline behind it, and nothing else tells where it ends. As no text has a
newline in it, the output can be told apart again: it is one line for each output statement that is
executed (`output_lines`). Which statements these are, and their texts, is said by direct evaluation
(`outputTexts`).
-/

namespace Rockstar

/-! ## Evaluation -/

/-- No newline is in the value of a variable. -/
def Env.OneLine (env : Env) : Prop := ∀ name v, env.values name = some v → v.OneLine

namespace Env

variable {env env' : Env} {o : Options} {name : String} {v : Value}

theorem OneLine.refer {ref : Variable} (h : env.OneLine)
    (hrefer : env.refer o.vocabulary ref = .ok (name, env')) : env'.OneLine := by
  unfold Env.refer at hrefer
  split at hrefer
  · cases hrefer
  · split at hrefer <;> cases hrefer
    exact h
  · cases hrefer
    exact h

theorem OneLine.read {span : Span} (h : env.OneLine)
    (hread : env.read o.unbound name span = .ok v) : v.OneLine := by
  unfold Env.read at hread
  split at hread
  next w hw =>
    cases hread
    exact h name v hw
  next =>
    split at hread <;> cases hread
    trivial

theorem OneLine.assign (h : env.OneLine) (hv : v.OneLine) (name : String) :
    (env.assign name v).OneLine := by
  intro other w hw
  simp only [Env.assign] at hw
  split at hw
  · cases hw
    exact hv
  · exact h other w hw

end Env

theorem BinaryOp.oneLine_combine {op : BinaryOp} {line : Nat} {a b v : Value}
    (h : op.combine line a b = .ok v) (ha : a.OneLine) (hb : b.OneLine) : v.OneLine := by
  unfold combine at h
  split at h
  · split at h <;> cases h
    next hsum => exact .arithmetic hsum ha hb
  · unfold Arithmetic.ofNumbers at h
    split at h <;> cases h
    trivial
  · cases h
    trivial
  · split at h <;> cases h
    trivial
  · cases h
    trivial

/-- Evaluation makes no newline. -/
theorem Expr.oneLine_eval {o : Options} {line : Nat} {e : Expr} {env env' : Env} {v : Value}
    (he : ∀ v ∈ e.literals, v.OneLine) (henv : env.OneLine)
    (h : e.eval o line env = .ok (v, env')) : v.OneLine ∧ env'.OneLine := by
  induction e generalizing env env' v with
  | literal w span =>
    cases h
    exact ⟨he w (by simp [literals]), henv⟩
  | poetic x text span =>
    cases h
    exact ⟨trivial, henv⟩
  | «variable» ref =>
    obtain ⟨⟨name, env₁⟩, hrefer, h⟩ := bind_ok h
    obtain ⟨w, hread, h⟩ := bind_ok h
    cases h
    have henv₁ := henv.refer hrefer
    exact ⟨henv₁.read hread, henv₁⟩
  | binary op l r ihl ihr =>
    obtain ⟨⟨a, env₁⟩, hl, h⟩ := bind_ok h
    obtain ⟨⟨b, env₂⟩, hr, h⟩ := bind_ok h
    obtain ⟨ha, henv₁⟩ := ihl (fun v hv => he v (by simp [literals, hv])) henv hl
    obtain ⟨hb, henv₂⟩ := ihr (fun v hv => he v (by simp [literals, hv])) henv₁ hr
    dsimp only at h
    split at h <;> cases h
    next hcombine => exact ⟨BinaryOp.oneLine_combine hcombine ha hb, henv₂⟩
  | negation word e ih =>
    obtain ⟨⟨w, env₁⟩, hoperand, h⟩ := bind_ok h
    cases h
    exact ⟨trivial, (ih he henv hoperand).2⟩

/-- The text that an output statement writes. -/
def Statement.text? (o : Options) (stmt : Statement) (env : Env) : Option String :=
  match stmt with
  | .output _ value span =>
    (value.eval o span.line env).toOption.map fun result => result.1.toText
  | _ => none

namespace Statement

variable {o : Options} {stmt : Statement} {env env' : Env} {written : Option String}

theorem eval_output {verb : Verb} {value : Expr} {span : Span}
    (h : (Statement.output verb value span).eval o env = .ok (env', written)) :
    ∃ v, value.eval o span.line env = .ok (v, env') ∧ written = some (v.toText ++ "\n") := by
  obtain ⟨⟨v, env₁⟩, hvalue, h⟩ := bind_ok h
  cases h
  exact ⟨v, hvalue, rfl⟩

/-- What a statement writes is its text with a newline behind it. -/
theorem written_eq (h : stmt.eval o env = .ok (env', written)) :
    written = (stmt.text? o env).map (· ++ "\n") := by
  cases stmt with
  | assign target value span =>
    obtain ⟨⟨name, v, env₁⟩, -, h⟩ := bind_ok h
    cases h
    rfl
  | output verb value span =>
    obtain ⟨v, hvalue, rfl⟩ := eval_output h
    rw [text?, hvalue]
    rfl
  | step direction target count span =>
    obtain ⟨⟨name, env₁⟩, -, h⟩ := bind_ok h
    obtain ⟨v, -, h⟩ := bind_ok h
    split at h <;> cases h
    rfl

theorem oneLine_eval (hstmt : ∀ v ∈ stmt.literals, v.OneLine) (henv : env.OneLine)
    (h : stmt.eval o env = .ok (env', written)) :
    env'.OneLine ∧ ∀ text ∈ stmt.text? o env, '\n' ∉ text.toList := by
  cases stmt with
  | assign target value span =>
    obtain ⟨⟨name, v, env₁⟩, hparts, h⟩ := bind_ok h
    cases h
    suffices hboth : v.OneLine ∧ env₁.OneLine from ⟨hboth.2.assign hboth.1 name, by rintro _ ⟨⟩⟩
    unfold Env.assignParts at hparts
    split at hparts
    · obtain ⟨⟨name', env₂⟩, hrefer, hparts⟩ := bind_ok hparts
      obtain ⟨⟨w, env₃⟩, hvalue, hparts⟩ := bind_ok hparts
      cases hparts
      exact Expr.oneLine_eval hstmt (henv.refer hrefer) hvalue
    · obtain ⟨⟨w, env₂⟩, hvalue, hparts⟩ := bind_ok hparts
      obtain ⟨⟨name', env₃⟩, hrefer, hparts⟩ := bind_ok hparts
      cases hparts
      obtain ⟨hv, henv₂⟩ := Expr.oneLine_eval hstmt henv hvalue
      exact ⟨hv, henv₂.refer hrefer⟩
  | output verb value span =>
    obtain ⟨v, hvalue, -⟩ := eval_output h
    obtain ⟨hv, henv'⟩ := Expr.oneLine_eval hstmt henv hvalue
    refine ⟨henv', fun text htext => ?_⟩
    rw [text?, hvalue] at htext
    cases htext
    exact hv.toText
  | step direction target count span =>
    obtain ⟨⟨name, env₁⟩, hrefer, h⟩ := bind_ok h
    obtain ⟨v, -, h⟩ := bind_ok h
    split at h <;> cases h
    refine ⟨(henv.refer hrefer).assign ?_ name, by rintro _ ⟨⟩⟩
    trivial

end Statement

/-! ## Output -/

/-- The texts of the output statements that are executed, in order. An execution ends with the first
statement that fails. -/
def outputTexts (o : Options) : List Statement → Env → List String
  | [], _ => []
  | stmt :: rest, env =>
    match stmt.eval o env with
    | .error _ => []
    | .ok (env', _) => (stmt.text? o env).toList ++ outputTexts o rest env'

theorem oneLine_outputTexts {o : Options} {program : List Statement} {env : Env}
    (hprogram : ∀ stmt ∈ program, ∀ v ∈ stmt.literals, v.OneLine) (henv : env.OneLine) :
    ∀ text ∈ outputTexts o program env, '\n' ∉ text.toList := by
  induction program generalizing env with
  | nil => rintro text ⟨⟩
  | cons stmt rest ih =>
    obtain ⟨hstmt, hrest⟩ := List.forall_mem_cons.mp hprogram
    rw [outputTexts]
    split
    · rintro text ⟨⟩
    next env' written heval =>
      obtain ⟨henv', htext⟩ := Statement.oneLine_eval hstmt henv heval
      intro text hmem
      rcases List.mem_append.mp hmem with hnow | hlater
      · exact htext text (Option.mem_toList.mp hnow)
      · exact ih hrest henv' text hlater

/-- The sink is offered the texts one after the other, each as a line of its own, up to the first
that it refuses. Behind the last text it may be flushed. -/
inductive Sink.Receives {σ : Type} (sink : Sink σ) : List String → σ → σ → Prop where
  | stopped (out : σ) : Receives sink [] out out
  | flushed (out : σ) : Receives sink [] out (sink.flush out).2
  | refused {text : String} {texts : List String} {reason : String} {out out' : σ} :
      sink.write (text ++ "\n") out = (.error reason, out') →
      Receives sink (text :: texts) out out'
  | taken {text : String} {texts : List String} {out out₁ out' : σ} :
      sink.write (text ++ "\n") out = (.ok (), out₁) → Receives sink texts out₁ out' →
      Receives sink (text :: texts) out out'

theorem receives_evaluate {σ : Type} (sink : Sink σ) (o : Options) (program : List Statement)
    (env : Env) (out : σ) :
    sink.Receives (outputTexts o program env) out (evaluate sink o program env out).out := by
  induction program generalizing env out with
  | nil =>
    have hflushed : sink.Receives [] out (sink.flush out).2 := .flushed out
    rw [evaluate, outputTexts]
    split
    next hflush => rwa [hflush] at hflushed
    next hflush => rwa [hflush] at hflushed
  | cons stmt rest ih =>
    rw [evaluate, outputTexts]
    cases heval : stmt.eval o env with
    | error halt => exact .stopped out
    | ok result =>
      obtain ⟨env', written⟩ := result
      have hwritten := Statement.written_eq heval
      cases htext : stmt.text? o env with
      | none =>
        rw [htext] at hwritten
        subst hwritten
        exact ih env' out
      | some text =>
        rw [htext] at hwritten
        subst hwritten
        dsimp only [Option.map_some]
        split
        next hwrite => exact .taken hwrite (ih env' _)
        next hwrite => exact .refused hwrite

/-- A sink that takes everything has taken all the lines. -/
theorem Sink.Receives.text_eq {σ : Type} {sink : Sink σ} {text : σ → String}
    (hsink : sink.Collects text) {texts : List String} {out out' : σ}
    (h : sink.Receives texts out out') :
    (text out').toList =
      (text out).toList ++ (texts.map String.toList).flatMap (· ++ ['\n']) := by
  induction h with
  | stopped out => simp
  | flushed out =>
    obtain ⟨out', hflush, htext⟩ := hsink.flush out
    rw [hflush, htext]
    simp
  | @refused line texts reason out out' hwrite =>
    obtain ⟨out₁, hok, -⟩ := hsink.write (line ++ "\n") out
    rw [hwrite] at hok
    cases hok
  | @taken line texts out out₁ out' hwrite _ ih =>
    obtain ⟨out₂, hok, htext⟩ := hsink.write (line ++ "\n") out
    rw [hwrite] at hok
    cases hok
    rw [ih, htext]
    simp

/-- In a program that was read and compiled, no text has a newline in it: none in the pool, and at
every moment of every run none in a field or on the stack. So, whatever the sink, it is offered one
line for each output statement that is executed, up to the first that it refuses; and what a sink
has collected that takes everything consists of exactly these lines, each of them the text of its
statement. -/
theorem output_lines {o : Options} {source : String} {program : List Statement} {x : Executable}
    (hparse : parse o.vocabulary source.toList = .ok program)
    (hcompile : compile o program = .ok x) :
    (∀ i text, x.pool.get? i = some (.text text) → '\n' ∉ text.toList) ∧
    (∀ (calls : List Outlet) (w : Outlet) (m : Machine) (out : w.State),
      Machine.Reaches w.sink x ((Machine.start x).afterCalls x calls) w.held m out →
      ∀ text, .text text ∈ m.memory.fields ∨ .text text ∈ m.memory.stack → '\n' ∉ text.toList) ∧
    (∀ {σ : Type} (sink : Sink σ) (out : σ), sink.Receives (outputTexts o program .start) out
      ((Machine.start x).execute sink x out).out) ∧
    ∀ {σ : Type} {sink : Sink σ} {text : σ → String}, sink.Collects text →
      ∀ out, text out = "" →
        (Line.split (text ((Machine.start x).execute sink x out).out).toList).map Line.text =
          (outputTexts o program .start).map String.toList ++ [[]] := by
  obtain ⟨s, hstatements, rfl⟩ := exists_session_of_compile hcompile
  have hliterals := oneLine_of_parse hparse
  have hpool := oneLine_pool hstatements hliterals
  have hreceives : ∀ {σ : Type} (sink : Sink σ) (out : σ),
      sink.Receives (outputTexts o program .start) out
        ((Machine.start s.finish).execute sink s.finish out).out := by
    intro σ sink out
    have hmatches := matches_of_statements hstatements (source_of_parse hparse).literals sink out
    rw [hmatches.out]
    exact receives_evaluate sink o program .start out
  refine ⟨hpool, fun calls w m out hreach => ?_, hreceives, fun {σ sink text} hsink out hout => ?_⟩
  · have hmemory := hreach.oneLine hpool
      (Machine.oneLine_afterCalls hpool calls (Machine.oneLine_start s.finish))
    rintro text (hfield | hstack)
    · exact hmemory.fields _ hfield
    · exact hmemory.stack _ hstack
  · have htexts : ∀ t ∈ (outputTexts o program .start).map String.toList, '\n' ∉ t :=
      List.forall_mem_map.mpr (oneLine_outputTexts hliterals (by rintro _ _ ⟨⟩))
    rw [(hreceives sink out).text_eq hsink, hout, Line.split]
    exact Line.map_text_splitFrom 1 0 htexts

/-- A text that is spoken, one that is put together, an empty one, and a difference that fails. -/
def ballad : String :=
  "Tommy says rock\nShout Tommy plus \" & \" plus 5\nWhisper silence\nSay Tommy minus 1\nSay 1"

/-- The empty text is a line of its own, and the difference ends the execution. -/
theorem output_lines_ballad :
    ∃ program x, parse (Options.vocabulary {}) ballad.toList = .ok program ∧
      compile {} program = .ok x ∧ outputTexts {} program .start = ["rock & 5", ""] ∧
      (Line.split ((Machine.start x).execute Sink.collect x "").out.toList).map Line.text =
        ["rock & 5".toList, [], []] := by
  have hends : ((parse (Options.vocabulary {}) ballad.toList).toOption.map fun program =>
      ((compile {} program).toOption.isSome, outputTexts {} program .start)) =
      some (true, ["rock & 5", ""]) := by
    decide +kernel
  obtain ⟨program, hprogram, hboth⟩ := Option.map_eq_some_iff.mp hends
  obtain ⟨hsome, htexts⟩ := Prod.mk.inj hboth
  obtain ⟨x, hx⟩ := Option.isSome_iff_exists.mp hsome
  have hparse := eq_ok_of_toOption hprogram
  have hcompile := eq_ok_of_toOption hx
  have hlines := (output_lines hparse hcompile).2.2.2 Sink.collects_collect "" rfl
  refine ⟨program, x, hparse, hcompile, htexts, hlines.trans ?_⟩
  rw [htexts]
  rfl

end Rockstar
