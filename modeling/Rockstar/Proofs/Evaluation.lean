import Rockstar.Machine
import Rockstar.Statement

/-!
# Direct evaluation

What a program means, without code and without a machine. The state holds the value of each
variable that was assigned, by its canonical name, and the name that a pronoun stands for.
Operands are evaluated from left to right and references are looked up in the order in which they
are written. A fault carries the line of the statement it arises in.
-/

namespace Rockstar

/-- The variables of a program that is being evaluated. -/
structure Env where
  /-- The value of each variable that was assigned. -/
  values : String → Option Value
  /-- The name that a pronoun stands for. -/
  last : Option String

/-- Why an evaluation does not go on. -/
inductive Halt where
  | fault (fault : Fault)
  /-- The statement has no meaning: a reference is no name, or nothing was named or assigned. -/
  | refused (error : CompileError)
  deriving DecidableEq

namespace Env

/-- The variables before the first statement. -/
def start : Env := ⟨fun _ => none, none⟩

/-- The canonical name that a reference stands for. Names are remembered for later pronouns. -/
def refer (v : Vocabulary) (env : Env) (ref : Variable) : Except Halt (String × Env) :=
  match Name.shape? v ref.text with
  | none => .error (.refused (.malformedName ref.text ref.span))
  | some .pronoun =>
    match env.last with
    | some name => .ok (name, env)
    | none => .error (.refused (.unresolvedPronoun ref.text ref.span))
  | some _ => .ok (Name.canonical ref.text, { env with last := some (Name.canonical ref.text) })

/-- The value of a variable. -/
def read (policy : UnboundPolicy) (env : Env) (name : String) (span : Span) : Except Halt Value :=
  match env.values name with
  | some v => .ok v
  | none =>
    match policy with
    | .refuse => .error (.refused (.unboundVariable name span))
    | .mysterious => .ok .mysterious

/-- The variables after an assignment. -/
def assign (env : Env) (name : String) (v : Value) : Env :=
  { env with values := fun other => if other = name then some v else env.values other }

end Env

/-- Arithmetic on two numbers; of two operands that are none the left one is at fault. -/
def Arithmetic.ofNumbers (op : Arithmetic) (line : Nat) (a b : Value) : Except Fault Value :=
  match a.number?, b.number? with
  | some x, some y => .ok (.number (op.apply x y))
  | none, _ => .error (.expectedNumber a.kind line)
  | some _, none => .error (.expectedNumber b.kind line)

/-- An operator on two values, on a source line. -/
def BinaryOp.combine (op : BinaryOp) (line : Nat) (a b : Value) : Except Fault Value :=
  match op with
  | .arith .add =>
    match a.arithmetic .add b with
    | .ok v => .ok v
    | .error m => .error (.typeMismatch m line)
  | .arith op => op.ofNumbers line a b
  | .equality positive => .ok (.boolean (a.equals b == positive))
  | .compare op =>
    match a.compare op b with
    | .ok holds => .ok (.boolean holds)
    | .error m => .error (.typeMismatch m line)
  | .logic op => .ok (.boolean (op.apply a.truthy b.truthy))

/-- The value of an expression on a source line, and the variables after it. -/
def Expr.eval (o : Options) (line : Nat) : Expr → Env → Except Halt (Value × Env)
  | .literal v _, env => .ok (v, env)
  | .poetic x _ _, env => .ok (.number x, env)
  | .variable ref, env => do
    let (name, env) ← env.refer o.vocabulary ref
    let v ← env.read o.unbound name ref.span
    return (v, env)
  | .binary op l r, env => do
    let (a, env) ← l.eval o line env
    let (b, env) ← r.eval o line env
    match op.combine line a b with
    | .ok v => return (v, env)
    | .error f => throw (.fault f)
  | .negation _ e, env => do
    let (v, env) ← e.eval o line env
    return (.boolean (!v.truthy), env)

/-- Target and value of an assignment, in the order in which they are written. -/
def Env.assignParts (o : Options) (line : Nat) (env : Env) (target : Variable) (value : Expr) :
    Except Halt (String × Value × Env) :=
  if target.isBefore value then do
    let (name, env) ← env.refer o.vocabulary target
    let (v, env) ← value.eval o line env
    return (name, v, env)
  else do
    let (v, env) ← value.eval o line env
    let (name, env) ← env.refer o.vocabulary target
    return (name, v, env)

/-- The variables after a statement and the text that it writes, if any. -/
def Statement.eval (o : Options) (stmt : Statement) (env : Env) :
    Except Halt (Env × Option String) :=
  match stmt with
  | .assign target value span => do
    let (name, v, env) ← env.assignParts o span.line target value
    return (env.assign name v, none)
  | .output _ value span => do
    let (v, env) ← value.eval o span.line env
    return (env, some (v.toText ++ "\n"))
  | .step direction target count span => do
    let (name, env) ← env.refer o.vocabulary target
    let v ← env.read o.unbound name target.span
    match v.number? with
    | some x =>
      return (env.assign name (.number (direction.operation.apply x (Float.ofNat count))), none)
    | none => throw (.fault (.expectedNumber v.kind span.line))

/-- How an evaluation ended: why it stopped early, if it did, the variables and the sink. -/
structure Evaluation (σ : Type) where
  halt : Option Halt
  env : Env
  out : σ

/-- Evaluates statements one after the other. What they write goes to the sink, which is flushed
at the end. -/
def evaluate {σ : Type} (sink : Sink σ) (o : Options) :
    List Statement → Env → σ → Evaluation σ
  | [], env, out =>
    match sink.flush out with
    | (.ok _, out) => ⟨none, env, out⟩
    | (.error reason, out) => ⟨some (.fault (.output reason)), env, out⟩
  | stmt :: rest, env, out =>
    match stmt.eval o env with
    | .error halt => ⟨some halt, env, out⟩
    | .ok (env, none) => evaluate sink o rest env out
    | .ok (env, some text) =>
      match sink.write text out with
      | (.ok _, out) => evaluate sink o rest env out
      | (.error reason, out) => ⟨some (.fault (.output reason)), env, out⟩

end Rockstar
