import Rockstar.Compile
import Rockstar.Fault
import Rockstar.Sink

/-!
# The machine

A stack machine that runs compiled code from its first byte on. `perform` is the meaning of a
single instruction, which writes nothing itself but says what is to be written; `step` fetches and
performs the next one, and `execute` takes steps until the program ends or something stops it. A
machine that stopped can be executed again and goes on where it stands: the operands that were
taken are gone, and the instruction that failed is not repeated.
-/

namespace Rockstar

/-- The fields of a running program and its stack, the top first. -/
structure Memory where
  fields : Array Value
  stack : List Value
  deriving DecidableEq

/-- A running program. -/
structure Machine where
  memory : Memory
  /-- The offset of the next instruction. -/
  offset : Nat
  /-- The source line of the last instruction. -/
  line : Nat
  finished : Bool
  deriving DecidableEq

/-- Where an instruction stands. -/
structure Site where
  /-- The offset of the instruction. -/
  offset : Nat
  /-- The offset behind the instruction. -/
  next : Nat
  line : Nat

/-- What an instruction does, and the memory after it. -/
inductive Effect where
  | proceed (memory : Memory)
  | write (text : String) (memory : Memory)
  | finish (memory : Memory)
  | fault (fault : Fault) (memory : Memory)

namespace Memory

/-- Pushes a value. -/
def push (m : Memory) (v : Value) : Memory := { m with stack := v :: m.stack }

/-- Takes the top value. -/
def pop (m : Memory) (site : Site) (f : Value → Memory → Effect) : Effect :=
  match m.stack with
  | v :: rest => f v { m with stack := rest }
  | [] => .fault (.stackUnderflow site.next) m

/-- Takes the top two values, the right operand first. -/
def popPair (m : Memory) (site : Site) (f : Value → Value → Memory → Effect) : Effect :=
  m.pop site fun right m => m.pop site fun left m => f left right m

/-- Pushes a constant. -/
def pushConstant (m : Memory) (pool : Pool) (i : Nat) : Effect :=
  match (pool.get? i).bind Constant.value? with
  | some v => .proceed (m.push v)
  | none => .fault (.badConstant i) m

/-- Calls a routine on the values at the top of the stack. -/
def callRoutine (m : Memory) (site : Site) (r : Routine) : Effect :=
  match r, m.stack with
  | .toText, v :: rest => .proceed { m with stack := .text v.toText :: rest }
  | .add, right :: left :: rest =>
    match left.arithmetic .add right with
    | .ok v => .proceed { m with stack := v :: rest }
    | .error e => .fault (.typeMismatch e site.line) { m with stack := rest }
  | .concat, right :: left :: rest => .proceed { m with stack := left.concat right :: rest }
  | _, _ => .fault (.stackUnderflow site.next) m

/-- Calls the routine that a constant refers to, with the given number of values. -/
def call (m : Memory) (site : Site) (pool : Pool) (i argc : Nat) : Effect :=
  match pool.get? i with
  | some (.routine h) =>
    match Routine.ofHash? h with
    | some r => if argc = r.arity then m.callRoutine site r else .fault (.routineArity r argc) m
    | none => .fault (.unknownRoutine h) m
  | _ => .fault (.badConstant i) m

/-- Arithmetic on two numbers. -/
def arith (m : Memory) (site : Site) (op : Arithmetic) (left right : Value) : Effect :=
  match left, right with
  | .number x, .number y => .proceed (m.push (.number (op.apply x y)))
  | .number _, v => .fault (.expectedNumber v.kind site.line) m
  | v, _ => .fault (.expectedNumber v.kind site.line) m

/-- Carries out one instruction. -/
def perform (m : Memory) (site : Site) (pool : Pool) : Instr → Effect
  | .constant i => m.pushConstant pool i.toNat
  | .constantWide i => m.pushConstant pool i.toNat
  | .pushBool b => .proceed (m.push (.boolean b))
  | .pushNull => .proceed (m.push .null)
  | .pushMysterious => .proceed (m.push .mysterious)
  | .getField i =>
    match m.fields[i.toNat]? with
    | some v => .proceed (m.push v)
    | none => .fault (.badField i.toNat) m
  | .setField i =>
    m.pop site fun v m =>
      if i.toNat < m.fields.size then
        .proceed { m with fields := m.fields.setIfInBounds i.toNat v }
      else .fault (.badField i.toNat) m
  | .arith op => m.popPair site fun left right m => m.arith site op left right
  | .expectNumber depth =>
    match m.stack[depth.toNat]? with
    | some (.number _) => .proceed m
    | some v => .fault (.expectedNumber v.kind site.line) m
    | none => .fault (.stackUnderflow site.offset) m
  | .equality positive =>
    m.popPair site fun left right m =>
      .proceed (m.push (.boolean (left.equals right == positive)))
  | .compare op =>
    m.popPair site fun left right m =>
      match left.compare op right with
      | .ok b => .proceed (m.push (.boolean b))
      | .error e => .fault (.typeMismatch e site.line) m
  | .not => m.pop site fun v m => .proceed (m.push (.boolean (!v.truthy)))
  | .logic op =>
    m.popPair site fun left right m =>
      .proceed (m.push (.boolean (op.apply left.truthy right.truthy)))
  | .call i argc => m.call site pool i.toNat argc.toNat
  | .writeLine => m.pop site fun v m => .write (v.toText ++ "\n") m
  | .ret => .finish m

end Memory

namespace Machine

/-- A machine at the beginning of a program. Every field is mysterious. -/
def start (x : Executable) : Machine where
  memory := ⟨Array.replicate x.fields.size .mysterious, []⟩
  offset := 0
  line := 0
  finished := false

/-- The value of the field with the given name. -/
def field? (m : Machine) (x : Executable) (fieldName : String) : Option Value :=
  (x.fieldIndex? fieldName).bind (m.memory.fields[·]?)

/-- The machine behind an instruction. -/
def moved (memory : Memory) (site : Site) : Machine := ⟨memory, site.next, site.line, false⟩

end Machine

/-- How a run ended: the fault that stopped it, if any, the machine and the sink after it. -/
structure Run (σ : Type) where
  fault : Option Fault
  machine : Machine
  out : σ

/-- Where a machine is after one step. -/
inductive Progress (σ : Type) where
  | running (machine : Machine) (out : σ)
  | stopped (run : Run σ)

namespace Machine

/-- Takes one step: fetches the next instruction, performs it and writes what it says. A machine
that has finished does nothing. -/
def step {σ : Type} (sink : Sink σ) (x : Executable) (m : Machine) (out : σ) : Progress σ :=
  if m.finished then .stopped ⟨none, m, out⟩
  else
    match x.code.fetch m.offset with
    | .ended => .stopped ⟨some (.truncatedInstruction m.offset), m, out⟩
    | .invalid b _ => .stopped ⟨some (.invalidOpcode b m.offset), m, out⟩
    | .truncated _ line operand =>
      let m := { m with offset := operand, line := line }
      .stopped ⟨some (.truncatedInstruction operand), m, out⟩
    | .instr i line next =>
      let site : Site := ⟨m.offset, next, line⟩
      match m.memory.perform site x.pool i with
      | .proceed memory => .running (moved memory site) out
      | .write text memory =>
        match sink.write text out with
        | (.ok _, out) => .running (moved memory site) out
        | (.error reason, out) => .stopped ⟨some (.output reason), moved memory site, out⟩
      | .finish memory =>
        match sink.flush out with
        | (.ok _, out) => .stopped ⟨none, { moved memory site with finished := true }, out⟩
        | (.error reason, out) => .stopped ⟨some (.output reason), moved memory site, out⟩
      | .fault f memory => .stopped ⟨some f, moved memory site, out⟩

/-- A machine that goes on running has moved forward inside the code. -/
theorem lt_of_step_running {σ : Type} {sink : Sink σ} {x : Executable} {m m' : Machine}
    {out out' : σ} (h : m.step sink x out = .running m' out') :
    m.offset < x.code.size ∧ m.offset < m'.offset := by
  unfold step at h
  split at h
  · cases h
  · split at h
    · cases h
    · cases h
    · cases h
    · rename_i i line next hfetch
      have hlt := Code.lt_of_fetch_instr hfetch
      dsimp only at h
      split at h
      · cases h
        exact hlt
      · split at h
        · cases h
          exact hlt
        · cases h
      · split at h <;> cases h
      · cases h

/-- Runs the machine until the program ends or a fault stops it. -/
def execute {σ : Type} (sink : Sink σ) (x : Executable) (m : Machine) (out : σ) : Run σ :=
  match _h : m.step sink x out with
  | .running m out => execute sink x m out
  | .stopped run => run
termination_by x.code.size - m.offset
decreasing_by
  have := lt_of_step_running _h
  omega

end Machine

end Rockstar
