import Rockstar.Routine

/-!
# Faults

Everything that can stop the machine. Compiled code can only meet the first two and a failing
output; the others need code that no program compiles to.
-/

namespace Rockstar

/-- Why the machine stopped. -/
inductive Fault where
  | typeMismatch (mismatch : Mismatch) (line : Nat)
  | expectedNumber (actual : Kind) (line : Nat)
  | stackUnderflow (offset : Nat)
  | invalidOpcode (byte : UInt8) (offset : Nat)
  | truncatedInstruction (offset : Nat)
  | badConstant (index : Nat)
  | badField (index : Nat)
  | unknownRoutine (hash : UInt64)
  | routineArity (routine : Routine) (got : Nat)
  | output (reason : String)
  deriving DecidableEq

/-- The fault in words. -/
def Fault.message : Fault → String
  | .typeMismatch m line => s!"line {line}: {m.message}"
  | .expectedNumber actual line => s!"line {line}: expected a number, got {actual.name}"
  | .stackUnderflow offset => s!"value stack underflow at offset {offset}"
  | .invalidOpcode byte offset =>
    s!"invalid opcode {Text.hexLiteral 2 byte.toNat} at offset {offset}"
  | .truncatedInstruction offset => s!"truncated instruction at offset {offset}"
  | .badConstant index => s!"constant {index} is missing or has the wrong kind"
  | .badField index => s!"field {index} does not exist"
  | .unknownRoutine hash => s!"no runtime function with hash {Text.hexLiteral 16 hash.toNat}"
  | .routineArity routine got =>
    s!"runtime function '{routine.name}' takes {routine.arity} argument(s), got {got}"
  | .output reason => s!"output failed: {reason}"

end Rockstar
