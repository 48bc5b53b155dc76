import Rockstar.Machine
import Rockstar.Statement.Parse

/-!
# Programs from source to output
-/

namespace Rockstar

/-- What can go wrong on the way from source to output. -/
inductive Error where
  | parse (errors : List ParseError)
  | compile (error : CompileError)
  | fault (fault : Fault)
  deriving DecidableEq

/-- The error in words; errors of reading are listed one on each line. -/
def Error.message : Error → String
  | .parse errors => "\n".intercalate (errors.map (·.report.text))
  | .compile e => e.message
  | .fault f => f.message

/-- Reads and compiles a source. -/
def compileSource (o : Options) (source : String) : Except Error Executable :=
  match parse o.vocabulary source.toList with
  | .error errors => .error (.parse errors)
  | .ok program =>
    match compile o program with
    | .error e => .error (.compile e)
    | .ok x => .ok x

/-- Runs a source and returns what it wrote, with the error that stopped it, if any. -/
def runSource (o : Options) (source : String) : Option Error × String :=
  match compileSource o source with
  | .error e => (some e, "")
  | .ok x =>
    let run := (Machine.start x).execute Sink.collect x ""
    (run.fault.map .fault, run.out)

end Rockstar
