import Rockstar.Assembler
import Rockstar.Code
import Rockstar.Compile
import Rockstar.CompileError
import Rockstar.Constant
import Rockstar.Decimal.Shortest
import Rockstar.Decimal.Text
import Rockstar.Digest
import Rockstar.Expr
import Rockstar.Expr.Parse
import Rockstar.Fault
import Rockstar.Instr
import Rockstar.Kind
import Rockstar.Line
import Rockstar.Listing
import Rockstar.Machine
import Rockstar.Name
import Rockstar.Opcode
import Rockstar.Operator
import Rockstar.ParseError
import Rockstar.Plan
import Rockstar.Poetic
import Rockstar.Program
import Rockstar.Proofs.Assembly
import Rockstar.Proofs.Comments
import Rockstar.Proofs.Correctness
import Rockstar.Proofs.Emission
import Rockstar.Proofs.Evaluation
import Rockstar.Proofs.Execution
import Rockstar.Proofs.Lexemes
import Rockstar.Proofs.LineByLine
import Rockstar.Proofs.Lockstep
import Rockstar.Proofs.NameShapes
import Rockstar.Proofs.Overwriting
import Rockstar.Proofs.Phrases
import Rockstar.Proofs.PlainNumber
import Rockstar.Proofs.Reading
import Rockstar.Proofs.Referents
import Rockstar.Proofs.Refusal
import Rockstar.Proofs.Registry
import Rockstar.Proofs.Rejection
import Rockstar.Proofs.Rereading
import Rockstar.Proofs.Retexting
import Rockstar.Proofs.RoundTrip
import Rockstar.Proofs.Run
import Rockstar.Proofs.Safety
import Rockstar.Proofs.Session
import Rockstar.Proofs.Shifting
import Rockstar.Proofs.Simulation
import Rockstar.Proofs.SourceOrder
import Rockstar.Proofs.SpelledExpressions
import Rockstar.Proofs.Spelling
import Rockstar.Proofs.Uncommented
import Rockstar.Proofs.Wording
import Rockstar.Registry
import Rockstar.Routine
import Rockstar.Session
import Rockstar.Sink
import Rockstar.Slot
import Rockstar.Span
import Rockstar.Statement
import Rockstar.Statement.Parse
import Rockstar.Stream
import Rockstar.Stream.Parse
import Rockstar.Stream.Scan
import Rockstar.Text.Bytes
import Rockstar.Text.Capital
import Rockstar.Text.Hex
import Rockstar.Text.Hidden
import Rockstar.Text.Letter
import Rockstar.Text.Lower
import Rockstar.Text.Quoted
import Rockstar.Text.Run
import Rockstar.Text.Space
import Rockstar.Token
import Rockstar.Token.Scan
import Rockstar.Value
import Rockstar.Vocabulary
import Rockstar.Proofs.Decoding
import Rockstar.Proofs.DefiniteAssignment
import Rockstar.Proofs.Likeness
import Rockstar.Proofs.LineEndings
import Rockstar.Proofs.Options
import Rockstar.Proofs.NewWords
import Rockstar.Proofs.Resumption
import Rockstar.Proofs.ClosedCode
import Rockstar.Proofs.Beginnings
import Rockstar.Proofs.Precedence
import Rockstar.Proofs.StackKinds
import Rockstar.Proofs.CanonicalNames
import Rockstar.Proofs.Allocation
import Rockstar.Proofs.SlotCreation
import Rockstar.Proofs.FieldNames
import Rockstar.Proofs.ConstantPool
import Rockstar.Proofs.PoeticDigits
import Rockstar.Proofs.Verbatim
import Rockstar.Proofs.Partition
import Rockstar.Proofs.SpanText
import Rockstar.Proofs.Faults
import Rockstar.Proofs.ErrorOrder
import Rockstar.Proofs.RefusedLines
import Rockstar.Proofs.OneLine
import Rockstar.Proofs.OutputLines
import Rockstar.Proofs.Carets
import Rockstar.Proofs.FaultPlaces
import Rockstar.Proofs.StreamReading
import Rockstar.Proofs.StreamScanning
import Rockstar.Proofs.StreamLines
