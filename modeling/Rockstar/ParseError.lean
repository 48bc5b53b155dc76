import Rockstar.Line
import Rockstar.Poetic
import Rockstar.Text.Hex
import Rockstar.Token

/-!
# Errors of reading a program

A `ParseError` says what is wrong at which place. Its `Report` is the error in words, which can be
shown together with the line it is about.
-/

namespace Rockstar

/-- The families of errors. -/
inductive ParseErrorKind where
  | expectedToken
  | unexpectedToken
  | unexpectedEndOfLine
  | expectedExpression
  | expectedVariable
  | expectedStatement
  | invalidLiteral
  | scan
  deriving DecidableEq

/-- The heading of the family. -/
def ParseErrorKind.text : ParseErrorKind → String
  | .expectedToken => "expected token"
  | .unexpectedToken => "unexpected token"
  | .unexpectedEndOfLine => "unexpected end of line"
  | .expectedExpression => "expected expression"
  | .expectedVariable => "expected variable"
  | .expectedStatement => "expected statement"
  | .invalidLiteral => "invalid literal"
  | .scan => "lexical error"

/-- An error in words. -/
structure Report where
  kind : ParseErrorKind
  span : Span
  message : String
  deriving DecidableEq

namespace Report

/-- The error on one line. -/
def text (r : Report) : String := s!"{r.kind.text} at {r.span.text}: {r.message}"

end Report

/-- The line as an excerpt shows it, without its line break. A source that ends in a newline has
no line after it. -/
def Line.shown? (l : Line) : Option (List Char) :=
  if l.isLast then if l.text.isEmpty then none else some l.text
  else some (Poetic.dropReturn l.text)

/-- The line with the given number, counted from one, as an excerpt shows it. -/
def Line.excerpt? (source : List Char) (number : Nat) : Option (List Char) :=
  ((Line.split source).filterMap Line.shown?)[number - 1]?

namespace Report

/-- The error with the line it is about, and carets under the place. -/
def withSource (r : Report) (source : List Char) : String :=
  let heading := s!"Error at {r.span.text}: {r.kind.text}\n"
  let message := if r.message = "" then "" else s!"  {r.message}\n"
  let excerpt :=
    match Line.excerpt? source r.span.line with
    | none => ""
    | some line =>
      let number := Text.padLeft 3 ' ' (toString r.span.line)
      let indent := String.ofList (List.replicate r.span.start ' ')
      let carets := String.ofList (List.replicate (max r.span.len 1) '^')
      s!"  |\n{number} | {String.ofList line}\n  | {indent}{carets}\n"
  heading ++ message ++ excerpt

end Report

/-- What is wrong with a line. -/
inductive ParseCause where
  | expectedToken (expected found : String)
  | unexpectedToken (found : String)
  | lineEnded (expected : String)
  | expectedExpression (found : String)
  | expectedVariable (found : String)
  | expectedStatement (found : String)
  | noLiteral (text : String)
  | scan (error : ScanError)
  deriving DecidableEq

namespace ParseCause

/-- The family of the cause. -/
def kind : ParseCause → ParseErrorKind
  | .expectedToken _ _ => .expectedToken
  | .unexpectedToken _ => .unexpectedToken
  | .lineEnded _ => .unexpectedEndOfLine
  | .expectedExpression _ => .expectedExpression
  | .expectedVariable _ => .expectedVariable
  | .expectedStatement _ => .expectedStatement
  | .noLiteral _ => .invalidLiteral
  | .scan _ => .scan

/-- The cause in words. -/
def message : ParseCause → String
  | .expectedToken expected found => s!"expected {expected}, found {found}"
  | .unexpectedToken found => s!"unexpected {found}"
  | .lineEnded expected => s!"line ended, expected {expected}"
  | .expectedExpression found => s!"expected expression, found {found}"
  | .expectedVariable found => s!"expected variable, found {found}"
  | .expectedStatement found => s!"expected a statement, found {found}"
  | .noLiteral text => s!"'{text}' is neither a literal nor a poetic number"
  | .scan error => error.message

end ParseCause

/-- What is wrong, and where. -/
structure ParseError where
  cause : ParseCause
  span : Span
  deriving DecidableEq

namespace ParseError

/-- The error of a fault that the scanner found. -/
def ofScan (e : ScanError) : ParseError := ⟨.scan e, e.span⟩

/-- The error in words. -/
def report (e : ParseError) : Report := ⟨e.cause.kind, e.span, e.cause.message⟩

end ParseError

end Rockstar
