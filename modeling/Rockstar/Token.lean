import Rockstar.Span

/-!
# Tokens

The words, literals and symbols of a line. A stretch of the line that is none of them becomes a
token of kind `fault`, so that nothing of the line is lost and the parser can decide whether the
fault matters: inside the text of a poetic literal it does not.
-/

namespace Rockstar

/-- A stretch of a line that is no token. -/
inductive ScanError where
  | unexpectedChar (char : Char) (span : Span)
  | unterminatedString (span : Span)
  | unterminatedComment (span : Span)
  deriving DecidableEq

namespace ScanError

/-- Where the stretch begins. -/
def span : ScanError → Span
  | .unexpectedChar _ s => s
  | .unterminatedString s => s
  | .unterminatedComment s => s

/-- The error in words. -/
def message : ScanError → String
  | .unexpectedChar c s => s!"unexpected character '{c}' at {s.text}"
  | .unterminatedString s => s!"unterminated string at {s.text}"
  | .unterminatedComment s => s!"unterminated comment at {s.text}"

end ScanError

/-- What a token is. -/
inductive TokenKind where
  | word
  | number
  | string
  | plus
  | minus
  | star
  | slash
  | comma
  /-- A period, exclamation or question mark, semicolon or colon. -/
  | mark
  | fault (error : ScanError)
  | newline
  | endOfSource
  deriving DecidableEq

namespace TokenKind

/-- Punctuation that may follow a complete statement. -/
def isTrailing : TokenKind → Bool
  | .mark | .comma => true
  | _ => false

/-- The two tokens that end a line. -/
def endsLine : TokenKind → Bool
  | .newline | .endOfSource => true
  | _ => false

end TokenKind

/-- A token and where it stands. -/
structure Token where
  kind : TokenKind
  /-- The text of the token; a string's without its quotes, a fault's is empty. -/
  lexeme : String
  span : Span
  /-- Bytes of the source before the token. -/
  offset : Nat
  /-- The rest of the line from the token's first character on. -/
  onward : List Char
  /-- The rest of the line behind the token. -/
  behind : List Char
  deriving DecidableEq

namespace Token

/-- Bytes of the source up to the end of the token. -/
def endOffset (t : Token) : Nat := t.offset + t.span.len

/-- The token as error messages name it. -/
def describe (t : Token) : String :=
  match t.kind with
  | .newline => "end of line"
  | .endOfSource => "end of file"
  | _ => s!"'{t.lexeme}'"

/-- The error of a fault. -/
def fault? (t : Token) : Option ScanError :=
  match t.kind with
  | .fault e => some e
  | _ => none

end Token

end Rockstar
