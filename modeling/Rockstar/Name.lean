import Rockstar.CompileError
import Rockstar.Expr
import Rockstar.Text.Capital
import Rockstar.Text.Letter
import Rockstar.Text.Lower
import Rockstar.Text.Space
import Rockstar.Vocabulary

/-!
# Names

One variable can be written in many ways. Every spelling of a name has one canonical form, its
words in lower case with single spaces between them, and variables with the same canonical name are
the same. A pronoun has no name of its own: it refers to the variable that was named last.
-/

namespace Rockstar

/-- The shapes of a reference. -/
inductive NameShape where
  | simple
  | common
  | proper
  | pronoun
  deriving DecidableEq

/-- The variable that a reference stands for. -/
structure Identity where
  name : String
  shape : NameShape
  deriving DecidableEq

namespace Identity

/-- Two references stand for the same variable when their names agree; the shape does not
matter. -/
def same (a b : Identity) : Bool := a.name == b.name

/-- The variable that later pronouns refer to, where `last` is the one named before. A pronoun
leaves it as it was. -/
def named (i : Identity) (last : Option Identity) : Option Identity :=
  if i.shape = .pronoun then last else some i

end Identity

namespace Name

/-- Whether the word consists of letters only and is not empty. -/
def isLetters (word : List Char) : Bool := !word.isEmpty && word.all Text.isLetter

/-- A word of a proper name. -/
def isProperWord (v : Vocabulary) (word : List Char) : Bool :=
  word.head?.any Text.isCapital && isLetters word && !v.isReserved (String.ofList word)

/-- The words of a reference. -/
def words (text : String) : List (List Char) := Text.words text.toList

/-- The shape of a list of words, if they make up a reference. -/
def shapeOfWords? (v : Vocabulary) (ws : List (List Char)) : Option NameShape :=
  match ws with
  | [] => none
  | [word] =>
    if v.isPronoun (String.ofList word) then some .pronoun
    else if isLetters word && !v.isReserved (String.ofList word) then some .simple
    else none
  | first :: second :: rest =>
    if rest.isEmpty && v.isDeterminer (String.ofList first) && isLetters second then some .common
    else if ws.all (isProperWord v) then some .proper
    else none

/-- The shape of a reference, if the text is one. -/
def shape? (v : Vocabulary) (text : String) : Option NameShape := shapeOfWords? v (words text)

/-- The words in lower case, with single spaces between them. -/
def canonical (text : String) : String :=
  " ".intercalate ((words text).map fun w => String.ofList (Text.lower w))

/-- The variable that a reference stands for, where `last` is the variable named last. -/
def identify (v : Vocabulary) (last : Option Identity) (ref : Variable) :
    Except CompileError Identity :=
  match shape? v ref.text with
  | none => .error (.malformedName ref.text ref.span)
  | some .pronoun =>
    match last with
    | some i => .ok ⟨i.name, .pronoun⟩
    | none => .error (.unresolvedPronoun ref.text ref.span)
  | some shape => .ok ⟨canonical ref.text, shape⟩

end Name

end Rockstar
