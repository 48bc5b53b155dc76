import Rockstar.Value

/-!
# Vocabulary

The words with a fixed role. Pronouns, determiners and keywords can be extended; the words for
constants and the verbs of output cannot. Case is ignored for the letters A to Z only.
-/

namespace Rockstar

/-- The word with the letters A to Z in lower case. -/
def foldCase (word : String) : String := String.ofList (word.toList.map Char.toLower)

/-- A constant that has a word of its own. -/
inductive ConstantWord where
  | true
  | false
  | null
  | mysterious
  | emptyText
  deriving DecidableEq

/-- The value of the constant. -/
def ConstantWord.value : ConstantWord → Value
  | .true => .boolean Bool.true
  | .false => .boolean Bool.false
  | .null => .null
  | .mysterious => .mysterious
  | .emptyText => .text ""

/-- The verbs of output. All of them write the same. -/
inductive Verb where
  | say
  | shout
  | whisper
  | scream
  deriving DecidableEq

/-- The verb that a word spells. -/
def Verb.ofWord? (word : String) : Option Verb :=
  match foldCase word with
  | "say" => some .say
  | "shout" => some .shout
  | "whisper" => some .whisper
  | "scream" => some .scream
  | _ => none

/-- The words of the language, all in lower case. -/
structure Vocabulary where
  pronouns : List String
  determiners : List String
  keywords : List String
  deriving DecidableEq

namespace Vocabulary

/-- The words that every program may use. -/
def standard : Vocabulary where
  pronouns := ["it", "he", "she", "him", "her", "they", "them", "ze", "hir", "zie", "zir", "xe",
    "xem", "ve", "ver"]
  determiners := ["a", "an", "the", "my", "your", "our"]
  keywords := ["put", "into", "let", "be", "say", "says", "said", "shout", "whisper", "scream",
    "build", "up", "knock", "down", "is", "are", "was", "were", "isn't", "isnt", "ain't", "aint",
    "not", "than", "as", "plus", "with", "minus", "without", "times", "of", "over", "between",
    "and", "or", "nor"]

/-- The constant that a word spells. -/
def constant? (word : String) : Option ConstantWord :=
  let w := foldCase word
  if ["true", "right", "yes", "ok"].contains w then some .true
  else if ["false", "wrong", "no", "lies"].contains w then some .false
  else if ["null", "nothing", "nowhere", "nobody", "gone"].contains w then some .null
  else if w = "mysterious" then some .mysterious
  else if ["empty", "silent", "silence"].contains w then some .emptyText
  else none

/-- A word that stands for the variable named last. -/
def isPronoun (v : Vocabulary) (word : String) : Bool := v.pronouns.contains (foldCase word)

/-- A word that begins a common name. -/
def isDeterminer (v : Vocabulary) (word : String) : Bool := v.determiners.contains (foldCase word)

/-- A word that can neither be nor begin a name. -/
def isKeyword (v : Vocabulary) (word : String) : Bool :=
  v.keywords.contains (foldCase word) || (constant? word).isSome

/-- A word with any role at all. -/
def isReserved (v : Vocabulary) (word : String) : Bool :=
  v.isKeyword word || v.isPronoun word || v.isDeterminer word

/-- The words with one more, and whether it is new. -/
def insertWord (words : List String) (word : String) : List String × Bool :=
  let w := foldCase word
  if words.contains w then (words, false) else (words ++ [w], true)

/-- Adds a pronoun and tells whether it is new. -/
def addPronoun (v : Vocabulary) (word : String) : Vocabulary × Bool :=
  let (words, isNew) := insertWord v.pronouns word
  ({ v with pronouns := words }, isNew)

/-- Adds a determiner and tells whether it is new. -/
def addDeterminer (v : Vocabulary) (word : String) : Vocabulary × Bool :=
  let (words, isNew) := insertWord v.determiners word
  ({ v with determiners := words }, isNew)

/-- Adds a keyword and tells whether it is new. -/
def addKeyword (v : Vocabulary) (word : String) : Vocabulary × Bool :=
  let (words, isNew) := insertWord v.keywords word
  ({ v with keywords := words }, isNew)

end Vocabulary

end Rockstar
