import Rockstar.Proofs.NameShapes

/-!
# Phrases and sentences

A program can be written down from its syntax tree. A `Phrase` is an expression together with the
spelling of its literals and names, a `Sentence` a statement; `print` writes them down, and `expr`
and `statement` are the syntax trees they stand for, without places. There are no parentheses, so
not every tree can be written down: operators have to group by their levels
(`Phrase.WellFormed`).

Reading goes from left to right, through the first operand of a phrase (`Phrase.seed`) and the
operators and operands behind it (`Phrase.steps`). Attaching them one after the other gives the
tree of the phrase again (`Phrase.foldl_attach`).
-/

namespace Rockstar

/-! ## Trees without places -/

/-- The span of what has no place. -/
def Span.nowhere : Span := ⟨0, 0, 0⟩

/-- The expression without its places. -/
def Expr.unplaced (e : Expr) : Expr := e.mapSpan fun _ => .nowhere

/-- The statement without its places. -/
def Statement.unplaced (stmt : Statement) : Statement := stmt.mapSpan fun _ => .nowhere

theorem Expr.unplaced_shift (k : Nat) (e : Expr) : (e.shift k).unplaced = e.unplaced := by
  induction e with
  | literal v s => rfl
  | poetic x text s => rfl
  | «variable» v => rfl
  | binary op l r ihl ihr =>
    show Expr.binary op (l.shift k).unplaced (r.shift k).unplaced = _
    rw [ihl, ihr]
    rfl
  | negation word e ih =>
    show Expr.negation .nowhere (e.shift k).unplaced = _
    rw [ih]
    rfl

/-- Where a statement stands does not matter without places. -/
theorem Statement.unplaced_shift (k : Nat) (stmt : Statement) :
    (stmt.shift k).unplaced = stmt.unplaced := by
  cases stmt with
  | assign target value span =>
    show Statement.assign _ (value.shift k).unplaced _ = _
    rw [Expr.unplaced_shift]
    rfl
  | output verb value span =>
    show Statement.output _ (value.shift k).unplaced _ = _
    rw [Expr.unplaced_shift]
    rfl
  | step direction target count span => rfl

/-! ## Spelling -/

/-- A word that is read as one: it does not end like a contraction. -/
def IsPlainWord (word : String) : Prop :=
  IsWord word.toList ∧ ¬['\'', 's'] <:+ word.toList ∧ ¬['\'', 'S'] <:+ word.toList

instance (word : String) : Decidable (IsPlainWord word) :=
  inferInstanceAs (Decidable (_ ∧ _ ∧ _))

/-- A whole number, or digits on both sides of a point. -/
def IsNumeral (numeral : String) : Prop :=
  ∃ whole : List Char, whole ≠ [] ∧ (∀ d ∈ whole, isDigit d = true) ∧
    (numeral.toList = whole ∨ ∃ fraction : List Char, fraction ≠ [] ∧
      (∀ d ∈ fraction, isDigit d = true) ∧ numeral.toList = whole ++ '.' :: fraction)

/-- Whether the word begins with a capital. -/
def isCapitalised (word : String) : Bool := word.toList.head?.any Text.isCapital

/-- The words that can be a reference: a pronoun, a determiner and a word without a role, one or
more capitalised words without a role, or one other word without a role. -/
inductive Vocabulary.Names (v : Vocabulary) : List String → Prop where
  | pronoun {word : String} : v.isKeyword word = false → v.isPronoun word = true →
      v.Names [word]
  | common {determiner word : String} : v.isKeyword determiner = false →
      v.isPronoun determiner = false → v.isDeterminer determiner = true →
      v.isReserved word = false → v.Names [determiner, word]
  | proper {words : List String} : words ≠ [] →
      (∀ word ∈ words, isCapitalised word = true ∧ v.isReserved word = false) → v.Names words
  | simple {word : String} : isCapitalised word = false → v.isReserved word = false →
      v.Names [word]

theorem Vocabulary.Names.ne_nil {v : Vocabulary} {words : List String} (h : v.Names words) :
    words ≠ [] := by
  cases h with
  | proper hne _ => exact hne
  | _ => simp

theorem Vocabulary.Names.isKeyword_eq_false {v : Vocabulary} {word : String} {words : List String}
    (h : v.Names (word :: words)) : v.isKeyword word = false := by
  cases h with
  | pronoun hkeyword _ => exact hkeyword
  | common hkeyword _ _ _ => exact hkeyword
  | proper _ hall => exact (Vocabulary.isReserved_eq_false.mp (hall word (by simp)).2).1
  | simple _ hreserved => exact (Vocabulary.isReserved_eq_false.mp hreserved).1

/-- A reference that can be written down. -/
def Vocabulary.Spells (v : Vocabulary) (words : List String) : Prop :=
  v.Names words ∧ ∀ word ∈ words, IsPlainWord word

/-- An expression with the spelling of its literals and names. -/
inductive Phrase where
  | number (numeral : String)
  | text (body : String)
  | constant (word : String) (value : ConstantWord)
  | name (words : List String)
  | binary (op : BinaryOp) (left right : Phrase)
  | negation (operand : Phrase)
  deriving DecidableEq

namespace Phrase

/-- The phrase in words. -/
def print : Phrase → String
  | .number numeral => numeral
  | .text body => "\"" ++ body ++ "\""
  | .constant word _ => word
  | .name words => " ".intercalate words
  | .binary op l r => l.print ++ " " ++ op.text ++ " " ++ r.print
  | .negation p => negationText ++ " " ++ p.print

/-- The expression that the phrase spells. -/
def expr : Phrase → Expr
  | .number numeral => .literal (.number (Decimal.readText numeral.toList)) .nowhere
  | .text body => .literal (.text body) .nowhere
  | .constant _ value => .literal value.value .nowhere
  | .name words => .variable ⟨" ".intercalate words, .nowhere⟩
  | .binary op l r => .binary op l.expr r.expr
  | .negation p => .negation .nowhere p.expr

/-- The operator of a phrase that has two operands. -/
def root? : Phrase → Option BinaryOp
  | .binary op _ _ => some op
  | _ => none

/-- The first operand of the phrase. -/
def seed : Phrase → Phrase
  | .binary _ l _ => l.seed
  | p => p

/-- The operators of the phrase behind its first operand, each with the operand that follows. -/
def steps : Phrase → List (BinaryOp × Phrase)
  | .binary op l r => l.steps ++ (op, r.seed) :: r.steps
  | _ => []

/-- Whether the phrase begins with a negation. -/
def isNegated (p : Phrase) : Bool :=
  match p.seed with
  | .negation _ => true
  | _ => false

/-- The phrase can be written down and read again. Its operators group by their levels and to the
left, and a negation takes a single operand. Behind "is" there is no "not", for the two together
spell another operator. -/
def WellFormed (v : Vocabulary) : Phrase → Prop
  | .number numeral => IsNumeral numeral
  | .text body => '"' ∉ body.toList ∧ '\n' ∉ body.toList
  | .constant word value => Vocabulary.constant? word = some value
  | .name words => v.Spells words
  | .binary op l r => l.WellFormed v ∧ r.WellFormed v ∧
      (∀ op', l.root? = some op' → op.level ≤ op'.level) ∧
      (∀ op', r.root? = some op' → op.level < op'.level) ∧
      (op = .equality true → r.isNegated = false)
  | .negation p => p.WellFormed v ∧ p.root? = none

end Phrase

/-- A statement with the spelling of its parts. -/
inductive Sentence where
  | put (value : Phrase) (target : List String)
  | letBe (target : List String) (value : Phrase)
  | output (verb : Verb) (value : Phrase)
  | step (direction : Direction) (target : List String) (count : Nat)
  deriving DecidableEq

/-- The verb at the beginning of a line. -/
def Verb.print : Verb → String
  | .say => "Say"
  | .shout => "Shout"
  | .whisper => "Whisper"
  | .scream => "Scream"

/-- The verb of a step. -/
def Direction.verb : Direction → String
  | .up => "Build"
  | .down => "Knock"

namespace Sentence

/-- The sentence in words. -/
def print : Sentence → String
  | .put value target => "Put " ++ value.print ++ " into " ++ " ".intercalate target
  | .letBe target value => "Let " ++ " ".intercalate target ++ " be " ++ value.print
  | .output verb value => verb.print ++ " " ++ value.print
  | .step direction target count =>
    direction.verb ++ " " ++ " ".intercalate target ++ " " ++
      ", ".intercalate (List.replicate count direction.word)

/-- The statement that the sentence spells. -/
def statement : Sentence → Statement
  | .put value target => .assign ⟨" ".intercalate target, .nowhere⟩ value.expr .nowhere
  | .letBe target value => .assign ⟨" ".intercalate target, .nowhere⟩ value.expr .nowhere
  | .output verb value => .output verb value.expr .nowhere
  | .step direction target count =>
    .step direction ⟨" ".intercalate target, .nowhere⟩ count .nowhere

/-- The sentence can be written down and read again. -/
def WellFormed (v : Vocabulary) : Sentence → Prop
  | .put value target => value.WellFormed v ∧ v.Spells target
  | .letBe target value => v.Spells target ∧ value.WellFormed v
  | .output _ value => value.WellFormed v
  | .step _ target count => v.Spells target ∧ 1 ≤ count

end Sentence

/-- The sentences, each on a line of its own. -/
def printLines (sentences : List Sentence) : String :=
  "\n".intercalate (sentences.map Sentence.print)

/-! ## Operators group by their levels -/

/-- An operator that binds more tightly than the one before it goes to the operand of that one. -/
theorem Expr.attach_attach {op op' : BinaryOp} (h : op.level < op'.level) (tree right last : Expr) :
    (tree.attach op right).attach op' last = tree.attach op (right.attach op' last) := by
  induction tree with
  | binary op'' l r _ ihr =>
    by_cases hlevel : op''.level < op.level
    · have hlevel' : op''.level < op'.level := Nat.lt_trans hlevel h
      simp only [attach, if_pos hlevel, if_pos hlevel', ihr]
    · simp only [attach, if_neg hlevel, if_pos h]
  | _ => simp only [attach, if_pos h]

theorem Expr.foldl_attach_attach {op : BinaryOp} {steps : List (BinaryOp × Expr)}
    (h : ∀ step ∈ steps, op.level < step.1.level) (tree right : Expr) :
    steps.foldl (fun e step => e.attach step.1 step.2) (tree.attach op right) =
      tree.attach op (steps.foldl (fun e step => e.attach step.1 step.2) right) := by
  induction steps generalizing right with
  | nil => rfl
  | cons step steps ih =>
    rw [List.foldl_cons, List.foldl_cons, attach_attach (h step (by simp)),
      ih fun step' hmem => h step' (by simp [hmem])]

namespace Phrase

variable {v : Vocabulary} {p : Phrase}

theorem steps_of_root? (h : p.root? = none) : p.steps = [] := by
  cases p with
  | binary op l r => cases h
  | _ => rfl

/-- No operator of a phrase binds less tightly than the one at its root. -/
theorem level_le_of_mem_steps (h : p.WellFormed v) {op : BinaryOp} (hroot : p.root? = some op) :
    ∀ step ∈ p.steps, op.level ≤ step.1.level := by
  induction p generalizing op with
  | binary op' l r ihl ihr =>
    obtain rfl : op' = op := by simpa [root?] using hroot
    obtain ⟨hl, hr, hleft, hright, -⟩ := h
    intro step hstep
    simp only [steps, List.mem_append, List.mem_cons] at hstep
    rcases hstep with hmem | rfl | hmem
    · cases hrootl : l.root? with
      | none => simp [steps_of_root? hrootl] at hmem
      | some op => exact Nat.le_trans (hleft op hrootl) (ihl hl hrootl step hmem)
    · exact Nat.le_refl _
    · cases hrootr : r.root? with
      | none => simp [steps_of_root? hrootr] at hmem
      | some op =>
        exact Nat.le_trans (Nat.le_of_lt (hright op hrootr)) (ihr hr hrootr step hmem)
  | _ => cases hroot

/-- The right operand of an operator has tighter operators only. -/
theorem level_lt_of_mem_steps (h : p.WellFormed v) {op : BinaryOp}
    (hroot : ∀ op', p.root? = some op' → op.level < op'.level) :
    ∀ step ∈ p.steps, op.level < step.1.level := by
  intro step hstep
  cases hp : p.root? with
  | none => simp [steps_of_root? hp] at hstep
  | some op' => exact Nat.lt_of_lt_of_le (hroot op' hp) (level_le_of_mem_steps h hp step hstep)

theorem attach_expr {op : BinaryOp} (h : ∀ op', p.root? = some op' → op.level ≤ op'.level)
    (right : Expr) : p.expr.attach op right = .binary op p.expr right := by
  cases p with
  | binary op' l r =>
    have hlevel : ¬op'.level < op.level := Nat.not_lt.mpr (h op' rfl)
    simp only [expr, Expr.attach, if_neg hlevel]
  | _ => rfl

/-- Attaching the operators and operands of a phrase in their order gives its tree. -/
theorem foldl_attach (h : p.WellFormed v) :
    (p.steps.map fun step => (step.1, step.2.expr)).foldl
      (fun e step => e.attach step.1 step.2) p.seed.expr = p.expr := by
  induction p with
  | binary op l r ihl ihr =>
    obtain ⟨hl, hr, hleft, hright, -⟩ := h
    have hsteps : ∀ step ∈ r.steps.map fun step => (step.1, step.2.expr),
        op.level < step.1.level := by
      intro step hstep
      obtain ⟨step', hmem, rfl⟩ := List.mem_map.mp hstep
      exact level_lt_of_mem_steps hr hright step' hmem
    rw [steps, seed, List.map_append, List.foldl_append, ihl hl, List.map_cons, List.foldl_cons,
      Expr.foldl_attach_attach hsteps, ihr hr, attach_expr hleft]
    rfl
  | _ => rfl

/-! The operands of a phrase are phrases of their own, without operators. -/

theorem root?_seed (p : Phrase) : p.seed.root? = none := by
  induction p with
  | binary op l r ihl _ => exact ihl
  | _ => rfl

theorem seed_seed (p : Phrase) : p.seed.seed = p.seed := by
  induction p with
  | binary op l r ihl _ => exact ihl
  | _ => rfl

theorem WellFormed.seed (h : p.WellFormed v) : p.seed.WellFormed v := by
  induction p with
  | binary op l r ihl _ => exact ihl h.1
  | _ => exact h

/-- The operands behind the first one can be read as operands. -/
theorem WellFormed.of_mem_steps (h : p.WellFormed v) :
    ∀ step ∈ p.steps, step.2.WellFormed v ∧ step.2.root? = none ∧
      (step.1 = .equality true → step.2.isNegated = false) := by
  induction p with
  | binary op l r ihl ihr =>
    obtain ⟨hl, hr, -, -, hnot⟩ := h
    intro step hstep
    simp only [steps, List.mem_append, List.mem_cons] at hstep
    rcases hstep with hmem | rfl | hmem
    · exact ihl hl step hmem
    · refine ⟨hr.seed, root?_seed r, fun heq => ?_⟩
      have hnegated := hnot heq
      unfold isNegated at hnegated ⊢
      rwa [seed_seed]
    · exact ihr hr step hmem
  | _ => simp [steps]

end Phrase

end Rockstar
