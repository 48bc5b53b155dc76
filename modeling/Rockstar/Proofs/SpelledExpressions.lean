import Rockstar.Proofs.Lexemes

/-!
# Reading spelled expressions

The readers of names, operands, operators and expressions over the tokens of the lexemes they take.
A name ends where a word follows that cannot belong to it (`Closed`), and the word "is" is told
apart from longer operators by the operand behind it (`comparison?_operand`). The operators and
operands of a phrase are attached one after the other, which gives the expression that the phrase
spells (`Reader.expr_layOut`).
-/

namespace Rockstar

/-! ## Names -/

/-- Where the last of some lexemes ends, or the token before them if there are none. -/
theorem endCol_layOut (xs ys : List Lexeme) {place : Place} {t : Token}
    (h : t.span.endCol = place.col) :
    (((layOut place (xs ++ ys)).take xs.length).getLast?.getD t).span.endCol =
      (place.past xs).col := by
  induction xs generalizing place t with
  | nil => exact h
  | cons x xs ih =>
    rw [List.cons_append, layOut_cons, List.length_cons, List.take_succ_cons, List.getLast?_cons,
      Option.getD_some, Place.past_cons place x xs]
    refine ih ?_
    show place.col + Text.byteSize x.gap + Text.byteSize x.chars = _
    simp [Place.past, Place.advance, spaced, Nat.add_assoc]

/-- A reference from the first of some words to the last one has all of them as its text. -/
theorem text_reference (place : Place) (word : String) (words : List String) (ys : List Lexeme)
    {t : Token}
    (ht : (Lexeme.word word).token (place.advance 1) (spaced (words.map .word ++ ys)) = t) :
    (Reader.reference t (((layOut (place.past [.word word])
      (words.map .word ++ ys)).take words.length).getLast?.getD t)).text =
      " ".intercalate (word :: words) := by
  have hspace : Text.byteSize [' '] = 1 := rfl
  have hspaced : spaced ((word :: words).map .word) =
      ' ' :: (" ".intercalate (word :: words)).toList := spaced_words (by simp)
  -- the text begins at the first word, and ends where the last one does
  have honward : t.onward = (" ".intercalate (word :: words)).toList ++ spaced ys := by
    rw [List.map_cons, spaced_cons] at hspaced
    rw [← (List.cons.inj hspaced).2, ← ht, spaced_append]
    exact (List.append_assoc _ _ _).symm
  have hcol : t.span.col = place.col + 1 := by
    rw [← ht]
    rfl
  have hend : t.span.endCol = (place.past [.word word]).col := by
    rw [← ht]
    show place.col + 1 + Text.byteSize word.toList = place.col + Text.byteSize (spaced [.word word])
    rw [spaced, List.flatMap_singleton, Text.byteSize_append, ← hspace, Nat.add_assoc]
    rfl
  have hlast := endCol_layOut (words.map Lexeme.word) ys hend
  rw [List.length_map, ← Place.past_cons, ← List.map_cons,
    show place.past ((word :: words).map .word) = place.advance _ from rfl, hspaced] at hlast
  have hsize :
      (place.advance (Text.byteSize (' ' :: (" ".intercalate (word :: words)).toList))).col -
        (place.col + 1) = Text.byteSize (" ".intercalate (word :: words)).toList := by
    show place.col + (1 + _) - (place.col + 1) = _
    omega
  unfold Reader.reference
  dsimp only
  rw [hlast, hcol, hsize, honward, Text.takeBytes_byteSize_append, String.ofList_toList]

/-- The words that stand behind a name or operand. -/
def closers : List String :=
  ["into", "be", "up", "down", "or", "nor", "and", "is", "ain't", "plus", "minus", "times", "over"]

/-- Nothing follows, or a word that cannot belong to what stands before it. -/
def Closed (ys : List Lexeme) : Prop := ∀ y ∈ ys.head?, ∃ word ∈ closers, y = .word word

theorem Vocabulary.Extended.isKeyword_of_closer {v : Vocabulary} (hv : v.Extended) {word : String}
    (h : word ∈ closers) : v.isKeyword word = true := by
  have hstandard : ∀ word ∈ closers, Vocabulary.standard.isKeyword word = true := by decide
  exact hv.isKeyword (hstandard word h)

namespace Reader

variable {r : Reader} {ys : List Lexeme}

theorem takeWhile_layOut (hv : r.vocabulary.Extended) (hys : Closed ys) {words : List String}
    (h : ∀ word ∈ words, isCapitalised word = true ∧ r.vocabulary.isReserved word = false)
    (place : Place) :
    (layOut place (words.map .word ++ ys)).takeWhile
        (fun t => t.isCapitalised && r.continuesName t) =
      (layOut place (words.map .word ++ ys)).take words.length := by
  induction words generalizing place with
  | nil =>
    cases ys with
    | nil => rfl
    | cons y ys =>
      obtain ⟨word, hword, rfl⟩ := hys _ rfl
      have hkeyword := hv.isKeyword_of_closer hword
      have hcontinues : ∀ place behind,
          r.continuesName ((Lexeme.word word).token place behind) = false := by
        intro place behind
        simp [continuesName, Lexeme.token, Lexeme.kind, Lexeme.text, Vocabulary.isReserved,
          hkeyword]
      rw [List.map_nil, List.nil_append, layOut_cons]
      simp [hcontinues]
  | cons word words ih =>
    obtain ⟨hcapital, hreserved⟩ := h word (by simp)
    have hcontinues : ∀ place behind,
        r.continuesName ((Lexeme.word word).token place behind) = true :=
      fun place behind => continuesName_iff.mpr ⟨rfl, hreserved⟩
    rw [List.map_cons, List.cons_append, layOut_cons, List.takeWhile_cons_of_pos, List.length_cons,
      List.take_succ_cons, ih fun word' hmem => h word' (by simp [hmem])]
    rw [Lexeme.isCapitalised_token, hcapital, hcontinues]
    rfl

section Step

variable {t u : Token} {rest : List Token} (hkind : t.kind = .word)

include hkind

theorem variableRef_pronoun (hkeyword : r.vocabulary.isKeyword t.lexeme = false)
    (hpronoun : r.vocabulary.isPronoun t.lexeme = true) :
    r.variableRef (t :: rest) = .ok (reference t t, rest) := by
  simp [variableRef, hkind, hkeyword, hpronoun]

theorem variableRef_common (hkeyword : r.vocabulary.isKeyword t.lexeme = false)
    (hpronoun : r.vocabulary.isPronoun t.lexeme = false)
    (hdeterminer : r.vocabulary.isDeterminer t.lexeme = true) (hnext : r.continuesName u = true) :
    r.variableRef (t :: u :: rest) = .ok (reference t u, rest) := by
  simp [variableRef, hkind, hkeyword, hpronoun, hdeterminer, hnext]

theorem variableRef_proper (hreserved : r.vocabulary.isReserved t.lexeme = false)
    (hcapital : t.isCapitalised = true) {more : List Token}
    (hmore : rest.takeWhile (fun u => u.isCapitalised && r.continuesName u) = more) :
    r.variableRef (t :: rest) =
      .ok (reference t (more.getLast?.getD t), rest.drop more.length) := by
  obtain ⟨hkeyword, hpronoun, hdeterminer⟩ := Vocabulary.isReserved_eq_false.mp hreserved
  simp [variableRef, hkind, hkeyword, hpronoun, hdeterminer, hcapital, hmore]

theorem variableRef_simple (hreserved : r.vocabulary.isReserved t.lexeme = false)
    (hcapital : t.isCapitalised = false) :
    r.variableRef (t :: rest) = .ok (reference t t, rest) := by
  obtain ⟨hkeyword, hpronoun, hdeterminer⟩ := Vocabulary.isReserved_eq_false.mp hreserved
  simp [variableRef, hkind, hkeyword, hpronoun, hdeterminer, hcapital]

end Step

/-- A name is read from its words, and nothing that follows is taken. -/
theorem variableRef_layOut (hv : r.vocabulary.Extended) {words : List String}
    (h : r.vocabulary.Names words) (hys : Closed ys) (place : Place) :
    ∃ span, r.variableRef (layOut place (words.map .word ++ ys)) =
      .ok (⟨" ".intercalate words, span⟩, layOut (place.past (words.map .word)) ys) := by
  obtain ⟨word, words, rfl⟩ := List.exists_cons_of_ne_nil h.ne_nil
  generalize ht : (Lexeme.word word).token (place.advance 1) (spaced (words.map .word ++ ys)) = t
  have hkind : t.kind = .word := by
    rw [← ht]
    rfl
  have hlexeme : t.lexeme = word := by
    rw [← ht]
    rfl
  have hcapital : t.isCapitalised = isCapitalised word := by
    rw [← ht, Lexeme.isCapitalised_token]
  have htokens : layOut place ((word :: words).map .word ++ ys) =
      t :: layOut (place.past [.word word]) (words.map .word ++ ys) := by
    rw [← ht]
    rfl
  -- in each shape the reference reaches from the first word to the last one
  suffices hread : r.variableRef (t :: layOut (place.past [.word word]) (words.map .word ++ ys)) =
      .ok (reference t (((layOut (place.past [.word word])
        (words.map .word ++ ys)).take words.length).getLast?.getD t),
          (layOut (place.past [.word word]) (words.map .word ++ ys)).drop words.length) by
    have hdrop := drop_layOut (place.past [.word word]) (words.map Lexeme.word) ys
    rw [List.length_map, ← Place.past_cons, ← List.map_cons] at hdrop
    rw [htokens, hread, hdrop, ← text_reference place word words ys ht]
    exact ⟨_, rfl⟩
  cases h with
  | pronoun hkeyword hpronoun =>
    exact variableRef_pronoun hkind (hlexeme ▸ hkeyword) (hlexeme ▸ hpronoun)
  | common hkeyword hpronoun hdeterminer hreserved =>
    refine variableRef_common hkind (hlexeme ▸ hkeyword) (hlexeme ▸ hpronoun)
      (hlexeme ▸ hdeterminer) ?_
    exact continuesName_iff.mpr ⟨rfl, hreserved⟩
  | proper _ hall =>
    obtain ⟨hcapital', hreserved⟩ := hall word (by simp)
    have hrest : ∀ word' ∈ words,
        isCapitalised word' = true ∧ r.vocabulary.isReserved word' = false :=
      fun word' hmem => hall word' (List.mem_cons_of_mem _ hmem)
    have hmore := takeWhile_layOut hv hys hrest (place.past [.word word])
    have hlength : words.length ≤
        (layOut (place.past [.word word]) (words.map .word ++ ys)).length := by
      simp [length_layOut]
    rw [variableRef_proper hkind (hlexeme ▸ hreserved) (hcapital.trans hcapital') hmore,
      List.length_take_of_le hlength]
  | simple hcapital' hreserved =>
    exact variableRef_simple hkind (hlexeme ▸ hreserved) (hcapital.trans hcapital')

/-! ## Operands -/

theorem operand_literal {t : Token} {rest : List Token} {value : Value}
    (h : t.literal? = some value) : r.operand (t :: rest) = .ok (.literal value t.span, rest) := by
  rw [operand, h]

theorem operand_negation {t : Token} {rest rest' : List Token} {e : Expr}
    (hliteral : t.literal? = none) (hnot : t.isWord "not" = true)
    (h : r.operand rest = .ok (e, rest')) :
    r.operand (t :: rest) = .ok (.negation t.span e, rest') := by
  rw [operand, hliteral]
  dsimp only
  rw [if_pos hnot, h]

theorem operand_name {t : Token} {rest rest' : List Token} {ref : Variable}
    (hliteral : t.literal? = none) (hnot : t.isWord "not" = false)
    (hkind : t.kind = .word) (hkeyword : r.vocabulary.isKeyword t.lexeme = false)
    (h : r.variableRef (t :: rest) = .ok (ref, rest')) :
    r.operand (t :: rest) = .ok (.variable ref, rest') := by
  rw [operand, hliteral]
  dsimp only
  rw [hnot, if_neg Bool.false_ne_true, if_pos (by simp [hkind, hkeyword]), h]

/-- An operand is read from its lexemes as the expression it spells. -/
theorem operand_layOut (hv : r.vocabulary.Extended) {p : Phrase} (h : p.WellFormed r.vocabulary)
    (hroot : p.root? = none) (hys : Closed ys) (place : Place) :
    ∃ e, r.operand (layOut place (p.lexemes ++ ys)) =
        .ok (e, layOut (place.past p.lexemes) ys) ∧ e.unplaced = p.expr := by
  induction p generalizing place with
  | number numeral => exact ⟨_, operand_literal rfl, rfl⟩
  | text body => exact ⟨_, operand_literal rfl, rfl⟩
  | constant word value =>
    refine ⟨_, operand_literal ?_, rfl⟩
    show (Vocabulary.constant? word).map ConstantWord.value = _
    rw [h]
    rfl
  | name words =>
    obtain ⟨word, words, rfl⟩ := List.exists_cons_of_ne_nil h.1.ne_nil
    have hkeyword := h.1.isKeyword_eq_false
    obtain ⟨span, href⟩ := variableRef_layOut hv h.1 hys place
    refine ⟨_, operand_name ?_ ?_ rfl hkeyword href, rfl⟩
    · show (Vocabulary.constant? word).map ConstantWord.value = none
      rw [Vocabulary.constant?_eq_none hkeyword]
      rfl
    · exact Lexeme.isWord_of_ne (hv.foldCase_ne hkeyword (by decide)) _ _
  | binary op l r _ _ => cases hroot
  | negation p ih =>
    obtain ⟨e, hread, he⟩ := ih h.1 h.2 (place.past [.word negationText])
    have htokens : layOut place ((Phrase.negation p).lexemes ++ ys) =
        (Lexeme.word negationText).token (place.advance 1) (spaced (p.lexemes ++ ys)) ::
          layOut (place.past [.word negationText]) (p.lexemes ++ ys) := rfl
    have hpast : place.past (Phrase.negation p).lexemes =
        (place.past [.word negationText]).past p.lexemes := Place.past_cons _ _ _
    rw [htokens, hpast]
    refine ⟨_, operand_negation ?_ ?_ hread, ?_⟩
    · show (Vocabulary.constant? negationText).map ConstantWord.value = none
      decide
    · exact Lexeme.isWord_of_eq (by decide) _ _
    · exact congrArg (Expr.negation .nowhere) he

/-! ## Operators -/

theorem operator?_word {word : String} (h : foldCase word ≠ "is") (zs : List Lexeme)
    (place : Place) :
    operator? (layOut place (.word word :: zs)) = (wordOperator? word).map (·, 1) := by
  rw [layOut_cons]
  show (if _ then _ else (wordOperator? word).map (·, 1)) = _
  rw [if_neg (by rw [Lexeme.isWord_of_ne h]; exact Bool.false_ne_true)]

theorem operator?_is {rest : List Lexeme} (place : Place) :
    operator? (layOut place (.word "is" :: rest)) =
      match comparison? (layOut (place.past [.word "is"]) rest) with
      | some (op, width) => some (op, 1 + width)
      | none => some (.equality true, 1) := by
  have his : foldCase "is" = "is" := by decide
  exact if_pos (Lexeme.isWord_of_eq his _ _)

/-- The words of a comparison behind "is". -/
theorem comparison?_layOut (c : Comparison) (zs : List Lexeme) (place : Place) :
    comparison? (layOut place ((BinaryOp.compare c).words.tail.map .word ++ zs)) =
      some (.compare c, (BinaryOp.compare c).words.tail.length) := by
  have hless : foldCase "less" = "less" ∧ foldCase "greater" = "greater" ∧
      foldCase "than" = "than" := by decide
  have has : foldCase "as" = "as" ∧ foldCase "low" = "low" ∧ foldCase "high" = "high" := by decide
  cases c <;>
    simp [BinaryOp.words, layOut_cons, comparison?, Token.isWordIn, Lexeme.isWord_token, hless, has]

/-- An operator is read from its words. The word "is" alone is one if the words behind it do not
make up a comparison. -/
theorem operator?_layOut (op : BinaryOp) {zs : List Lexeme}
    (h : op = .equality true → ∀ place, comparison? (layOut place zs) = none) (place : Place) :
    operator? (layOut place (op.words.map .word ++ zs)) = some (op, op.words.length) := by
  cases op with
  | logic c => cases c <;> exact operator?_word (by decide) zs place
  | equality positive =>
    cases positive with
    | true =>
      show operator? (layOut place (.word "is" :: zs)) = _
      rw [operator?_is, h rfl]
      rfl
    | false => exact operator?_word (by decide) zs place
  | compare c =>
    have hwords : (BinaryOp.compare c).words = "is" :: (BinaryOp.compare c).words.tail := by
      cases c <;> rfl
    rw [hwords, List.map_cons, List.cons_append, operator?_is, comparison?_layOut,
      List.length_cons, Nat.add_comm]
  | arith o => cases o <;> exact operator?_word (by decide) zs place

/-- What cannot begin a comparison: the first token is neither "not" nor "as", and the second one
is not "than". -/
theorem comparison?_eq_none {ts : List Token}
    (hfirst : ∀ t ∈ ts.head?, t.isWord "not" = false ∧ t.isWord "as" = false)
    (hsecond : ∀ t ∈ ts.tail.head?, t.isWord "than" = false) : comparison? ts = none := by
  match ts with
  | [] => rfl
  | [a] => simp [comparison?, hfirst a rfl]
  | a :: b :: rest =>
    have hb := hsecond b rfl
    cases rest <;> simp [comparison?, hfirst a rfl, hb]

/-- The first word behind a complete operand is not "than". -/
theorem isWord_than_of_closed (hys : Closed ys) (place : Place) :
    ∀ t ∈ (layOut place ys).head?, t.isWord "than" = false := by
  intro t ht
  cases ys with
  | nil => cases ht
  | cons y ys =>
    obtain ⟨word, hword, rfl⟩ := hys _ rfl
    cases ht
    have hclosers : ∀ word ∈ closers, foldCase word ≠ "than" := by decide
    exact Lexeme.isWord_of_ne (hclosers word hword) _ _

/-- An operand that is not negated makes up no comparison with the word "is" before it. -/
theorem comparison?_operand (hv : r.vocabulary.Extended) {p : Phrase}
    (h : p.WellFormed r.vocabulary) (hroot : p.root? = none) (hnot : p.isNegated = false)
    (hys : Closed ys) (place : Place) : comparison? (layOut place (p.lexemes ++ ys)) = none := by
  have hthan := isWord_than_of_closed hys
  cases p with
  | number numeral =>
    refine comparison?_eq_none ?_ (hthan _)
    rintro t ⟨⟩
    exact ⟨rfl, rfl⟩
  | text body =>
    refine comparison?_eq_none ?_ (hthan _)
    rintro t ⟨⟩
    exact ⟨rfl, rfl⟩
  | constant word value =>
    have hwords : ∀ word ∈ constantWords, word ≠ "not" ∧ word ≠ "as" := by decide
    obtain ⟨hnot', has⟩ := hwords _ (Vocabulary.mem_constantWords h)
    refine comparison?_eq_none ?_ (hthan _)
    rintro t ⟨⟩
    exact ⟨Lexeme.isWord_of_ne hnot' _ _, Lexeme.isWord_of_ne has _ _⟩
  | name words =>
    obtain ⟨word, words, rfl⟩ := List.exists_cons_of_ne_nil h.1.ne_nil
    have hkeyword := h.1.isKeyword_eq_false
    refine comparison?_eq_none ?_ ?_
    · rintro t ⟨⟩
      exact ⟨Lexeme.isWord_of_ne (hv.foldCase_ne hkeyword (by decide)) _ _,
        Lexeme.isWord_of_ne (hv.foldCase_ne hkeyword (by decide)) _ _⟩
    · cases words with
      | nil => exact hthan _
      | cons word' words =>
        have hkeyword' : r.vocabulary.isKeyword word' = false := by
          cases h.1 with
          | common _ _ _ hreserved => exact (Vocabulary.isReserved_eq_false.mp hreserved).1
          | proper _ hall =>
            exact (Vocabulary.isReserved_eq_false.mp (hall word' (by simp)).2).1
        rintro t ⟨⟩
        exact Lexeme.isWord_of_ne (hv.foldCase_ne hkeyword' (by decide)) _ _
  | binary op l r => cases hroot
  | negation p => cases hnot

/-! ## Expressions -/

theorem closed_stepLexemes (hys : Closed ys)
    (steps : List (BinaryOp × Phrase)) : Closed (Phrase.stepLexemes steps ++ ys) := by
  cases steps with
  | nil => exact hys
  | cons step steps =>
    obtain ⟨op, p⟩ := step
    have hword : ∃ word words, op.words = word :: words ∧ word ∈ closers := by
      rcases op with (_ | _ | _) | (_ | _) | (_ | _ | _ | _) | (_ | _ | _ | _) <;>
        exact ⟨_, _, rfl, by decide⟩
    obtain ⟨word, words, hwords, hcloser⟩ := hword
    rintro y hy
    simp only [Phrase.stepLexemes, List.flatMap_cons, hwords] at hy
    cases hy
    exact ⟨word, hcloser, rfl⟩

theorem continueExpr_step {tree right : Expr} {ts rest : List Token} {op : BinaryOp} {width : Nat}
    (hop : operator? ts = some (op, width)) (h : r.operand (ts.drop width) = .ok (right, rest)) :
    r.continueExpr tree ts = r.continueExpr (tree.attach op right) rest := by
  rw [continueExpr, hop]
  dsimp only
  split
  next right' rest' h' =>
    rw [h] at h'
    cases h'
    rfl
  next f h' =>
    rw [h] at h'
    cases h'

/-- The operators and operands behind the first one are read and attached in their order. -/
theorem continueExpr_layOut (hv : r.vocabulary.Extended) {steps : List (BinaryOp × Phrase)}
    (h : ∀ step ∈ steps, step.2.WellFormed r.vocabulary ∧ step.2.root? = none ∧
      (step.1 = .equality true → step.2.isNegated = false))
    (hys : Closed ys) (hend : ∀ place, operator? (layOut place ys) = none) (tree : Expr)
    (place : Place) :
    ∃ e, r.continueExpr tree (layOut place (Phrase.stepLexemes steps ++ ys)) =
        .ok (e, layOut (place.past (Phrase.stepLexemes steps)) ys) ∧
      e.unplaced = (steps.map fun step => (step.1, step.2.expr)).foldl
        (fun e step => e.attach step.1 step.2) tree.unplaced := by
  induction steps generalizing tree place with
  | nil =>
    refine ⟨tree, ?_, rfl⟩
    rw [continueExpr, show Phrase.stepLexemes [] ++ ys = ys from rfl, hend]
    rfl
  | cons step steps ih =>
    obtain ⟨op, p⟩ := step
    obtain ⟨hp, hroot, hnot⟩ := h (op, p) (by simp)
    have hrest := closed_stepLexemes hys steps
    have hlexemes : Phrase.stepLexemes ((op, p) :: steps) ++ ys =
        op.words.map .word ++ (p.lexemes ++ (Phrase.stepLexemes steps ++ ys)) := by
      simp [Phrase.stepLexemes]
    have hop : operator? (layOut place (op.words.map .word ++
        (p.lexemes ++ (Phrase.stepLexemes steps ++ ys)))) = some (op, op.words.length) :=
      operator?_layOut op (fun heq => comparison?_operand hv hp hroot (hnot heq) hrest) place
    have hdrop := drop_layOut place (op.words.map Lexeme.word)
      (p.lexemes ++ (Phrase.stepLexemes steps ++ ys))
    rw [List.length_map] at hdrop
    obtain ⟨right, hoperand, hright⟩ :=
      operand_layOut hv hp hroot hrest (place.past (op.words.map .word))
    rw [← hdrop] at hoperand
    obtain ⟨e, hread, he⟩ := ih (fun step hmem => h step (by simp [hmem])) (tree.attach op right)
      ((place.past (op.words.map .word)).past p.lexemes)
    refine ⟨e, ?_, ?_⟩
    · rw [hlexemes, continueExpr_step hop hoperand, hread]
      simp [Phrase.stepLexemes, Place.past_append]
    · rw [he, List.map_cons, List.foldl_cons, Expr.unplaced, ← Expr.attach_mapSpan]
      exact congrArg (fun right => List.foldl _ (tree.unplaced.attach op right) _) hright

/-- An expression is read from the lexemes of a phrase as the phrase spells it. -/
theorem expr_layOut (hv : r.vocabulary.Extended) {p : Phrase} (h : p.WellFormed r.vocabulary)
    (hys : Closed ys) (hend : ∀ place, operator? (layOut place ys) = none) (place : Place) :
    ∃ e, r.expr (layOut place (p.lexemes ++ ys)) = .ok (e, layOut (place.past p.lexemes) ys) ∧
      e.unplaced = p.expr := by
  obtain ⟨first, hfirst, hseed⟩ :=
    operand_layOut hv h.seed p.root?_seed (closed_stepLexemes hys p.steps) place
  obtain ⟨e, hread, he⟩ :=
    continueExpr_layOut hv h.of_mem_steps hys hend first (place.past p.seed.lexemes)
  refine ⟨e, ?_, ?_⟩
  · unfold expr
    rw [p.lexemes_eq, List.append_assoc, hfirst, Place.past_append]
    exact hread
  · rw [he, hseed]
    exact Phrase.foldl_attach h

end Reader

end Rockstar
