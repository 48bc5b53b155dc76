import Rockstar.Proofs.Lockstep
import Rockstar.Proofs.NameShapes
import Rockstar.Proofs.Options

/-!
# Words that a program does not use

A word that is added to the vocabulary changes its own roles only. Readers and compiler ask for the
roles of words at two places: a reader for those of the tokens on a line, the compiler for those of
the words in the text of a reference. Vocabularies that give the words of a line the same roles
(`SameWords`) read it alike, errors included (`Reader.statement_same`). The words in the text of a
reference are tokens of its line again, as long as there is no comment inside the reference; with a
comment, one of them has a parenthesis in it, and the others do not matter
(`Name.shapeOfWords?_of_paren`). So a new word that is none of the tokens leaves everything as it is
(`compileSource_newWord`).
-/

namespace Rockstar

/-! ## Roles of words -/

namespace Vocabulary

/-- The word has the same roles in both vocabularies. -/
structure SameRoles (v v' : Vocabulary) (word : String) : Prop where
  keyword : v'.isKeyword word = v.isKeyword word
  pronoun : v'.isPronoun word = v.isPronoun word
  determiner : v'.isDeterminer word = v.isDeterminer word

theorem SameRoles.reserved {v v' : Vocabulary} {word : String} (h : SameRoles v v' word) :
    v'.isReserved word = v.isReserved word := by
  rw [isReserved, isReserved, h.keyword, h.pronoun, h.determiner]

theorem contains_insertWord {words : List String} {word other : String}
    (h : other ≠ foldCase word) :
    (insertWord words word).1.contains other = words.contains other := by
  unfold insertWord
  dsimp only
  split
  · rfl
  · simp [h]

/-- Only a parenthesis becomes one in lower case. -/
theorem eq_paren_of_toLower {c : Char} (h : c.toLower = '(') : c = '(' := by
  unfold Char.toLower at h
  split at h
  next hupper =>
    have hlower : 65 ≤ c.toNat := hupper.1
    have hupper' : c.toNat ≤ 90 := hupper.2
    have hnat : (c.toNat + 32) % 2 ^ 32 = 40 := by simpa using congrArg Char.toNat h
    omega
  next => exact h

theorem paren_mem_foldCase {word : String} :
    '(' ∈ (foldCase word).toList ↔ '(' ∈ word.toList := by
  rw [foldCase, String.toList_ofList, List.mem_map]
  refine ⟨?_, fun h => ⟨'(', h, rfl⟩⟩
  rintro ⟨c, hc, hlower⟩
  rwa [← eq_paren_of_toLower hlower]

/-- The vocabularies with one more word, in each of the three roles. -/
def withWord (v : Vocabulary) (word : String) : List Vocabulary :=
  [(v.addPronoun word).1, (v.addDeterminer word).1, (v.addKeyword word).1]

/-- All words but the new one keep their roles. -/
theorem sameRoles_of_mem_withWord {v v' : Vocabulary} {word other : String}
    (hv' : v' ∈ v.withWord word) (h : foldCase other ≠ foldCase word) : SameRoles v v' other := by
  simp only [withWord, List.mem_cons, List.not_mem_nil, or_false] at hv'
  rcases hv' with rfl | rfl | rfl
  · exact ⟨rfl, contains_insertWord h, rfl⟩
  · exact ⟨rfl, rfl, contains_insertWord h⟩
  · refine ⟨?_, rfl, rfl⟩
    show ((insertWord v.keywords word).1.contains (foldCase other) || _) = _
    rw [contains_insertWord h]
    rfl

end Vocabulary

/-! ## Reading with either vocabulary -/

namespace Reader

variable {v v' : Vocabulary} {stop : Token} {ts rest : List Token} {α β : Type}

/-- The words among the tokens have the same roles in both vocabularies. -/
def SameWords (v v' : Vocabulary) (ts : List Token) : Prop :=
  ∀ t ∈ ts, t.kind = .word → v.SameRoles v' t.lexeme

theorem SameWords.of_suffix (h : SameWords v v' ts) (hsuffix : rest <:+ ts) :
    SameWords v v' rest :=
  fun t ht => h t (hsuffix.subset ht)

/-- What comes behind a reader need only agree on what the reader has left. -/
theorem bind_same {x : Except Failure α} {g g' : α → Except Failure β}
    (h : ∀ a, x = .ok a → g' a = g a) : (x >>= g') = (x >>= g) := by
  cases x with
  | error f => rfl
  | ok a => exact h a rfl

theorem continuesName_same {t : Token} (h : t.kind = .word → v.SameRoles v' t.lexeme) :
    continuesName ⟨v', stop⟩ t = continuesName ⟨v, stop⟩ t := by
  unfold continuesName
  by_cases hword : t.kind = .word
  · rw [(h hword).reserved]
  · simp [hword]

theorem takeWhile_same {p q : Token → Bool} (h : ∀ t ∈ ts, q t = p t) :
    ts.takeWhile q = ts.takeWhile p := by
  induction ts with
  | nil => rfl
  | cons t ts ih =>
    rw [List.takeWhile_cons, List.takeWhile_cons, h t (by simp),
      ih fun u hu => h u (List.mem_cons_of_mem _ hu)]

theorem variableRef_same (h : SameWords v v' ts) :
    variableRef ⟨v', stop⟩ ts = variableRef ⟨v, stop⟩ ts := by
  cases ts with
  | nil => rfl
  | cons first rest =>
    have hrest := h.of_suffix (List.suffix_cons first rest)
    unfold variableRef
    dsimp only
    by_cases hword : first.kind = .word
    · have hroles := h first (by simp) hword
      have hmore : (rest.takeWhile fun t => t.isCapitalised && continuesName ⟨v', stop⟩ t) =
          rest.takeWhile fun t => t.isCapitalised && continuesName ⟨v, stop⟩ t :=
        takeWhile_same fun t ht => by rw [continuesName_same (hrest t ht)]
      rw [hroles.keyword, hroles.pronoun, hroles.determiner, hmore]
      cases rest with
      | nil => rfl
      | cons next rest =>
        dsimp only
        rw [continuesName_same (hrest next (by simp))]
        rfl
    · simp only [hword, ne_eq, not_false_eq_true, decide_true, Bool.true_or, if_true]
      rfl

theorem operand_same (h : SameWords v v' ts) :
    operand ⟨v', stop⟩ ts = operand ⟨v, stop⟩ ts := by
  induction ts with
  | nil => rfl
  | cons t rest ih =>
    have hkeyword : (decide (t.kind = .word) && !v'.isKeyword t.lexeme) =
        (decide (t.kind = .word) && !v.isKeyword t.lexeme) := by
      by_cases hword : t.kind = .word
      · rw [(h t (by simp) hword).keyword]
      · simp [hword]
    rw [operand, operand, ih (h.of_suffix (List.suffix_cons t rest)), variableRef_same h]
    dsimp only
    rw [hkeyword]
    rfl

theorem continueExpr_same (tree : Expr) (h : SameWords v v' ts) :
    continueExpr ⟨v', stop⟩ tree ts = continueExpr ⟨v, stop⟩ tree ts := by
  fun_induction continueExpr ⟨v, stop⟩ tree ts with
  | case1 tree ts hop => rw [continueExpr.eq_def ⟨v', stop⟩ tree, hop]
  | case2 tree ts op width hop right rest hoperand ih =>
    have hsuffix := (reads_operand hoperand).1.trans (List.drop_suffix width ts)
    have hsame : operand ⟨v', stop⟩ (ts.drop width) = .ok (right, rest) := by
      rw [operand_same (h.of_suffix (List.drop_suffix width ts)), hoperand]
    rw [continueExpr.eq_def ⟨v', stop⟩ tree, hop]
    dsimp only
    split
    next right' rest' heq =>
      rw [hsame] at heq
      cases heq
      exact ih (h.of_suffix hsuffix)
    next f heq =>
      rw [hsame] at heq
      cases heq
  | case3 tree ts op width hop f hoperand =>
    have hsame : operand ⟨v', stop⟩ (ts.drop width) = .error f := by
      rw [operand_same (h.of_suffix (List.drop_suffix width ts)), hoperand]
    rw [continueExpr.eq_def ⟨v', stop⟩ tree, hop]
    dsimp only
    split
    next right' rest' heq =>
      rw [hsame] at heq
      cases heq
    next f' heq =>
      rw [hsame] at heq
      cases heq
      rfl

theorem expr_same (h : SameWords v v' ts) : expr ⟨v', stop⟩ ts = expr ⟨v, stop⟩ ts := by
  unfold expr
  rw [operand_same h]
  split
  next first rest hfirst => exact continueExpr_same first (h.of_suffix (reads_operand hfirst).1)
  next f _ => rfl

theorem putStatement_same (start : Span) (h : SameWords v v' ts) :
    putStatement ⟨v', stop⟩ start ts = putStatement ⟨v, stop⟩ start ts := by
  unfold putStatement
  rw [expr_same h]
  refine bind_same fun ⟨value, ts₁⟩ hvalue => ?_
  refine bind_same fun ⟨into, ts₂⟩ hinto => ?_
  obtain rfl := word_ok hinto
  have hsuffix := (List.suffix_cons into ts₂).trans (reads_expr hvalue).1
  dsimp only
  rw [variableRef_same (h.of_suffix hsuffix)]

theorem letStatement_same (start : Span) (h : SameWords v v' ts) :
    letStatement ⟨v', stop⟩ start ts = letStatement ⟨v, stop⟩ start ts := by
  unfold letStatement
  rw [variableRef_same h]
  refine bind_same fun ⟨target, ts₁⟩ htarget => ?_
  refine bind_same fun ⟨be, ts₂⟩ hbe => ?_
  obtain rfl := word_ok hbe
  have hsuffix := (List.suffix_cons be ts₂).trans (reads_variableRef htarget).1
  dsimp only
  rw [expr_same (h.of_suffix hsuffix)]

theorem nameStatement_same (h : SameWords v v' ts) :
    nameStatement ⟨v', stop⟩ ts = nameStatement ⟨v, stop⟩ ts := by
  unfold nameStatement
  rw [variableRef_same h]
  rfl

theorem stepStatement_same (direction : Direction) (start : Span) (h : SameWords v v' ts) :
    stepStatement ⟨v', stop⟩ direction start ts = stepStatement ⟨v, stop⟩ direction start ts := by
  unfold stepStatement
  rw [variableRef_same h]
  rfl

/-- Both vocabularies read the same statement, or fail in the same way. -/
theorem statement_same (h : SameWords v v' ts) :
    statement ⟨v', stop⟩ ts = statement ⟨v, stop⟩ ts := by
  cases ts with
  | nil => rfl
  | cons t rest =>
    have hrest := h.of_suffix (List.suffix_cons t rest)
    unfold statement
    dsimp only
    by_cases hword : t.kind = .word
    · rw [(h t (by simp) hword).keyword, putStatement_same t.span hrest,
        letStatement_same t.span hrest, stepStatement_same .up t.span hrest,
        stepStatement_same .down t.span hrest, nameStatement_same h]
      unfold outputStatement
      rw [expr_same hrest]
      rfl
    · simp only [hword, ne_eq, not_false_eq_true, if_true]
      rfl

theorem wholeLine_same (h : SameWords v v' ts) :
    wholeLine ⟨v', stop⟩ ts = wholeLine ⟨v, stop⟩ ts := by
  unfold wholeLine
  rw [statement_same h]
  rfl

end Reader

/-- A source whose words have the same roles in both vocabularies is read alike. -/
theorem parse_same {v v' : Vocabulary} {source : List Char}
    (h : ∀ t ∈ tokenize source, t.kind = .word → v.SameRoles v' t.lexeme) :
    parse v' source = parse v source := by
  have hlines : (Line.split source).filterMap (Line.statement? v') =
      (Line.split source).filterMap (Line.statement? v) := by
    refine List.filterMap_congr fun l hl => ?_
    have hwords : Reader.SameWords v v' l.tokens := fun t ht =>
      h t (List.mem_flatMap.mpr ⟨l, hl, List.mem_append_left _ ht⟩)
    unfold Line.statement?
    generalize l.tokens = ts at hwords ⊢
    cases ts with
    | nil => rfl
    | cons t ts =>
      dsimp only
      rw [Reader.wholeLine_same hwords]
  unfold parse
  rw [hlines]

/-! ## The words of a reference -/

namespace Name

variable {v v' : Vocabulary}

theorem isProperWord_same {w : List Char} (h : v.SameRoles v' (String.ofList w)) :
    isProperWord v' w = isProperWord v w := by
  rw [isProperWord, isProperWord, h.reserved]

theorem shapeOfWords?_same {ws : List (List Char)}
    (h : ∀ w ∈ ws, v.SameRoles v' (String.ofList w)) :
    shapeOfWords? v' ws = shapeOfWords? v ws := by
  match ws with
  | [] => rfl
  | [word] =>
    have hroles := h word (by simp)
    rw [shapeOfWords?, shapeOfWords?, hroles.pronoun, hroles.reserved]
  | first :: second :: rest =>
    have hall : (first :: second :: rest).all (isProperWord v') =
        (first :: second :: rest).all (isProperWord v) := by
      rw [Bool.eq_iff_iff, List.all_eq_true, List.all_eq_true]
      exact forall₂_congr fun w hw => by rw [isProperWord_same (h w hw)]
    rw [shapeOfWords?, shapeOfWords?, hall, (h first (by simp)).determiner]

/-- Words among which one has a parenthesis can only be a pronoun of one word, or a determiner with
the parenthesis and a noun. So the roles of words without one do not matter. -/
theorem shapeOfWords?_of_paren {ws : List (List Char)} (hparen : ∃ w ∈ ws, '(' ∈ w)
    (h : ∀ w ∈ ws, '(' ∈ w → v.SameRoles v' (String.ofList w)) :
    shapeOfWords? v' ws = shapeOfWords? v ws := by
  obtain ⟨w, hw, hmem⟩ := hparen
  have hletters := isLetters_eq_false hmem
  match ws with
  | [] => cases hw
  | [word] =>
    obtain rfl := List.mem_singleton.mp hw
    exact shapeOfWords?_same fun w' hw' => by
      rw [List.mem_singleton.mp hw']
      exact h w hw hmem
  | first :: second :: rest =>
    have hall : ∀ u : Vocabulary, (first :: second :: rest).all (isProperWord u) = false :=
      fun u => List.all_eq_false.mpr ⟨w, hw, by simp [isProperWord, hletters]⟩
    rw [shapeOfWords?, shapeOfWords?, hall, hall]
    cases rest with
    | cons third rest => rfl
    | nil =>
      simp only [List.mem_cons, List.not_mem_nil, or_false] at hw
      rcases hw with rfl | rfl
      · rw [(h w (by simp) hmem).determiner]
      · simp [hletters]

end Name

/-- A reference of a program is of the same shape in both vocabularies, if they agree on the tokens
of the source and on all words with a parenthesis. -/
theorem shape?_same {v v' : Vocabulary} (hv : v.Extended) {source : List Char}
    (hwords : ∀ t ∈ tokenize source, t.kind = .word → v.SameRoles v' t.lexeme)
    (hparens : ∀ w : List Char, '(' ∈ w → v.SameRoles v' (String.ofList w))
    {program : List Statement} (hparse : parse v source = .ok program) {stmt : Statement}
    (hstmt : stmt ∈ program) {ref : Variable} (href : ref ∈ stmt.refs) :
    Name.shape? v' ref.text = Name.shape? v ref.text := by
  unfold Name.shape?
  by_cases hclear : ref.Undisturbed
  · obtain ⟨l, hl, before, taken, rest, htokens, hread⟩ := exists_line_of_ref hparse hstmt href
    obtain ⟨-, -, htext⟩ := words_of_variableRef hv htokens hread hclear
    obtain ⟨first, more, -, htaken, -, hkinds, -⟩ := Reader.takes_of_variableRef hread
    obtain rfl := List.append_cancel_right htaken
    rw [htext]
    refine Name.shapeOfWords?_same fun w hw => ?_
    obtain ⟨t, ht, rfl⟩ := List.mem_map.mp hw
    have hmem : t ∈ l.tokens := by
      rw [htokens]
      exact List.mem_append_right _ (List.mem_append_left _ ht)
    rw [String.ofList_toList]
    exact hwords t (List.mem_flatMap.mpr ⟨l, hl, List.mem_append_left _ hmem⟩) (hkinds t ht).1
  · have hparen : '(' ∈ ref.text.toList := Decidable.not_not.mp hclear
    exact Name.shapeOfWords?_of_paren (Text.exists_mem_wordsFrom (by decide) (.inr hparen))
      fun w _ hw => hparens w hw

/-- A word that is added to the vocabulary in any role leaves a source as it was, unless the source
uses it: if no word on any line reads like the new one, the source compiles to the same executable,
or is refused with the same errors. -/
theorem compileSource_newWord (o : Options) (hv : o.vocabulary.Extended) (source word : String)
    (hword : ∀ c ∈ word.toList, isWordChar c = true)
    (hunused : ∀ t ∈ tokenize source.toList, t.kind = .word → foldCase t.lexeme ≠ foldCase word)
    {v' : Vocabulary} (hv' : v' ∈ o.vocabulary.withWord word) :
    compileSource { o with vocabulary := v' } source = compileSource o source := by
  have hwords : ∀ t ∈ tokenize source.toList, t.kind = .word →
      o.vocabulary.SameRoles v' t.lexeme := fun t ht hkind =>
    Vocabulary.sameRoles_of_mem_withWord hv' (hunused t ht hkind)
  have hparens : ∀ w : List Char, '(' ∈ w → o.vocabulary.SameRoles v' (String.ofList w) := by
    intro w hw
    refine Vocabulary.sameRoles_of_mem_withWord hv' fun heq => ?_
    have hmem : '(' ∈ word.toList := by
      rw [← Vocabulary.paren_mem_foldCase, ← heq, Vocabulary.paren_mem_foldCase,
        String.toList_ofList]
      exact hw
    exact absurd (hword _ hmem) (by decide)
  unfold compileSource
  rw [parse_same hwords]
  cases hparse : parse o.vocabulary source.toList with
  | error es => rfl
  | ok program =>
    have hidentify : ∀ stmt ∈ program, ∀ ref ∈ stmt.refs,
        CompileM.identify { o with vocabulary := v' } ref = CompileM.identify o ref := by
      intro stmt hstmt ref href
      unfold CompileM.identify Name.identify
      rw [shape?_same hv hwords hparens hparse hstmt href]
    have hread : CompileM.SameReads (fun _ => False) o { o with vocabulary := v' } :=
      fun i span => .refl (CompileM.slotToRead o i span)
    have hsame := CompileM.sameBut_statements hread program fun stmt hstmt ref href s =>
      .inl (by rw [hidentify stmt hstmt ref href])
    dsimp only
    unfold compile
    rw [hsame.eq]
    rfl

/-- An assignment with a comment inside its target. -/
def dearStatement : Statement :=
  .assign ⟨"The (dear) sky", ⟨1, 1, 14⟩⟩ (.literal (.number 5) ⟨1, 19, 1⟩) ⟨1, 1, 19⟩

/-- A new pronoun for a source without it; and a new determiner that stands inside a reference, but
in a comment, so that the reference has three words and is refused. -/
theorem compileSource_newWord_sky :
    (∃ x, compileSource {} skySource = .ok x ∧
      compileSource { vocabulary := (Vocabulary.standard.addPronoun "y'all").1 } skySource =
        .ok x) ∧
    compileSource {} "The (dear) sky is 5" =
      .error (.compile (.malformedName "The (dear) sky" ⟨1, 1, 14⟩)) ∧
    compileSource { vocabulary := (Vocabulary.standard.addDeterminer "Dear").1 }
      "The (dear) sky is 5" = .error (.compile (.malformedName "The (dear) sky" ⟨1, 1, 14⟩)) := by
  obtain ⟨x, hx⟩ := exists_compile_skyProgram
  have hsky : compileSource {} skySource = .ok x := by
    rw [compileSource, parse_skySource]
    dsimp only
    rw [hx]
  have hdear : compileSource {} "The (dear) sky is 5" =
      .error (.compile (.malformedName "The (dear) sky" ⟨1, 1, 14⟩)) := by
    have hparse : parse (Options.vocabulary {}) "The (dear) sky is 5".toList =
        .ok [dearStatement] :=
      eq_ok_of_toOption (by decide +kernel)
    have hcompile : compile {} [dearStatement] =
        .error (.malformedName "The (dear) sky" ⟨1, 1, 14⟩) :=
      eq_error_of_map (by decide +kernel)
    rw [compileSource, hparse]
    dsimp only
    rw [hcompile]
  refine ⟨⟨x, hsky, ?_⟩, hdear, ?_⟩
  · rw [← hsky]
    exact compileSource_newWord {} .standard skySource "y'all"
      (List.all_eq_true.mp (by decide)) (by decide +kernel) (by simp [Vocabulary.withWord])
  · rw [← hdear]
    exact compileSource_newWord {} .standard "The (dear) sky is 5" "Dear"
      (List.all_eq_true.mp (by decide)) (by decide +kernel) (by simp [Vocabulary.withWord])

end Rockstar
