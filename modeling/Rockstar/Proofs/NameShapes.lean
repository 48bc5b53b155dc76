import Rockstar.Proofs.Correctness
import Rockstar.Proofs.Refusal
import Rockstar.Proofs.Uncommented
import Rockstar.Proofs.Wording

/-!
# The shape of a name, on the line and in its text

A reference is recognised twice: the reader takes the tokens of a line that belong to it (`Takes`),
and the compiler cuts its text into words again and looks for a shape (`Name.shape?`). The two do
not ask the same questions in the same order, but where no comment stands inside the reference they
agree, but for words with an apostrophe, which the compiler does not accept (`shape_agrees`).
-/

namespace Rockstar

/-! ## Vocabularies -/

namespace Vocabulary

/-- The vocabularies that can be made by adding words to the standard one. -/
inductive Extended : Vocabulary → Prop where
  | standard : Extended .standard
  | addPronoun {v : Vocabulary} (word : String) : Extended v → Extended (v.addPronoun word).1
  | addDeterminer {v : Vocabulary} (word : String) : Extended v → Extended (v.addDeterminer word).1
  | addKeyword {v : Vocabulary} (word : String) : Extended v → Extended (v.addKeyword word).1

theorem subset_insertWord (words : List String) (word : String) :
    words ⊆ (insertWord words word).1 := by
  unfold insertWord
  dsimp only
  split
  · exact List.Subset.refl _
  · exact List.subset_append_left _ _

/-- Words are only added. -/
theorem Extended.keywords_subset {v : Vocabulary} (h : v.Extended) :
    Vocabulary.standard.keywords ⊆ v.keywords := by
  induction h with
  | standard => exact List.Subset.refl _
  | addPronoun _ _ ih => exact ih
  | addDeterminer _ _ ih => exact ih
  | addKeyword word _ ih => exact List.Subset.trans ih (subset_insertWord _ word)

theorem Extended.isKeyword {v : Vocabulary} (h : v.Extended) {word : String}
    (hword : Vocabulary.standard.isKeyword word = true) : v.isKeyword word = true := by
  simp only [Vocabulary.isKeyword, Bool.or_eq_true, List.contains_iff_mem] at hword ⊢
  exact hword.imp (fun hmem => h.keywords_subset hmem) id

/-- A word that is no keyword does not read like one of the standard ones. -/
theorem Extended.foldCase_ne {v : Vocabulary} (hv : v.Extended) {word s : String}
    (h : v.isKeyword word = false) (hs : s ∈ Vocabulary.standard.keywords) : foldCase word ≠ s := by
  rintro rfl
  have hmem := hv.keywords_subset hs
  simp [Vocabulary.isKeyword, hmem] at h

theorem constant?_eq_none {v : Vocabulary} {word : String} (h : v.isKeyword word = false) :
    constant? word = none := by
  simp only [isKeyword, Bool.or_eq_false_iff, Option.isSome_eq_false_iff,
    Option.isNone_iff_eq_none] at h
  exact h.2

/-- The word is neither a pronoun nor a determiner, and has an apostrophe in it. -/
def Apostrophised (v : Vocabulary) (word : String) : Prop :=
  v.isPronoun word = false ∧ v.isDeterminer word = false ∧ '\'' ∈ word.toList

theorem isReserved_eq_false {v : Vocabulary} {word : String} :
    v.isReserved word = false ↔
      v.isKeyword word = false ∧ v.isPronoun word = false ∧ v.isDeterminer word = false := by
  simp [isReserved, and_assoc]

end Vocabulary

/-! ## What the reader takes -/

/-- The tokens that make up a reference of each shape. -/
inductive Takes (v : Vocabulary) : NameShape → List Token → Prop where
  | pronoun {t : Token} : v.isPronoun t.lexeme = true → Takes v .pronoun [t]
  | common {t u : Token} : v.isPronoun t.lexeme = false → v.isDeterminer t.lexeme = true →
      v.isReserved u.lexeme = false → Takes v .common [t, u]
  | proper {ts : List Token} : 2 ≤ ts.length →
      (∀ t ∈ ts, t.isCapitalised = true ∧ v.isReserved t.lexeme = false) → Takes v .proper ts
  | simple {t : Token} : v.isReserved t.lexeme = false → Takes v .simple [t]

/-- Tokens are taken in one shape only. -/
theorem Takes.unique {v : Vocabulary} {shape shape' : NameShape} {ts : List Token}
    (h : Takes v shape ts) (h' : Takes v shape' ts) : shape = shape' := by
  cases h <;> cases h' <;> simp_all [Vocabulary.isReserved]

/-- A capitalised word alone is an ordinary word, with others behind it a proper name. -/
theorem Takes.exists_of_capitalised {v : Vocabulary} {first : Token} {more : List Token}
    (h : ∀ t ∈ first :: more, t.isCapitalised = true ∧ v.isReserved t.lexeme = false) :
    ∃ shape, Takes v shape (first :: more) := by
  cases more with
  | nil => exact ⟨.simple, .simple (h first (by simp)).2⟩
  | cons second more => exact ⟨.proper, .proper (by simp) h⟩

namespace Reader

variable {r : Reader}

theorem continuesName_iff {t : Token} :
    r.continuesName t = true ↔ t.kind = .word ∧ r.vocabulary.isReserved t.lexeme = false := by
  simp [continuesName]

/-- A reference takes words of one of the shapes, none of them a keyword, and reaches from the first
of them to the last. -/
theorem takes_of_variableRef {ts rest : List Token} {ref : Variable}
    (h : r.variableRef ts = .ok (ref, rest)) :
    ∃ first more shape, ts = first :: more ++ rest ∧
      ref = reference first (more.getLast?.getD first) ∧
      (∀ t ∈ first :: more, t.kind = .word ∧ r.vocabulary.isKeyword t.lexeme = false) ∧
      Takes r.vocabulary shape (first :: more) := by
  cases ts with
  | nil => cases h
  | cons first tail =>
    unfold variableRef at h
    dsimp only at h
    split at h
    · cases h
    next hword =>
      obtain ⟨hkind, hkeyword⟩ :
          first.kind = .word ∧ r.vocabulary.isKeyword first.lexeme = false := by
        simpa using hword
      have hone : ∀ t ∈ [first], t.kind = .word ∧ r.vocabulary.isKeyword t.lexeme = false := by
        simp [hkind, hkeyword]
      split at h
      next hpronoun =>
        cases h
        exact ⟨first, [], .pronoun, rfl, rfl, hone, .pronoun hpronoun⟩
      next hpronoun =>
        rw [Bool.not_eq_true] at hpronoun
        split at h
        next hdeterminer =>
          cases tail with
          | nil => cases h
          | cons next tail =>
            dsimp only at h
            split at h
            next hnext =>
              cases h
              obtain ⟨hkind', hreserved⟩ := continuesName_iff.mp hnext
              refine ⟨first, [next], .common, rfl, rfl, ?_, .common hpronoun hdeterminer hreserved⟩
              simp [hkind, hkeyword, hkind', (Vocabulary.isReserved_eq_false.mp hreserved).1]
            next => cases h
        next hdeterminer =>
          rw [Bool.not_eq_true] at hdeterminer
          have hreserved := Vocabulary.isReserved_eq_false.mpr ⟨hkeyword, hpronoun, hdeterminer⟩
          split at h
          next hcapital =>
            cases h
            have hmore : ∀ t ∈ tail.takeWhile fun t => t.isCapitalised && r.continuesName t,
                t.isCapitalised = true ∧ t.kind = .word ∧
                  r.vocabulary.isReserved t.lexeme = false := by
              intro t ht
              have hcontinues := List.mem_takeWhile_imp ht
              rwa [Bool.and_eq_true, continuesName_iff] at hcontinues
            obtain ⟨shape, htakes⟩ := Takes.exists_of_capitalised
              (List.forall_mem_cons.mpr ⟨⟨hcapital, hreserved⟩, fun t ht =>
                ⟨(hmore t ht).1, (hmore t ht).2.2⟩⟩)
            refine ⟨first, _, shape, ?_, rfl, ?_, htakes⟩
            · rw [List.cons_append, List.prefix_iff_eq_append.mp (List.takeWhile_prefix _)]
            · refine List.forall_mem_cons.mpr ⟨⟨hkind, hkeyword⟩, fun t ht => ?_⟩
              obtain ⟨-, hkind', hreserved'⟩ := hmore t ht
              exact ⟨hkind', (Vocabulary.isReserved_eq_false.mp hreserved').1⟩
          next =>
            cases h
            exact ⟨first, [], .simple, rfl, rfl, hone, .simple hreserved⟩

/-! ## Where references come from -/

/-- The reference is read from tokens among the given ones. -/
def Reads (r : Reader) (ts : List Token) (ref : Variable) : Prop :=
  ∃ before taken rest, ts = before ++ (taken ++ rest) ∧
    r.variableRef (taken ++ rest) = .ok (ref, rest)

variable {ts rest : List Token} {ref : Variable}

theorem Reads.of_suffix {us : List Token} (h : r.Reads us ref) (hsuffix : us <:+ ts) :
    r.Reads ts ref := by
  obtain ⟨before, taken, rest, rfl, href⟩ := h
  obtain ⟨front, rfl⟩ := hsuffix
  exact ⟨front ++ before, taken, rest, by simp, href⟩

theorem reads_variableRef (h : r.variableRef ts = .ok (ref, rest)) :
    rest <:+ ts ∧ r.Reads ts ref := by
  obtain ⟨first, more, -, rfl, -⟩ := takes_of_variableRef h
  exact ⟨⟨first :: more, rfl⟩, [], first :: more, rest, rfl, h⟩

theorem reads_operand {e : Expr} (h : r.operand ts = .ok (e, rest)) :
    rest <:+ ts ∧ ∀ ref ∈ e.refs, r.Reads ts ref := by
  induction ts generalizing e rest with
  | nil => cases h
  | cons t tail ih =>
    rw [operand] at h
    split at h
    · cases h
      exact ⟨List.suffix_cons _ _, by simp [Expr.refs]⟩
    · split at h
      · split at h
        next e' rest' hrest =>
          cases h
          obtain ⟨hsuffix, hrefs⟩ := ih hrest
          exact ⟨hsuffix.trans (List.suffix_cons _ _),
            fun ref href => (hrefs ref href).of_suffix (List.suffix_cons _ _)⟩
        next => cases h
      · split at h
        · split at h
          next v rest' hvar =>
            cases h
            obtain ⟨hsuffix, href⟩ := reads_variableRef hvar
            exact ⟨hsuffix, by simpa [Expr.refs] using href⟩
          next => cases h
        · cases h

theorem reads_continueExpr {tree e : Expr} (h : r.continueExpr tree ts = .ok (e, rest)) :
    rest <:+ ts ∧ ∀ ref ∈ e.refs, ref ∈ tree.refs ∨ r.Reads ts ref := by
  fun_induction r.continueExpr tree ts with
  | case1 tree ts hop =>
    cases h
    exact ⟨List.suffix_refl _, fun ref href => .inl href⟩
  | case2 tree ts op width hop right rest' hoperand ih =>
    obtain ⟨hsuffix, hright⟩ := reads_operand hoperand
    have hrest := hsuffix.trans (List.drop_suffix width ts)
    obtain ⟨hsuffix', hrefs⟩ := ih h
    refine ⟨hsuffix'.trans hrest, fun ref href => ?_⟩
    rcases hrefs ref href with hattach | hreads
    · rw [Expr.refs_attach] at hattach
      rcases List.mem_append.mp hattach with hmem | hmem
      · exact .inl hmem
      · exact .inr ((hright ref hmem).of_suffix (List.drop_suffix width ts))
    · exact .inr (hreads.of_suffix hrest)
  | case3 tree ts op width hop f hoperand => cases h

theorem reads_expr {e : Expr} (h : r.expr ts = .ok (e, rest)) :
    rest <:+ ts ∧ ∀ ref ∈ e.refs, r.Reads ts ref := by
  unfold expr at h
  split at h
  next first rest' hfirst =>
    obtain ⟨hsuffix, hrefs⟩ := reads_operand hfirst
    obtain ⟨hsuffix', hrefs'⟩ := reads_continueExpr h
    refine ⟨hsuffix'.trans hsuffix, fun ref href => ?_⟩
    rcases hrefs' ref href with hmem | hreads
    · exact hrefs ref hmem
    · exact hreads.of_suffix hsuffix
  next => cases h

theorem refs_isValue {verb : Token} {e : Expr} (h : r.isValue verb ts = .ok (e, rest)) :
    e.refs = [] := by
  unfold isValue at h
  split at h
  · cases h
  · split at h
    · cases h
    · dsimp only at h
      split at h
      · cases h
        rfl
      · split at h <;> cases h
        rfl

section Statement

variable {start : Span} {stmt : Statement}

theorem reads_put (h : r.putStatement start ts = .ok (stmt, rest)) :
    ∀ ref ∈ stmt.refs, r.Reads ts ref := by
  obtain ⟨⟨value, ts₁⟩, hvalue, h⟩ := bind_ok h
  obtain ⟨⟨into, ts₂⟩, hinto, h⟩ := bind_ok h
  obtain ⟨⟨target, ts₃⟩, htarget, h⟩ := bind_ok h
  cases h
  obtain ⟨hsuffix, hrefs⟩ := reads_expr hvalue
  obtain rfl := word_ok hinto
  intro ref href
  rcases Statement.mem_refs_assign.mp href with rfl | hmem
  · exact (reads_variableRef htarget).2.of_suffix ((List.suffix_cons into ts₂).trans hsuffix)
  · exact hrefs ref hmem

theorem reads_let (h : r.letStatement start ts = .ok (stmt, rest)) :
    ∀ ref ∈ stmt.refs, r.Reads ts ref := by
  obtain ⟨⟨target, ts₁⟩, htarget, h⟩ := bind_ok h
  obtain ⟨⟨be, ts₂⟩, hbe, h⟩ := bind_ok h
  obtain ⟨⟨value, ts₃⟩, hvalue, h⟩ := bind_ok h
  cases h
  obtain ⟨hsuffix, hreads⟩ := reads_variableRef htarget
  obtain rfl := word_ok hbe
  intro ref href
  rcases Statement.mem_refs_assign.mp href with rfl | hmem
  · exact hreads
  · exact ((reads_expr hvalue).2 ref hmem).of_suffix ((List.suffix_cons be ts₂).trans hsuffix)

theorem reads_output {verb : Verb} (h : r.outputStatement verb start ts = .ok (stmt, rest)) :
    ∀ ref ∈ stmt.refs, r.Reads ts ref := by
  obtain ⟨⟨value, ts₁⟩, hvalue, h⟩ := bind_ok h
  cases h
  exact (reads_expr hvalue).2

theorem reads_step {direction : Direction}
    (h : r.stepStatement direction start ts = .ok (stmt, rest)) :
    ∀ ref ∈ stmt.refs, r.Reads ts ref := by
  obtain ⟨⟨target, ts₁⟩, htarget, hrest⟩ := bind_ok h
  dsimp only at hrest
  split at hrest <;> cases hrest
  intro ref href
  obtain rfl := List.mem_singleton.mp href
  exact (reads_variableRef htarget).2

theorem reads_name (h : r.nameStatement ts = .ok (stmt, rest)) :
    ∀ ref ∈ stmt.refs, r.Reads ts ref := by
  obtain ⟨⟨target, ts₁⟩, htarget, hrest⟩ := bind_ok h
  -- the value behind the verb has no references
  have htargetOnly : ∀ {value : Expr} {span : Span}, value.refs = [] →
      ∀ ref ∈ (Statement.assign target value span).refs, r.Reads ts ref := by
    intro value span hvalue ref href
    rw [Statement.mem_refs_assign, hvalue] at href
    obtain rfl : ref = target := by simpa using href
    exact (reads_variableRef htarget).2
  cases ts₁ with
  | nil => cases hrest
  | cons verb tail =>
    dsimp only at hrest
    split at hrest
    · obtain ⟨⟨value, rest'⟩, hvalue, hpure⟩ := bind_ok hrest
      cases hpure
      exact htargetOnly (refs_isValue hvalue)
    · split at hrest <;> cases hrest
      exact htargetOnly rfl

/-- The references of a statement are read from its tokens. -/
theorem reads_statement (h : r.statement ts = .ok (stmt, rest)) :
    ∀ ref ∈ stmt.refs, r.Reads ts ref := by
  cases ts with
  | nil => cases h
  | cons t tail =>
    have htail : (∀ ref ∈ stmt.refs, r.Reads tail ref) →
        ∀ ref ∈ stmt.refs, r.Reads (t :: tail) ref :=
      fun hreads ref href => (hreads ref href).of_suffix (List.suffix_cons t tail)
    unfold statement at h
    dsimp only at h
    split at h
    · cases h
    · split at h
      · exact htail (reads_put h)
      · split at h
        · exact htail (reads_let h)
        · split at h
          · exact htail (reads_output h)
          · split at h
            · exact htail (reads_step h)
            · split at h
              · exact htail (reads_step h)
              · split at h
                · cases h
                · exact reads_name h

end Statement

end Reader

/-- The statements of a program are read from the tokens of its lines. -/
theorem exists_line_of_statement {v : Vocabulary} {source : List Char} {program : List Statement}
    (h : parse v source = .ok program) {stmt : Statement} (hstmt : stmt ∈ program) :
    ∃ l ∈ Line.split source, ∃ rest,
      Reader.statement ⟨v, l.stop⟩ l.tokens = .ok (stmt, rest) := by
  rw [eq_statementsOf h] at hstmt
  obtain ⟨result, hresult, hok⟩ := List.mem_filterMap.mp hstmt
  obtain ⟨l, hl, hline⟩ := List.mem_filterMap.mp hresult
  cases result with
  | error es => cases hok
  | ok stmt' =>
    cases hok
    refine ⟨l, hl, ?_⟩
    unfold Line.statement? at hline
    split at hline
    · cases hline
    · split at hline
      next hread =>
        cases hline
        obtain ⟨⟨stmt', rest⟩, hstatement, hwhole⟩ := bind_ok hread
        dsimp only at hwhole
        split at hwhole <;> cases hwhole
        exact ⟨rest, hstatement⟩
      next => cases hline

/-- The references of a program are read from the tokens of its lines. -/
theorem exists_line_of_ref {v : Vocabulary} {source : List Char} {program : List Statement}
    (h : parse v source = .ok program) {stmt : Statement} (hstmt : stmt ∈ program)
    {ref : Variable} (href : ref ∈ stmt.refs) :
    ∃ l ∈ Line.split source, Reader.Reads ⟨v, l.stop⟩ l.tokens ref := by
  obtain ⟨l, hl, rest, hstatement⟩ := exists_line_of_statement h hstmt
  exact ⟨l, hl, Reader.reads_statement hstatement ref href⟩

/-! ## The shape of the text -/

namespace Name

/-- Of the words on a line, those with an apostrophe are not made of letters only. -/
theorem isLetters_iff {w : List Char} (hw : IsWord w) : isLetters w = true ↔ '\'' ∉ w := by
  have hne : w.isEmpty = false := by
    cases w with
    | nil => exact hw.elim
    | cons => rfl
  have hquote : Text.isLetter '\'' = false := by decide
  rw [isLetters, hne, Bool.not_false, Bool.true_and, List.all_eq_true]
  constructor
  · intro hall hmem
    have hletter := hall _ hmem
    rw [hquote] at hletter
    cases hletter
  · intro hmem c hc
    have hchar := hw.isWordChar c hc
    have hne : c ≠ '\'' := fun heq => hmem (heq ▸ hc)
    simpa [isWordChar, hne] using hchar

variable {v : Vocabulary} {shape : NameShape} {ts : List Token}

theorem isProperWord_iff {t : Token} (hword : IsWord t.lexeme.toList)
    (hcapital : t.isCapitalised = true) (hreserved : v.isReserved t.lexeme = false) :
    isProperWord v t.lexeme.toList = true ↔ '\'' ∉ t.lexeme.toList := by
  have hhead : t.lexeme.toList.head?.any Text.isCapital = true := by
    unfold Token.isCapitalised at hcapital
    split at hcapital
    next c cs hcons => rw [hcons]; exact hcapital
    next => cases hcapital
  rw [isProperWord, hhead, String.ofList_toList, hreserved, Bool.true_and, Bool.not_false,
    Bool.and_true, isLetters_iff hword]

/-- Capitalised words without a role of their own are a proper name, or nothing if one of them has
an apostrophe. -/
theorem shapeOfWords?_proper (hlength : 2 ≤ ts.length)
    (hall : ∀ t ∈ ts, t.isCapitalised = true ∧ v.isReserved t.lexeme = false) :
    shapeOfWords? v (ts.map (·.lexeme.toList)) =
      if ∀ t ∈ ts, isProperWord v t.lexeme.toList = true then some .proper else none := by
  match ts with
  | t :: u :: more =>
    have hdeterminer := (Vocabulary.isReserved_eq_false.mp (hall t (by simp)).2).2.2
    simp [shapeOfWords?, hdeterminer]

/-- Words without apostrophes have the shape in which they were taken. -/
theorem shapeOfWords?_eq_some (h : Takes v shape ts) (hwords : ∀ t ∈ ts, IsWord t.lexeme.toList)
    (hplain : ¬∃ t ∈ ts, v.Apostrophised t.lexeme) :
    shapeOfWords? v (ts.map (·.lexeme.toList)) = some shape := by
  have hletters : ∀ t ∈ ts, v.isReserved t.lexeme = false → '\'' ∉ t.lexeme.toList := by
    intro t ht hreserved hmem
    exact hplain ⟨t, ht, (Vocabulary.isReserved_eq_false.mp hreserved).2.1,
      (Vocabulary.isReserved_eq_false.mp hreserved).2.2, hmem⟩
  cases h with
  | pronoun hpronoun => simp [shapeOfWords?, hpronoun]
  | @common t u hpronoun hdeterminer hreserved =>
    have hnoun := (isLetters_iff (hwords u (by simp))).mpr (hletters u (by simp) hreserved)
    simp [shapeOfWords?, hdeterminer, hnoun]
  | proper hlength hall =>
    rw [shapeOfWords?_proper hlength hall, if_pos]
    intro t ht
    obtain ⟨hcapital, hreserved⟩ := hall t ht
    exact (isProperWord_iff (hwords t ht) hcapital hreserved).mpr (hletters t ht hreserved)
  | @simple t hreserved =>
    have hword := (isLetters_iff (hwords t (by simp))).mpr (hletters t (by simp) hreserved)
    have hpronoun := (Vocabulary.isReserved_eq_false.mp hreserved).2.1
    simp [shapeOfWords?, hpronoun, hreserved, hword]

/-- An apostrophe in a word other than a pronoun or determiner leaves no shape. -/
theorem shapeOfWords?_eq_none (h : Takes v shape ts) (hwords : ∀ t ∈ ts, IsWord t.lexeme.toList)
    (hquote : ∃ t ∈ ts, v.Apostrophised t.lexeme) :
    shapeOfWords? v (ts.map (·.lexeme.toList)) = none := by
  obtain ⟨t, ht, hpronoun, hdeterminer, hmem⟩ := hquote
  have hletters : isLetters t.lexeme.toList = false :=
    Bool.eq_false_iff.mpr fun hletters => (isLetters_iff (hwords t ht)).mp hletters hmem
  cases h with
  | pronoun hpronoun' =>
    obtain rfl := List.mem_singleton.mp ht
    rw [hpronoun] at hpronoun'
    cases hpronoun'
  | @common d u _ hdeterminer' _ =>
    -- the determiner is not the word in question, and it keeps the name from being a proper one
    have hproper : isProperWord v d.lexeme.toList = false := by
      simp [isProperWord, Vocabulary.isReserved, hdeterminer']
    simp only [List.mem_cons, List.not_mem_nil, or_false] at ht
    rcases ht with rfl | rfl
    · rw [hdeterminer] at hdeterminer'
      cases hdeterminer'
    · simp [shapeOfWords?, hletters, hproper]
  | proper hlength hall =>
    obtain ⟨hcapital, hreserved⟩ := hall t ht
    rw [shapeOfWords?_proper hlength hall, if_neg]
    intro hproper
    exact (isProperWord_iff (hwords t ht) hcapital hreserved).mp (hproper t ht) hmem
  | simple hreserved =>
    obtain rfl := List.mem_singleton.mp ht
    simp [shapeOfWords?, hpronoun, hletters]

end Name

/-- The text of a reference that was read from a line. If there is no comment in it, it has the words
that were taken from the line; up to the first comment it consists of words and blanks. -/
theorem text_of_variableRef {v : Vocabulary} (hv : v.Extended) {l : Line}
    {before taken rest : List Token} {ref : Variable}
    (htokens : l.tokens = before ++ (taken ++ rest))
    (href : Reader.variableRef ⟨v, l.stop⟩ (taken ++ rest) = .ok (ref, rest)) :
    (∃ shape, Takes v shape taken) ∧ (∀ t ∈ taken, IsWord t.lexeme.toList) ∧
      (ref.Undisturbed → Name.words ref.text = taken.map (·.lexeme.toList)) ∧
      ∀ c ∈ ref.text.toList.takeWhile (· ≠ '('), isWordChar c = true ∨ isBlank c = true := by
  obtain ⟨t, more, shape, htaken, rfl, hwords, htakes⟩ := Reader.takes_of_variableRef href
  obtain rfl := List.append_cancel_right htaken
  have hmem : ∀ u ∈ t :: more, u ∈ scanFrom l.place l.text := by
    intro u hu
    show u ∈ l.tokens
    rw [htokens]
    exact List.mem_append_right _ (List.mem_append_left _ hu)
  -- a contraction is no part of a name, for "is" is a keyword everywhere
  have hwritten : ∀ u ∈ t :: more, u.kind = .word ∧ u.Written := by
    intro u hu
    obtain ⟨hkind, hkeyword⟩ := hwords u hu
    refine ⟨hkind, (Token.written_of_mem (hmem u hu) hkind).resolve_left fun his => ?_⟩
    have hkeyword' : v.isKeyword "is" = true := hv.isKeyword (by decide)
    rw [his, hkeyword'] at hkeyword
    cases hkeyword
  have hchain : (t :: more).IsChain Token.Follows := by
    have hline := (Token.isChain_scanFrom l.place l.text).1
    rw [show scanFrom l.place l.text = l.tokens from rfl, htokens] at hline
    exact hline.right_of_append.left_of_append
  obtain ⟨text, honward, hend, htext, hfront⟩ := Token.exists_text hwritten hchain
  have hslice : (Reader.reference t (more.getLast?.getD t)).text = String.ofList text := by
    show String.ofList (Text.takeBytes _ _) = _
    rw [hend, honward, Nat.add_sub_cancel_left, Text.takeBytes_byteSize_append]
  rw [Variable.Undisturbed, Name.words, hslice, String.toList_ofList]
  exact ⟨⟨shape, htakes⟩, fun u hu => (hwritten u hu).2.word, htext, hfront⟩

/-- The text of a reference that was read from a line, if there is no comment in it, has the words
that were taken from the line. -/
theorem words_of_variableRef {v : Vocabulary} (hv : v.Extended) {l : Line}
    {before taken rest : List Token} {ref : Variable}
    (htokens : l.tokens = before ++ (taken ++ rest))
    (href : Reader.variableRef ⟨v, l.stop⟩ (taken ++ rest) = .ok (ref, rest))
    (hclear : ref.Undisturbed) :
    (∃ shape, Takes v shape taken) ∧ (∀ t ∈ taken, IsWord t.lexeme.toList) ∧
      Name.words ref.text = taken.map (·.lexeme.toList) := by
  obtain ⟨htakes, hwords, htext, -⟩ := text_of_variableRef hv htokens href
  exact ⟨htakes, hwords, htext hclear⟩

/-- Whether the text of a reference is of no shape, or of which one, by the tokens it was taken
from. -/
theorem shape?_of_variableRef {v : Vocabulary} (hv : v.Extended) {l : Line}
    {before taken rest : List Token} {ref : Variable}
    (htokens : l.tokens = before ++ (taken ++ rest))
    (href : Reader.variableRef ⟨v, l.stop⟩ (taken ++ rest) = .ok (ref, rest))
    (hclear : ref.Undisturbed) :
    (∀ shape, Name.shape? v ref.text = some shape ↔
        Takes v shape taken ∧ ¬∃ t ∈ taken, v.Apostrophised t.lexeme) ∧
      (Name.shape? v ref.text = none ↔ ∃ t ∈ taken, v.Apostrophised t.lexeme) := by
  obtain ⟨⟨shape, htakes⟩, hwords, htext⟩ := words_of_variableRef hv htokens href hclear
  unfold Name.shape?
  rw [htext]
  by_cases hquote : ∃ t ∈ taken, v.Apostrophised t.lexeme
  · simp [Name.shapeOfWords?_eq_none htakes hwords hquote, hquote]
  · rw [Name.shapeOfWords?_eq_some htakes hwords hquote]
    refine ⟨fun shape' => ⟨?_, ?_⟩, by simp [hquote]⟩
    · rintro ⟨rfl⟩
      exact ⟨htakes, hquote⟩
    · rintro ⟨htakes', -⟩
      rw [htakes.unique htakes']

/-- The reader and the compiler agree on names. Every reference of a program that was read, unless a
comment stands inside it, was taken from a line in one of the four shapes, and its text is of just
that shape; but it is of none exactly if one of its words other than a determiner or pronoun has an
apostrophe. So a reference without a comment inside is refused as malformed for an apostrophe
only. -/
theorem shape_agrees {v : Vocabulary} (hv : v.Extended) {source : List Char}
    {program : List Statement} (hparse : parse v source = .ok program) :
    (∀ stmt ∈ program, ∀ ref ∈ stmt.refs, ref.Undisturbed →
      ∃ l ∈ Line.split source, ∃ before taken rest,
        l.tokens = before ++ (taken ++ rest) ∧
        Reader.variableRef ⟨v, l.stop⟩ (taken ++ rest) = .ok (ref, rest) ∧
        (∃ shape, Takes v shape taken) ∧
        (∀ shape, Name.shape? v ref.text = some shape ↔
          Takes v shape taken ∧ ¬∃ t ∈ taken, v.Apostrophised t.lexeme) ∧
        (Name.shape? v ref.text = none ↔ ∃ t ∈ taken, v.Apostrophised t.lexeme)) ∧
    ∀ (o : Options) (text : String) (span : Span), o.vocabulary = v →
      compile o program = .error (.malformedName text span) → '(' ∉ text.toList →
        ∃ word ∈ Name.words text, v.Apostrophised (String.ofList word) := by
  constructor
  · intro stmt hstmt ref href hclear
    obtain ⟨l, hl, before, taken, rest, htokens, hread⟩ := exists_line_of_ref hparse hstmt href
    exact ⟨l, hl, before, taken, rest, htokens, hread,
      (words_of_variableRef hv htokens hread hclear).1,
      shape?_of_variableRef hv htokens hread hclear⟩
  · rintro o text span rfl hcompile hparen
    obtain ⟨s, hstatements⟩ := exists_session_of_error hcompile
    refine CompileM.failsWith_statements
      (P := fun e => ∀ text span, e = .malformedName text span → '(' ∉ text.toList →
        ∃ word ∈ Name.words text, o.vocabulary.Apostrophised (String.ofList word))
      ⟨by simp, by simp, by simp⟩ (by simp) program ?_ _ _ _ hstatements text span rfl hparen
    intro stmt hstmt ref href
    refine CompileM.failsWith_identify (fun hnone => ?_) (by simp)
    rintro _ _ ⟨⟩ hclear
    obtain ⟨l, -, before, taken, rest, htokens, hread⟩ := exists_line_of_ref hparse hstmt href
    obtain ⟨-, -, hwords⟩ := words_of_variableRef hv htokens hread hclear
    obtain ⟨t, ht, hquote⟩ := (shape?_of_variableRef hv htokens hread hclear).2.mp hnone
    refine ⟨t.lexeme.toList, ?_, by rwa [String.ofList_toList]⟩
    rw [hwords]
    exact List.mem_map_of_mem ht

/-- The standard words and one more pronoun, which has an apostrophe in it. -/
def southern : Vocabulary := (Vocabulary.standard.addPronoun "y'all").1

/-- A common name, a pronoun and a word that is no name. -/
def southernProgram : List Statement :=
  [.assign ⟨"My heart", ⟨1, 1, 8⟩⟩ (.literal .null ⟨1, 13, 4⟩) ⟨1, 1, 16⟩,
    .output .shout (.variable ⟨"y'all", ⟨2, 7, 5⟩⟩) ⟨2, 1, 11⟩,
    .output .shout (.variable ⟨"o'clock", ⟨3, 7, 7⟩⟩) ⟨3, 1, 13⟩]

/-- The pronoun is understood in spite of its apostrophe, the other word is not. -/
theorem shape_agrees_southern :
    parse southern "My heart is gone\nShout y'all\nShout o'clock".toList = .ok southernProgram ∧
      compile { vocabulary := southern } southernProgram =
        .error (.malformedName "o'clock" ⟨3, 7, 7⟩) ∧
      (∃ word ∈ Name.words "o'clock", southern.Apostrophised (String.ofList word)) ∧
      ∃ (r : Reader) (taken rest : List Token), Takes southern .pronoun taken ∧
        r.variableRef (taken ++ rest) = .ok (⟨"y'all", ⟨2, 7, 5⟩⟩, rest) := by
  have hparse : parse southern "My heart is gone\nShout y'all\nShout o'clock".toList =
      .ok southernProgram :=
    eq_ok_of_toOption (by decide +kernel)
  have hcompile : compile { vocabulary := southern } southernProgram =
      .error (.malformedName "o'clock" ⟨3, 7, 7⟩) :=
    eq_error_of_map (by decide +kernel)
  obtain ⟨hshapes, hmalformed⟩ := shape_agrees (.addPronoun _ .standard) hparse
  refine ⟨hparse, hcompile, hmalformed _ _ _ rfl hcompile (by decide), ?_⟩
  obtain ⟨l, -, before, taken, rest, -, hread, -, hsome, -⟩ :=
    hshapes (.output .shout (.variable ⟨"y'all", ⟨2, 7, 5⟩⟩) ⟨2, 1, 11⟩) (by simp [southernProgram])
      ⟨"y'all", ⟨2, 7, 5⟩⟩ (by simp [Statement.refs, Expr.refs]) (by decide)
  exact ⟨_, taken, rest, ((hsome .pronoun).mp (by decide)).1, hread⟩

end Rockstar
