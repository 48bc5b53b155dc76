import Rockstar.Proofs.LineByLine
import Rockstar.Proofs.SpelledExpressions

/-!
# Printing and reading again

What was printed is read as it was meant (`parse_printLines`): every sentence gives one statement,
which is the one it spells but for the places. The line of a sentence is its first word and a row
of lexemes, over which each statement reader is followed; lines below each other are read each on
its own.
-/

namespace Rockstar

/-! ## Statements -/

namespace Reader

variable {r : Reader}

theorem word_layOut (r : Reader) {word : String} (h : foldCase word = word) (zs : List Lexeme)
    (place : Place) :
    ∃ t, r.word word (layOut place (.word word :: zs)) =
      .ok (t, layOut (place.past [.word word]) zs) := by
  rw [layOut_cons]
  exact ⟨_, if_pos (Lexeme.isWord_of_eq h _ _)⟩

/-- A name at the end of the line. -/
theorem variableRef_last (hv : r.vocabulary.Extended) {words : List String}
    (h : r.vocabulary.Names words) (place : Place) :
    ∃ span, r.variableRef (layOut place (words.map .word)) =
      .ok (⟨" ".intercalate words, span⟩, []) := by
  have hnil : Closed [] := by
    rintro y ⟨⟩
  obtain ⟨span, href⟩ := variableRef_layOut hv h hnil place
  rw [List.append_nil] at href
  exact ⟨span, href⟩

/-- An expression at the end of the line. -/
theorem expr_last (hv : r.vocabulary.Extended) {p : Phrase} (h : p.WellFormed r.vocabulary)
    (place : Place) : ∃ e, r.expr (layOut place p.lexemes) = .ok (e, []) ∧ e.unplaced = p.expr := by
  have hnil : Closed [] := by
    rintro y ⟨⟩
  obtain ⟨e, hread, he⟩ := expr_layOut hv h hnil (fun _ => rfl) place
  rw [List.append_nil] at hread
  exact ⟨e, hread, he⟩

theorem closed_word {word : String} (h : word ∈ closers) (ys : List Lexeme) :
    Closed (.word word :: ys) := by
  rintro y ⟨⟩
  exact ⟨word, h, rfl⟩

theorem putStatement_layOut (hv : r.vocabulary.Extended) {value : Phrase} {target : List String}
    (hvalue : value.WellFormed r.vocabulary) (htarget : r.vocabulary.Names target) (start : Span)
    (place : Place) :
    ∃ stmt, r.putStatement start (layOut place (Sentence.put value target).lexemes) =
        .ok (stmt, []) ∧ stmt.unplaced = (Sentence.put value target).statement := by
  have hend : ∀ place, operator? (layOut place (.word "into" :: target.map .word)) = none :=
    fun place => operator?_word (by decide) _ place
  obtain ⟨e, hread, he⟩ := expr_layOut hv hvalue (closed_word (by decide) _) hend place
  obtain ⟨t, hinto⟩ := word_layOut r (show foldCase "into" = "into" by decide) (target.map .word)
    (place.past value.lexemes)
  obtain ⟨span, href⟩ :=
    variableRef_last hv htarget ((place.past value.lexemes).past [.word "into"])
  refine ⟨.assign ⟨" ".intercalate target, span⟩ e (start.join span), ?_, ?_⟩
  · unfold putStatement
    rw [Sentence.lexemes, hread]
    show (r.word "into" _ >>= _) = _
    rw [hinto]
    show (r.variableRef _ >>= _) = _
    rw [href]
    rfl
  · exact congrArg (Statement.assign _ · _) he

theorem letStatement_layOut (hv : r.vocabulary.Extended) {value : Phrase} {target : List String}
    (htarget : r.vocabulary.Names target) (hvalue : value.WellFormed r.vocabulary) (start : Span)
    (place : Place) :
    ∃ stmt, r.letStatement start (layOut place (Sentence.letBe target value).lexemes) =
        .ok (stmt, []) ∧ stmt.unplaced = (Sentence.letBe target value).statement := by
  obtain ⟨span, href⟩ := variableRef_layOut hv htarget
    (closed_word (show "be" ∈ closers by decide) value.lexemes) place
  obtain ⟨t, hbe⟩ := word_layOut r (show foldCase "be" = "be" by decide) value.lexemes
    (place.past (target.map .word))
  obtain ⟨e, hread, he⟩ := expr_last hv hvalue ((place.past (target.map .word)).past [.word "be"])
  refine ⟨.assign ⟨" ".intercalate target, span⟩ e (start.join e.span), ?_, ?_⟩
  · unfold letStatement
    rw [Sentence.lexemes, href]
    show (r.word "be" _ >>= _) = _
    rw [hbe]
    show (r.expr _ >>= _) = _
    rw [hread]
    rfl
  · exact congrArg (Statement.assign _ · _) he

theorem outputStatement_layOut (hv : r.vocabulary.Extended) (verb : Verb) {value : Phrase}
    (hvalue : value.WellFormed r.vocabulary) (start : Span) (place : Place) :
    ∃ stmt, r.outputStatement verb start (layOut place (Sentence.output verb value).lexemes) =
        .ok (stmt, []) ∧ stmt.unplaced = (Sentence.output verb value).statement := by
  obtain ⟨e, hread, he⟩ := expr_last hv hvalue place
  refine ⟨.output verb e (start.join e.span), ?_, ?_⟩
  · unfold outputStatement
    rw [Sentence.lexemes, hread]
    rfl
  · exact congrArg (Statement.output _ · _) he

/-- The word of a step is counted, with a comma before each but the first. -/
theorem countSteps_layOut {word : String} (h : foldCase word = word) (more count : Nat)
    (last : Span) (place : Place) :
    ∃ span, countSteps word count last (layOut place (repeated word more)) =
      (count + (more + 1), span, []) := by
  induction more generalizing count last place with
  | zero =>
    rw [repeated, layOut_cons, countSteps, if_pos (Lexeme.isWord_of_eq h _ _)]
    exact ⟨_, rfl⟩
  | succ more ih =>
    have hhead : ∀ place, (layOut place (repeated word more)).head?.any (·.isWord word) = true := by
      intro place
      cases more <;> exact Lexeme.isWord_of_eq h _ _
    have hcount : count + 1 + (more + 1) = count + (more + 1 + 1) := by omega
    rw [repeated, layOut_cons, countSteps, if_pos (Lexeme.isWord_of_eq h _ _), layOut_cons,
      countSteps, if_neg (by simp [Token.isWord, Lexeme.token, Lexeme.kind]),
      if_pos (by simp [hhead, Lexeme.token, Lexeme.kind]), ← hcount]
    exact ih (count + 1) _ _

theorem stepStatement_layOut (hv : r.vocabulary.Extended) (direction : Direction)
    {target : List String} (htarget : r.vocabulary.Names target) {count : Nat} (hcount : 1 ≤ count)
    (start : Span) (place : Place) :
    ∃ stmt, r.stepStatement direction start
          (layOut place (Sentence.step direction target count).lexemes) = .ok (stmt, []) ∧
      stmt.unplaced = (Sentence.step direction target count).statement := by
  have hword : foldCase direction.word = direction.word ∧ direction.word ∈ closers := by
    cases direction <;> decide
  have hclosed : Closed (repeated direction.word (count - 1)) := by
    cases count - 1 <;> exact closed_word hword.2 _
  obtain ⟨span, href⟩ := variableRef_layOut hv htarget hclosed place
  obtain ⟨last, hsteps⟩ := countSteps_layOut hword.1 (count - 1) 0 span
    (place.past (target.map .word))
  have hsum : 0 + (count - 1 + 1) = count := by omega
  rw [hsum] at hsteps
  refine ⟨.step direction ⟨" ".intercalate target, span⟩ count (start.join last), ?_, rfl⟩
  unfold stepStatement
  rw [Sentence.lexemes, href]
  show (if (countSteps _ 0 span _).1 = 0 then _ else _) = _
  rw [hsteps, if_neg (by omega)]
  rfl

/-- A statement is read from the lexemes of a sentence as the sentence spells it. -/
theorem statement_layOut (hv : r.vocabulary.Extended) {s : Sentence}
    (h : s.WellFormed r.vocabulary) (place place' : Place) (behind : List Char) :
    ∃ stmt, r.statement ((Lexeme.word s.verb).token place' behind :: layOut place s.lexemes) =
        .ok (stmt, []) ∧ stmt.unplaced = s.statement := by
  generalize ht : (Lexeme.word s.verb).token place' behind = t
  have hkind : t.kind = .word := by
    rw [← ht]
    rfl
  have hlexeme : t.lexeme = s.verb := by
    rw [← ht]
    rfl
  have hword : ∀ word, t.isWord word = (foldCase s.verb == word) := by
    intro word
    rw [← ht, Lexeme.isWord_token]
  cases s with
  | put value target =>
    have hput : foldCase "Put" = "put" := by decide
    obtain ⟨stmt, hread, hstmt⟩ := putStatement_layOut hv h.1 h.2.1 t.span place
    refine ⟨stmt, ?_, hstmt⟩
    simp [statement, hkind, hword, Sentence.verb, hput, hread]
  | letBe target value =>
    have hlet : foldCase "Let" = "let" := by decide
    obtain ⟨stmt, hread, hstmt⟩ := letStatement_layOut hv h.1.1 h.2 t.span place
    refine ⟨stmt, ?_, hstmt⟩
    simp [statement, hkind, hword, Sentence.verb, hlet, hread]
  | output verb value =>
    have hverb : foldCase verb.print ≠ "put" ∧ foldCase verb.print ≠ "let" ∧
        Verb.ofWord? verb.print = some verb := by
      cases verb <;> decide
    obtain ⟨stmt, hread, hstmt⟩ := outputStatement_layOut hv verb h t.span place
    refine ⟨stmt, ?_, hstmt⟩
    simp [statement, hkind, hword, hlexeme, Sentence.verb, hverb, hread]
  | step direction target count =>
    obtain ⟨stmt, hread, hstmt⟩ := stepStatement_layOut hv direction h.1.1 h.2 t.span place
    refine ⟨stmt, ?_, hstmt⟩
    cases direction with
    | up =>
      have hbuild : foldCase "Build" = "build" ∧ Verb.ofWord? "Build" = none := by decide
      simp [statement, hkind, hword, hlexeme, Sentence.verb, Direction.verb, hbuild, hread]
    | down =>
      have hknock : foldCase "Knock" = "knock" ∧ Verb.ofWord? "Knock" = none := by decide
      simp [statement, hkind, hword, hlexeme, Sentence.verb, Direction.verb, hknock, hread]

end Reader

/-! ## Lines -/

theorem newline_not_mem_numeral {numeral : String} (h : IsNumeral numeral) :
    '\n' ∉ numeral.toList := by
  have hdigits : ∀ cs : List Char, (∀ d ∈ cs, isDigit d = true) → '\n' ∉ cs := by
    intro cs hcs hmem
    exact absurd (hcs _ hmem) (by decide)
  obtain ⟨whole, -, hwhole, hnumeral | ⟨fraction, -, hfraction, hnumeral⟩⟩ := h
  · rw [hnumeral]
    exact hdigits whole hwhole
  · rw [hnumeral]
    simp [hdigits whole hwhole, hdigits fraction hfraction]

theorem Lexeme.newline_not_mem {x : Lexeme} (h : x.Valid) : '\n' ∉ x.gap ++ x.chars := by
  have hgap : '\n' ∉ x.gap := by cases x <;> simp [gap]
  have hchars : '\n' ∉ x.chars := by
    cases x with
    | word w =>
      intro hmem
      exact absurd (h.1.isWordChar _ hmem) (by decide)
    | numeral n => exact newline_not_mem_numeral h
    | quoted body => simpa [chars] using h.2
    | comma => decide
  simp [hgap, hchars]

theorem newline_not_mem_spaced {xs : List Lexeme} (h : ∀ x ∈ xs, x.Valid) :
    '\n' ∉ spaced xs := by
  intro hmem
  obtain ⟨x, hx, hmem⟩ := List.mem_flatMap.mp hmem
  exact Lexeme.newline_not_mem (h x hx) hmem

namespace Sentence

variable {v : Vocabulary} {s : Sentence}

theorem newline_not_mem_print (h : s.WellFormed v) : '\n' ∉ s.print.toList := by
  obtain ⟨hverb, hlexemes⟩ := s.valid_lexemes h
  rw [s.print_eq h, List.mem_append, not_or]
  have hword := Lexeme.newline_not_mem hverb
  rw [List.mem_append, not_or] at hword
  exact ⟨hword.2, newline_not_mem_spaced hlexemes⟩

/-- A line with a printed sentence is read as the statement it spells. -/
theorem statement?_print (hv : v.Extended) (h : s.WellFormed v) {l : Line}
    (hl : l.text = s.print.toList) :
    ∃ stmt, l.statement? v = some (.ok stmt) ∧ stmt.unplaced = s.statement := by
  obtain ⟨hverb, hlexemes⟩ := s.valid_lexemes h
  have htokens : l.tokens = (Lexeme.word s.verb).token l.place (spaced s.lexemes) ::
      layOut (l.place.advance (Text.byteSize s.verb.toList)) s.lexemes := by
    rw [Line.tokens, hl, s.print_eq h]
    rw [show s.verb.toList = (Lexeme.word s.verb).chars from rfl,
      scanFrom_lexeme hverb (ends_spaced _), scanFrom_spaced hlexemes]
  obtain ⟨stmt, hread, hstmt⟩ := Reader.statement_layOut (r := ⟨v, l.stop⟩) hv h
    (l.place.advance (Text.byteSize s.verb.toList)) l.place (spaced s.lexemes)
  have hwhole : Reader.wholeLine ⟨v, l.stop⟩ l.tokens = .ok stmt := by
    unfold Reader.wholeLine
    rw [htokens, hread]
    rfl
  refine ⟨stmt, ?_, hstmt⟩
  unfold Line.statement?
  rw [htokens] at hwhole ⊢
  dsimp only
  rw [hwhole]

/-- A printed sentence is read alone, with or without a newline behind it. -/
theorem parse_print (hv : v.Extended) (h : s.WellFormed v) {ending : List Char}
    (hending : ending = [] ∨ ending = ['\n']) :
    ∃ stmt, parse v (s.print.toList ++ ending) = .ok [stmt] ∧ stmt.unplaced = s.statement := by
  obtain ⟨isLast, more, hsplit, hmore⟩ := split_of_line (newline_not_mem_print h) hending
  obtain ⟨stmt, hline, hstmt⟩ :=
    statement?_print hv h (show (Line.mk 1 0 s.print.toList isLast).text = _ from rfl)
  refine ⟨stmt, ?_, hstmt⟩
  unfold parse
  rw [hsplit, List.filterMap_cons, hline, filterMap_of_blank v hmore]
  rfl

end Sentence

/-- Reading undoes printing. Sentences that are printed, each on a line of its own, are read as the
statements they spell, in the same order, but for the places, in every vocabulary that extends the
standard one and with or without a newline at the end. -/
theorem parse_printLines {v : Vocabulary} (hv : v.Extended) {sentences : List Sentence}
    (h : ∀ s ∈ sentences, s.WellFormed v) {ending : List Char}
    (hending : ending = [] ∨ ending = ['\n']) :
    ∃ program, parse v ((printLines sentences).toList ++ ending) = .ok program ∧
      program.map Statement.unplaced = sentences.map Sentence.statement := by
  induction sentences with
  | nil =>
    obtain ⟨isLast, more, hsplit, hmore⟩ := split_of_line List.not_mem_nil hending
    refine ⟨[], ?_, rfl⟩
    have hblank : ∀ l ∈ Line.split ([] ++ ending), l.text = [] := by
      intro l hl
      rw [hsplit] at hl
      rcases List.mem_cons.mp hl with rfl | hmem
      · rfl
      · exact hmore l hmem
    show parse v ([] ++ ending) = _
    unfold parse
    rw [filterMap_of_blank v hblank]
    rfl
  | cons s sentences ih =>
    obtain ⟨program, hprogram, hstatements⟩ := ih fun s' hs' => h s' (by simp [hs'])
    cases sentences with
    | nil =>
      obtain ⟨stmt, hread, hstmt⟩ := s.parse_print hv (h s (by simp)) hending
      exact ⟨[stmt], by simpa [printLines] using hread, by simp [hstmt]⟩
    | cons s' sentences =>
      -- the first line is read on its own, and the others below it
      obtain ⟨stmt, hread, hstmt⟩ := s.parse_print hv (h s (by simp)) (.inr rfl)
      have hprint : (printLines (s :: s' :: sentences)).toList ++ ending =
          (s.print.toList ++ ['\n']) ++ ((printLines (s' :: sentences)).toList ++ ending) := by
        simp [printLines]
      refine ⟨stmt :: program.map (Statement.shift 1), ?_, ?_⟩
      · have hcount : (s.print.toList ++ ['\n']).count '\n' = 1 := by
          rw [List.count_append,
            List.count_eq_zero.mpr (Sentence.newline_not_mem_print (h s (by simp)))]
          rfl
        rw [hprint, parse_below v (.inr (by simp)), hread, hprogram, hcount]
        rfl
      · have hshift : (program.map (Statement.shift 1)).map Statement.unplaced =
            program.map Statement.unplaced := by
          rw [List.map_map]
          exact List.map_congr_left fun stmt _ => stmt.unplaced_shift 1
        rw [List.map_cons, hstmt, hshift, hstatements]
        rfl

/-- Two sentences with a name that reads like the beginning of a comparison. -/
def anthem : List Sentence :=
  [.put (.binary (.logic .or) (.binary (.equality true) (.name ["it"]) (.name ["greater"]))
      (.negation (.constant "Nothing" .null))) ["Big", "Daddy"],
    .step .up ["y'all"] 2]

theorem wellFormed_anthem : ∀ s ∈ anthem, s.WellFormed southern := by
  have hit : southern.Spells ["it"] := ⟨.pronoun (by decide) (by decide), by decide⟩
  have hyall : southern.Spells ["y'all"] := ⟨.pronoun (by decide) (by decide), by decide⟩
  have hgreater : southern.Spells ["greater"] := ⟨.simple (by decide) (by decide), by decide⟩
  have hdaddy : southern.Spells ["Big", "Daddy"] := ⟨.proper (by simp) (by decide), by decide⟩
  have hnothing : Vocabulary.constant? "Nothing" = some .null := by decide
  intro s hs
  simp only [anthem, List.mem_cons, List.not_mem_nil, or_false] at hs
  rcases hs with rfl | rfl
  · refine ⟨⟨⟨hit, hgreater, ?_, ?_, ?_⟩, ⟨hnothing, rfl⟩, ?_, ?_, ?_⟩, hdaddy⟩ <;>
      simp [Phrase.root?, Phrase.isNegated, Phrase.seed, BinaryOp.level]
  · exact ⟨hyall, by decide⟩

/-- The sentences are printed as expected, and read again. -/
theorem parse_printLines_anthem :
    printLines anthem = "Put it is greater or not Nothing into Big Daddy\nBuild y'all up, up" ∧
      ∃ program, parse southern (printLines anthem).toList = .ok program ∧
        program.map Statement.unplaced = anthem.map Sentence.statement := by
  refine ⟨by decide, ?_⟩
  obtain ⟨program, hparse, hprogram⟩ :=
    parse_printLines (.addPronoun _ .standard) wellFormed_anthem (.inl rfl)
  rw [List.append_nil] at hparse
  exact ⟨program, hparse, hprogram⟩

end Rockstar
