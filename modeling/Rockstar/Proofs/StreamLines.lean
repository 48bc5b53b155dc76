import Rockstar.Proofs.Likeness
import Rockstar.Proofs.StreamReading
import Rockstar.Proofs.StreamScanning

/-!
# Sources are read line by line

The reader of the token stream takes a source line by line, though nothing tells it where a line
ends. From the beginning of a line it reads the statement that the line is read as, or finds the
errors that the line is read with; in both cases it comes to the token that ends the line and to
none behind it (`TokenStream.agree_line`, `TokenStream.Stuck.skipLine`). A whole run is therefore
made of the lines one by one (`TokenStream.readLines_lines`), and gives what `parse` gives
(`parseStream_eq`).
-/

namespace Rockstar

theorem Line.isTrailing_stop (l : Line) : l.stop.kind.isTrailing = false := by
  obtain ⟨number, start, text, isLast⟩ := l
  cases isLast <;> rfl

theorem Line.kind_stop_of_ne (l : Line) (h : l.stop.kind ≠ .endOfSource) :
    l.stop.kind = .newline := by
  obtain ⟨number, start, text, isLast⟩ := l
  cases isLast with
  | true => exact absurd rfl h
  | false => rfl

/-- A line with tokens is read as a whole, or its first error and the errors of the scanner behind
it are found. -/
theorem Line.statement?_of_wholeLine {v : Vocabulary} {l : Line} {u : Token} {us : List Token}
    (h : l.tokens = u :: us) :
    l.statement? v = some (match Reader.wholeLine ⟨v, l.stop⟩ l.tokens with
      | .ok stmt => .ok stmt
      | .error f => .error (f.error :: (f.rest.filterMap Token.fault?).map .ofScan)) := by
  rw [statement?, h]
  dsimp only
  cases Reader.wholeLine ⟨v, l.stop⟩ (u :: us) with
  | ok stmt => rfl
  | error f => rfl

theorem Line.kind_stop_ne_comma (l : Line) : l.stop.kind ≠ .comma := by
  obtain ⟨number, start, text, isLast⟩ := l
  cases isLast <;> exact TokenKind.noConfusion

theorem Line.isWordIn_stop (l : Line) {words : List String} : ¬l.stop.isWordIn words = true := by
  intro h
  obtain ⟨word, -, hword⟩ := List.any_eq_true.mp h
  exact l.isWord_stop hword

namespace Reader

theorem le_countSteps (word : String) (count : Nat) (last : Span) (ts : List Token) :
    count ≤ (countSteps word count last ts).1 := by
  fun_induction countSteps word count last ts with
  | case1 => exact Nat.le_refl _
  | case2 count last u ts hword ih => exact Nat.le_of_succ_le ih
  | case3 count last u ts hword hcomma ih => exact ih
  | case4 => exact Nat.le_refl _

/-- Where no step is counted, no token is passed, and the word is missing. -/
theorem word_of_countSteps (r : Reader) {word : String} {last : Span} {ts : List Token}
    (h : (countSteps word 0 last ts).1 = 0) :
    (countSteps word 0 last ts).2.2 = ts ∧
      r.word word ts = .error (r.failAt ts (missing s!"'{word}'")) := by
  cases ts with
  | nil => exact ⟨rfl, rfl⟩
  | cons u ts =>
    by_cases hword : u.isWord word = true
    · rw [countSteps, if_pos hword] at h
      have := le_countSteps word (0 + 1) u.span ts
      omega
    · rw [countSteps, if_neg hword, if_neg (by simp), Reader.word, if_neg hword]
      exact ⟨rfl, rfl⟩

end Reader

namespace TokenStream

/-! ## Ends of lines -/

section Ends

variable {t : TokenStream} {l : Line} {more ts : List Token} {u : Token} {s : Cursor}

/-- What is left of the line is passed, with all its errors, and nothing behind it. -/
theorem On.passLine (h : t.On l more ts s) :
    (t.passLine s).1 = ⟨ts, ts.filterMap Token.fault?⟩ ∧ t.On l more [] (t.passLine s).2.1 := by
  induction ts generalizing s with
  | nil =>
    rw [passLine_of_endsLine (by rw [h.tokenAt_stop, l.endsLine_stop])]
    exact ⟨rfl, h⟩
  | cons u ts ih =>
    obtain ⟨hpassed, hcursor⟩ := passLine_of_not_endsLine (t := t) (s := s)
      (by rw [h.tokenAt_head]; exact h.not_endsLine)
    obtain ⟨hrest, hon⟩ := ih h.settle_skip
    rw [hpassed, hcursor, hrest, h.tokenAt_head, h.faults_head]
    refine ⟨?_, hon⟩
    cases hfault : u.fault? with
    | none => rw [List.filterMap_cons_none hfault]; rfl
    | some e => rw [List.filterMap_cons_some hfault]; rfl

theorem On.run_consumeVerbatim (h : t.On l more ts s) :
    ∃ s', t.consumeVerbatim.run s = (.ok ts.getLast?, s') ∧ t.On l more [] s' := by
  obtain ⟨hpassed, hon⟩ := h.passLine
  refine ⟨_, ?_, hon⟩
  rw [StreamM.run, Step.outcome, consumeVerbatim]
  dsimp only
  rw [hpassed]

/-- After an error the errors of the scanner behind its place are found, and what is left of the
line is passed, up to its end. -/
theorem Stuck.skipLine {rest : List Token} (h : t.Stuck l more rest s) :
    (t.skipLine s).1 = (rest.filterMap Token.fault?).map .ofScan ∧
      ∃ s', t.On l more [] s' ∧ (t.skipLine s).2.1 = t.next s' := by
  obtain ⟨ts, s₀, hon, rfl, rfl⟩ := h
  unfold TokenStream.skipLine
  dsimp only
  cases ts with
  | nil =>
    obtain ⟨hpassed, hend⟩ := hon.passLine
    rw [Cursor.settle_of_eq_none hon.faults_stop, hpassed]
    exact ⟨rfl, _, hend, rfl⟩
  | cons u ts =>
    obtain ⟨hpassed, hcursor⟩ := passLine_of_not_endsLine (t := t) (s := s₀.settle)
      (by rw [Cursor.pos_settle, hon.tokenAt_head]; exact hon.not_endsLine)
    rw [Cursor.settle_of_eq_none (s := s₀.settle) s₀.faults_settle_pos] at hpassed hcursor
    obtain ⟨hrest, hend⟩ := hon.settle_skip.passLine
    rw [hpassed, hcursor, hrest, Cursor.pos_settle, s₀.faults_settle_pos]
    exact ⟨rfl, _, hend, rfl⟩

theorem head?_dropWhile_trailing (more : List Token) (hts : ∀ u ∈ ts, u.kind.endsLine = false) :
    (((ts ++ l.stop :: more).dropWhile (·.kind.isTrailing)).head?.getD t.last).kind.endsLine =
      ts.all (·.kind.isTrailing) := by
  induction ts with
  | nil =>
    rw [List.nil_append, List.dropWhile_cons_of_neg (by simp [l.isTrailing_stop])]
    exact l.endsLine_stop
  | cons u ts ih =>
    rw [List.cons_append, List.all_cons]
    cases htrailing : u.kind.isTrailing with
    | true =>
      rw [List.dropWhile_cons_of_pos (by rw [htrailing]), Bool.true_and]
      exact ih fun w hw => hts w (List.mem_cons_of_mem u hw)
    | false =>
      rw [List.dropWhile_cons_of_neg (by rw [htrailing]; exact Bool.false_ne_true)]
      exact hts u List.mem_cons_self

/-- Only punctuation stands between a position and the end of its line. -/
theorem On.endsLineAt (h : t.On l more ts s) :
    t.endsLineAt s.pos = ts.all (·.kind.isTrailing) := by
  rw [TokenStream.endsLineAt, h.ahead]
  exact head?_dropWhile_trailing more fun u => h.endsLine

end Ends

/-! ## Statements that begin with a word of their own -/

section Statements

variable {t : TokenStream} {l : Line} {more ts : List Token} {u : Token} {s : Cursor}

theorem agree_putStatement (hl : l ∈ Line.split t.source) (h : t.On l more (u :: ts) s) :
    t.Agree l more ((t.readerOf l).putStatement u.span ts) (t.putStatement.run s) := by
  rw [TokenStream.putStatement, h.run_advance_bind]
  exact (follows_expr hl).bind (fun value => (follows_word "into").bind fun _ =>
    (follows_variableRef hl).bind fun target _ _ hon => .ok hon) _ _ h.skip_one

theorem agree_letStatement (hl : l ∈ Line.split t.source) (h : t.On l more (u :: ts) s) :
    t.Agree l more ((t.readerOf l).letStatement u.span ts) (t.letStatement.run s) := by
  rw [TokenStream.letStatement, h.run_advance_bind]
  exact (follows_variableRef hl).bind (fun target => (follows_word "be").bind fun _ =>
    (follows_expr hl).bind fun value _ _ hon => .ok hon) _ _ h.skip_one

theorem agree_outputStatement (hl : l ∈ Line.split t.source) (verb : Verb)
    (h : t.On l more (u :: ts) s) :
    t.Agree l more ((t.readerOf l).outputStatement verb u.span ts)
      ((t.outputStatement verb).run s) := by
  rw [TokenStream.outputStatement, h.run_advance_bind]
  exact (follows_expr hl).bind (fun value _ _ hon => .ok hon) _ _ h.skip_one

theorem head?_any_isWord (ts : List Token) (word : String) :
    ts.head?.any (·.isWord word) = (ts.headD l.stop).isWord word := by
  cases ts with
  | nil => simpa using l.isWord_stop
  | cons u ts => rfl

theorem On.tokenAt_second (h : t.On l more (u :: ts) s) :
    t.tokenAt (s.pos + 1) = ts.headD l.stop := by
  cases ts with
  | nil => exact h.skip_one.tokenAt_stop
  | cons w ts => exact h.skip_one.tokenAt_head

/-- The words are counted on the line, with a look over its end behind a comma. -/
theorem follows_countSteps (word : String) (count : Nat) (last : Span) :
    t.Follows l more (t.countSteps word count last) fun ts =>
      let (count, last, rest) := Reader.countSteps word count last ts
      .ok ((count, last), rest) := by
  intro ts
  induction ts generalizing count last with
  | nil =>
    intro s h
    rw [run_countSteps, h.tokenAt_stop]
    dsimp only
    rw [if_neg l.isWord_stop, if_neg (by simp [l.kind_stop_ne_comma])]
    exact .ok h
  | cons u ts ih =>
    intro s h
    dsimp only [Reader.countSteps]
    rw [run_countSteps, h.tokenAt_head, h.tokenAt_second, head?_any_isWord (l := l)]
    dsimp only
    split
    next hword => exact ih _ _ _ h.skip_one
    next hword =>
      split
      next hcomma => exact ih _ _ _ h.skip_one
      next hcomma => exact .ok h

theorem agree_stepStatement (hl : l ∈ Line.split t.source) (direction : Direction)
    (h : t.On l more (u :: ts) s) :
    t.Agree l more ((t.readerOf l).stepStatement direction u.span ts)
      ((t.stepStatement direction).run s) := by
  rw [TokenStream.stepStatement, h.run_advance_bind]
  refine (follows_variableRef hl).bind (fun target ts s hon => ?_) _ _ h.skip_one
  obtain ⟨s', hsteps, hon'⟩ := (follows_countSteps direction.word 0 target.span _ _ hon).of_ok
  dsimp only
  rw [StreamM.run_bind, hsteps]
  dsimp only
  split
  next hzero =>
    obtain ⟨hrest, hmissing⟩ := Reader.word_of_countSteps (t.readerOf l) hzero
    rw [hrest] at hon'
    have hword := follows_word direction.word _ _ hon'
    rw [hmissing] at hword
    obtain ⟨s₁, hrun, hstuck⟩ := hword.of_error
    rw [StreamM.run_bind, hrun]
    exact .error hstuck
  next => exact .ok hon'

/-! ## Lines that begin with a variable -/

/-- The text that is cut from the source is the text that the token carries along. -/
theorem restOfLine_eq (hl : l ∈ Line.split t.source) (hu : u ∈ l.tokens) (hkind : u.kind = .word) :
    t.restOfLine u.endOffset = u.behind := by
  have hsound : u.fault? = none := Token.fault?_of_word hkind
  obtain ⟨before, slice, after, hsource, hstands⟩ :=
    standsAt_of_mem_tokenize ((Line.sublist_tokenize hl).mem hu) hsound
  have hrest := hstands.rest (by rw [hkind]; rfl)
  rw [← hsource] at hrest
  obtain ⟨cs, hcs, hbehind⟩ := Option.map_eq_some_iff.mp hrest
  rw [restOfLine, Text.restOfLine, hcs, Option.getD_some, hbehind]

theorem join_self (span : Span) : span.join span = span := by
  obtain ⟨line, col, len⟩ := span
  simp [Span.join, Span.endCol]

/-- The words of a poetic number take what is left of the line. -/
theorem agree_poetic (hl : l ∈ Line.split t.source) {verb first : Token} {rest : List Token}
    (hverb : verb ∈ l.tokens) (hkind : verb.kind = .word) (h : t.On l more (first :: rest) s) :
    t.Agree l more
      (match Poetic.number? verb.behind with
        | some x => .ok (.poetic x (String.ofList (Text.trim verb.behind))
            (Reader.spanTo first rest), [])
        | none => .error ⟨⟨.noLiteral (String.ofList (Text.trim verb.behind)),
            Reader.spanTo first rest⟩, []⟩)
      ((isValue.poetic t verb first).run s) := by
  obtain ⟨s', hrun, hon⟩ := h.run_consumeVerbatim
  have hspan : first.span.join ((first :: rest).getLast?.getD first).span =
      Reader.spanTo first rest := by
    unfold Reader.spanTo
    rw [List.getLast?_cons]
    cases rest.getLast? with
    | none => exact join_self first.span
    | some last => rfl
  rw [isValue.poetic, StreamM.run_bind, hrun]
  dsimp only
  rw [restOfLine_eq hl hverb hkind, hspan]
  cases Poetic.number? verb.behind with
  | some x => exact .ok hon
  | none => exact .error (hon.stuck hon.faults_stop)

theorem agree_isValue (hl : l ∈ Line.split t.source) {verb : Token} (hverb : verb ∈ l.tokens)
    (hkind : verb.kind = .word) (h : t.On l more ts s) :
    t.Agree l more ((t.readerOf l).isValue verb ts) ((t.isValue verb).run s) := by
  rw [StreamM.run, TokenStream.isValue]
  unfold Reader.isValue
  cases ts with
  | nil =>
    dsimp only
    rw [h.tokenAt_stop, if_pos l.endsLine_stop]
    exact .error (h.stuck h.faults_stop)
  | cons first rest =>
    dsimp only
    rw [h.tokenAt_head, if_neg h.not_endsLine]
    cases hfault : first.fault? with
    | some e =>
      have herror : t.Agree l more
          (.error ((t.readerOf l).failAt (first :: rest) fun u => .noLiteral u.lexeme))
          ((t.errorHere fun u => .noLiteral u.lexeme : StreamM Expr).run s) := h.errorHere rfl
      rw [Reader.failAt_cons, hfault] at herror
      rw [Token.fault?_eq_some_iff.mp hfault]
      exact herror
    | none =>
      have halone : t.endsLineAt (s.pos + 1) = rest.all (·.kind.isTrailing) :=
        h.skip_one.endsLineAt
      rw [if_neg (c := (none : Option ScanError).isSome = true) Bool.false_ne_true, halone]
      split
      next e he =>
        rw [Token.fault?_eq_some_iff.mpr he] at hfault
        cases hfault
      next =>
        generalize (if rest.all (·.kind.isTrailing) then first.literal? else none) = alone
        cases alone with
        | some value =>
          show t.Agree l more _ (StreamM.run _ s)
          rw [h.run_advance_bind]
          exact .ok h.skip_one
        | none => exact agree_poetic hl hverb hkind h

theorem run_spokenValue (hl : l ∈ Line.split t.source) {verb : Token} (hverb : verb ∈ l.tokens)
    (hkind : verb.kind = .word) (h : t.On l more ts s) :
    ∃ s', (t.spokenValue verb).run s = (.ok (Reader.spokenValue verb ts), s') ∧
      t.On l more [] s' := by
  obtain ⟨s', hrun, hon⟩ := h.run_consumeVerbatim
  refine ⟨s', ?_, hon⟩
  rw [TokenStream.spokenValue, StreamM.run_bind, hrun, restOfLine_eq hl hverb hkind]
  rfl

theorem follows_nameStatement (hl : l ∈ Line.split t.source) :
    t.Follows l more t.nameStatement (t.readerOf l).nameStatement := by
  refine (follows_variableRef hl).bind fun target ts s hon => ?_
  dsimp only
  rw [run_peek_bind, Nat.add_zero]
  cases ts with
  | nil =>
    rw [hon.tokenAt_stop, if_neg l.isWordIn_stop, if_neg l.isWordIn_stop]
    exact hon.errorHere rfl
  | cons verb rest =>
    rw [hon.tokenAt_head]
    dsimp only
    split
    next his =>
      rw [hon.run_advance_bind]
      exact (agree_isValue hl hon.mem (Token.kind_of_isWordIn his) hon.skip_one).bind
        fun value _ _ hon => .ok hon
    next his =>
      split
      next hsays =>
        obtain ⟨s', hrun, hon'⟩ :=
          run_spokenValue hl hon.mem (Token.kind_of_isWordIn hsays) hon.skip_one
        rw [hon.run_advance_bind, StreamM.run_bind, hrun]
        exact .ok hon'
      next hsays => exact hon.errorHere rfl

theorem follows_statement (hl : l ∈ Line.split t.source) :
    t.Follows l more t.statement (t.readerOf l).statement := by
  intro ts s h
  rw [TokenStream.statement, run_peek_bind, Nat.add_zero]
  unfold Reader.statement
  cases ts with
  | nil =>
    rw [h.tokenAt_stop]
    dsimp only
    rw [if_pos l.kind_stop_ne_word]
    exact h.errorHere rfl
  | cons first rest =>
    rw [h.tokenAt_head]
    dsimp only
    split
    · exact h.errorHere rfl
    split
    · exact agree_putStatement hl h
    split
    · exact agree_letStatement hl h
    cases Verb.ofWord? first.lexeme with
    | some verb => exact agree_outputStatement hl verb h
    | none =>
      dsimp only
      split
      · exact agree_stepStatement hl .up h
      split
      · exact agree_stepStatement hl .down h
      split
      · exact h.errorHere rfl
      · exact follows_nameStatement hl _ _ h

end Statements

/-! ## Whole lines -/

section Lines

variable {t : TokenStream} {l : Line} {more ts us : List Token} {u : Token} {s : Cursor}

/-- Punctuation and the end of the line are passed, or the first token behind the punctuation is one
too many. -/
theorem agree_finishLine (h : t.On l more ts s) :
    (ts.dropWhile (·.kind.isTrailing) = [] →
      ∃ s', t.On l more [] s' ∧ t.finishLine.run s = (.ok (), t.next s')) ∧
    (∀ u us, ts.dropWhile (·.kind.isTrailing) = u :: us →
      t.Agree l more (.error ((t.readerOf l).failAt (u :: us) fun w => .unexpectedToken w.describe))
        (t.finishLine.run s)) := by
  have hdrop : ts.drop (ts.takeWhile (·.kind.isTrailing)).length =
      ts.dropWhile (·.kind.isTrailing) := by
    calc ts.drop (ts.takeWhile (·.kind.isTrailing)).length
      _ = (ts.takeWhile (·.kind.isTrailing) ++ ts.dropWhile (·.kind.isTrailing)).drop
          (ts.takeWhile (·.kind.isTrailing)).length := by rw [List.takeWhile_append_dropWhile]
      _ = ts.dropWhile (·.kind.isTrailing) := List.drop_left
  have hon := h.skip (List.takeWhile_prefix (fun u : Token => u.kind.isTrailing)).length_le
  rw [hdrop] at hon
  rw [finishLine, StreamM.run_bind, h.run_passWhile l.isTrailing_stop]
  dsimp only
  rw [run_peek_bind, Nat.add_zero]
  constructor
  · intro hnil
    rw [hnil] at hon
    rw [hon.tokenAt_stop, if_pos l.endsLine_stop]
    exact ⟨_, hon, rfl⟩
  · intro u us hcons
    rw [hcons] at hon
    rw [hon.tokenAt_head, if_neg hon.not_endsLine]
    exact hon.errorHere rfl

theorem agree_line (hl : l ∈ Line.split t.source) (h : t.On l more ts s) :
    (∃ stmt s', (t.readerOf l).wholeLine ts = .ok stmt ∧ t.On l more [] s' ∧
      t.line.run s = (.ok stmt, t.next s')) ∨
    ∃ f s', (t.readerOf l).wholeLine ts = .error f ∧ t.Stuck l more f.rest s' ∧
      t.line.run s = (.error f.error, s') := by
  have hstatement := follows_statement hl _ _ h
  rw [line, StreamM.run_bind, Reader.wholeLine]
  cases hread : (t.readerOf l).statement ts with
  | error f =>
    rw [hread] at hstatement
    obtain ⟨s', hrun, hstuck⟩ := hstatement.of_error
    rw [hrun]
    exact .inr ⟨f, s', rfl, hstuck, rfl⟩
  | ok found =>
    obtain ⟨stmt, rest⟩ := found
    rw [hread] at hstatement
    obtain ⟨s₁, hrun, hon⟩ := hstatement.of_ok
    obtain ⟨hend, hmore⟩ := agree_finishLine hon
    rw [hrun]
    dsimp only
    rw [StreamM.run_bind]
    dsimp only [bind, Except.bind]
    cases hrest : rest.dropWhile (·.kind.isTrailing) with
    | nil =>
      obtain ⟨s', hon', hfinish⟩ := hend hrest
      rw [hfinish]
      exact .inl ⟨stmt, s', rfl, hon', rfl⟩
    | cons u us =>
      obtain ⟨s', hfinish, hstuck⟩ := (hmore u us hrest).of_error
      rw [hfinish]
      exact .inr ⟨_, s', rfl, hstuck, rfl⟩

/-! ## The whole stream -/

theorem cursor_passNewlines (hahead : t.tokens.drop s.pos = u :: us) (hu : u.kind ≠ .newline) :
    (t.passWhile (·.kind = .newline) s).cursor = s := by
  rw [cursor_passWhile, hahead, List.takeWhile_cons_of_neg (by simpa using hu)]
  rfl

theorem readLines_newline (hahead : t.tokens.drop s.pos = u :: us) (hu : u.kind = .newline) :
    t.readLines s = t.readLines (s.skip 1) := by
  have hcursor : (t.passWhile (·.kind = .newline) s).cursor =
      (t.passWhile (·.kind = .newline) (s.skip 1)).cursor := by
    rw [cursor_passWhile, cursor_passWhile, Cursor.pos_skip, ← List.drop_drop, hahead,
      List.takeWhile_cons_of_pos (by simpa using hu), List.drop_one, List.tail_cons,
      List.length_cons]
    refine Cursor.ext ?_ rfl
    rw [Cursor.pos_skip, Cursor.pos_skip, Cursor.pos_skip, Nat.add_assoc, Nat.add_comm 1]
  rw [readLines_eq, readLines_eq t (s.skip 1), hcursor]

theorem readLines_end (hahead : t.tokens.drop s.pos = u :: us) (hu : u.kind = .endOfSource) :
    t.readLines s = ([], []) := by
  have hhead : t.tokenAt s.pos = u := tokenAt_of_ahead hahead (n := 0) rfl
  rw [readLines_eq, cursor_passNewlines hahead (by rw [hu]; exact TokenKind.noConfusion)]
  dsimp only
  rw [hhead, if_pos hu]

/-- From the beginning of a line on, the line is read, and then what follows it. -/
theorem readLines_line (hl : l ∈ Line.split t.source) (h : t.On l more l.tokens s) :
    ∃ s', t.On l more [] s' ∧
      t.readLines s =
        (((l.statement? t.vocabulary).bind Except.toOption).toList ++ (t.readLines (t.next s')).1,
          (l.statement? t.vocabulary).elim [] lineErrors ++ (t.readLines (t.next s')).2) := by
  cases htokens : l.tokens with
  | nil =>
    -- a line without tokens is passed with the newlines, unless the source ends with it
    rw [htokens] at h
    have hnone : l.statement? t.vocabulary = none := by simp [Line.statement?, htokens]
    refine ⟨s, h, ?_⟩
    rw [hnone]
    show t.readLines s = t.readLines (t.next s)
    rw [next, h.tokenAt_stop]
    split
    next => rfl
    next hkind => exact readLines_newline h.ahead (l.kind_stop_of_ne hkind)
  | cons u us =>
    have hu : u ∈ l.tokens := by rw [htokens]; exact List.mem_cons_self
    have hhead : t.tokenAt s.pos = u := by
      rw [htokens] at h
      exact h.tokenAt_head
    have hcursor : (t.passWhile (·.kind = .newline) s).cursor = s := by
      refine cursor_passNewlines (htokens ▸ h.ahead) fun hkind => ?_
      have hends := h.endsLine hu
      rw [hkind] at hends
      cases hends
    rw [readLines_eq, hcursor]
    dsimp only
    rw [hhead, if_neg (h.kind_ne_endOfSource hu), Line.statement?_of_wholeLine htokens]
    rcases agree_line hl h with ⟨stmt, s', hwhole, hon, hrun⟩ | ⟨f, s₁, hwhole, hstuck, hrun⟩
    · rw [hrun]
      exact ⟨s', hon, by rw [hwhole]; rfl⟩
    · obtain ⟨hfound, s', hon, hskip⟩ := hstuck.skipLine
      rw [hrun]
      refine ⟨s', hon, ?_⟩
      dsimp only
      rw [hfound, hskip, hwhole]
      rfl

/-- From the beginning of lines on, they are read one by one. -/
theorem readLines_lines {number start : Nat} {lines : List Line}
    (hfollow : Line.Follow number start lines) (hlines : ∀ l ∈ lines, l ∈ Line.split t.source)
    (hahead : t.tokens.drop s.pos = lines.flatMap fun l => l.tokens ++ [l.stop])
    (hfaults : ∀ i, s.pos ≤ i → s.faults i = t.tokens[i]?.bind Token.fault?) :
    t.readLines s = (statementsOf t.vocabulary lines, errorsOf t.vocabulary lines) := by
  induction hfollow generalizing s with
  | @last number start text htext =>
    obtain ⟨s', hon, hread⟩ := readLines_line (hlines _ List.mem_cons_self)
      ⟨by rw [hahead, List.flatMap_singleton], hfaults, List.suffix_rfl⟩
    have hnext : t.next s' = s' := by
      rw [next, hon.tokenAt_stop]
      rfl
    rw [hread, hnext, readLines_end hon.ahead rfl, statementsOf_cons, errorsOf_cons]
    rfl
  | @next number start text lines htext hfollow ih =>
    obtain ⟨s', hon, hread⟩ := readLines_line (hlines _ List.mem_cons_self)
      ⟨by rw [hahead, List.flatMap_cons, List.append_assoc]; rfl, hfaults, List.suffix_rfl⟩
    have hnext : t.next s' = s'.skip 1 := by
      rw [next, hon.tokenAt_stop]
      rfl
    have hahead' : t.tokens.drop (s'.skip 1).pos = lines.flatMap fun l => l.tokens ++ [l.stop] := by
      rw [Cursor.pos_skip, ← List.drop_drop, hon.ahead]
      rfl
    have hrest := ih (fun l hl => hlines l (List.mem_cons_of_mem _ hl)) hahead'
      fun i hi => hon.faults i (Nat.le_trans (s'.pos_le_skip 1) hi)
    rw [hread, hnext, hrest, statementsOf_cons, errorsOf_cons]

end Lines

end TokenStream

/-- A source is read as one row of tokens as it is line by line. -/
theorem parseStream_eq (v : Vocabulary) (source : List Char) :
    parseStream v source = parse v source := by
  have hfollow : Line.Follow 1 0 (Line.split source) :=
    Line.follow_splitFrom 1 0 List.not_mem_nil source
  have hahead : (TokenStream.ofSource v source).tokens.drop 0 =
      (Line.split source).flatMap fun l => l.tokens ++ [l.stop] := scanSource_eq source
  have hread : (TokenStream.ofSource v source).readLines (TokenStream.ofSource v source).start =
      (statementsOf v (Line.split source), errorsOf v (Line.split source)) :=
    TokenStream.readLines_lines hfollow (fun l hl => hl) hahead fun i _ => rfl
  rw [parseStream, hread, parse_eq]

/-- Reading goes line by line, though it runs through one row of tokens. It gives what the lines
give, read one at a time. A source below another one is read as it is alone, further down, and
the other one as if nothing followed: together they are read if both are, and otherwise their
errors are those of the first one and behind them those of the second one, of the same kinds and
further down. A single line with a token on it, with or without a newline at its end, gives exactly
one statement, or at least one error and no statement; a line without a token gives neither. -/
theorem parseStream_append (v : Vocabulary) {above : List Char}
    (h : above = [] ∨ above.getLast? = some '\n') (below : List Char) :
    (∀ source, parseStream v source = parse v source) ∧
      parseStream v (above ++ below) =
        joinReadings (above.count '\n') (parseStream v above) (parseStream v below) ∧
      (∀ (k : Nat) (e : ParseError), (e.shift k).cause.kind = e.cause.kind ∧
        (e.shift k).span = { e.span with line := e.span.line + k }) ∧
      ∀ text ending : List Char, '\n' ∉ text → ending = [] ∨ ending = ['\n'] →
        let t := TokenStream.ofSource v (text ++ ending)
        ((∃ u ∈ t.tokens, u.kind.endsLine = false) →
          (∃ stmt, parseStream v (text ++ ending) = .ok [stmt]) ∨
            ∃ e es, parseStream v (text ++ ending) = .error (e :: es)) ∧
        ((∀ u ∈ t.tokens, u.kind.endsLine = true) → parseStream v (text ++ ending) = .ok []) := by
  refine ⟨parseStream_eq v, ?_, fun k e => ⟨e.kind_shift k, rfl⟩, ?_⟩
  · rw [parseStream_eq, parseStream_eq, parseStream_eq]
    exact parse_below v h below
  · intro text ending htext hending t
    have htokens : t.tokens = tokenize (text ++ ending) := scanSource_eq (text ++ ending)
    rw [parseStream_eq, htokens]
    exact parse_of_line v htext hending

/-- Four lines of which the first, the third and the fourth cannot be read: the errors of the lower
two stand on lines 1 and 2 when they are read alone. -/
theorem parseStream_append_two_sources :
    "Put 1 X\nShout X\n".toList.getLast? = some '\n' ∧
      parseStream .standard "Put 1 X\nShout X\n".toList =
        .error [⟨.expectedToken "'into'" "'X'", ⟨1, 7, 1⟩⟩] ∧
      parseStream .standard "Let into be 4\nX is \"open".toList =
        .error [⟨.expectedVariable "'into'", ⟨1, 5, 4⟩⟩,
          ⟨.scan (.unterminatedString ⟨2, 6, 1⟩), ⟨2, 6, 1⟩⟩] ∧
      parseStream .standard ("Put 1 X\nShout X\n".toList ++ "Let into be 4\nX is \"open".toList) =
        .error [⟨.expectedToken "'into'" "'X'", ⟨1, 7, 1⟩⟩,
          ⟨.expectedVariable "'into'", ⟨3, 5, 4⟩⟩,
          ⟨.scan (.unterminatedString ⟨4, 6, 1⟩), ⟨4, 6, 1⟩⟩] := by
  have hends : "Put 1 X\nShout X\n".toList.getLast? = some '\n' := by decide +kernel
  obtain ⟨hlines, happend, -, -⟩ :=
    parseStream_append .standard (.inr hends) "Let into be 4\nX is \"open".toList
  have habove : parseStream .standard "Put 1 X\nShout X\n".toList =
      .error [⟨.expectedToken "'into'" "'X'", ⟨1, 7, 1⟩⟩] := by
    rw [hlines]
    decide +kernel
  have hbelow : parseStream .standard "Let into be 4\nX is \"open".toList =
      .error [⟨.expectedVariable "'into'", ⟨1, 5, 4⟩⟩,
        ⟨.scan (.unterminatedString ⟨2, 6, 1⟩), ⟨2, 6, 1⟩⟩] := by
    rw [hlines]
    decide +kernel
  refine ⟨hends, habove, hbelow, ?_⟩
  rw [happend, habove, hbelow]
  decide +kernel

end Rockstar
