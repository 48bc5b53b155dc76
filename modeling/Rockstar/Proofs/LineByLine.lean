import Rockstar.Proofs.Shifting

/-!
# Sources are read line by line

Two sources, one below the other, are read as each of them is read alone (`parse_below`): the
statements or errors of the lower one follow those of the upper one, shifted down by its lines. No
line reaches into the next one, and a line that cannot be read does not disturb the others. Each
line with a token on it gives one statement, or errors and no statement; a line without one gives
neither (`parse_of_line`).
-/

namespace Rockstar

/-! ## Lines of two sources -/

namespace Line

theorem splitFrom_shift (k b number start : Nat) (seen cs : List Char) :
    splitFrom (number + k) (start + b) seen [] cs =
      (splitFrom number start seen [] cs).map (shift k b) := by
  induction cs generalizing number start seen with
  | nil => rfl
  | cons c cs ih =>
    simp only [splitFrom]
    split
    · have hnumber : number + k + 1 = number + 1 + k := by omega
      have hstart : start + b + Text.byteSize seen + 1 = start + Text.byteSize seen + 1 + b := by
        omega
      rw [splitFrom_done, splitFrom_done _ _ _ [_], List.map_append, hnumber, hstart, ih]
      rfl
    · exact ih number start (c :: seen)

/-- A text that ends in a newline ends in an empty line, in whose place the lines of another text
can stand. -/
theorem splitFrom_above (number start : Nat) (seen above : List Char)
    (h : above = [] ∧ seen = [] ∨ above.getLast? = some '\n') :
    ∃ lines n m, splitFrom number start seen [] above = lines ++ [⟨n, m, [], true⟩] ∧
      ∀ below, splitFrom number start seen [] (above ++ below) =
        lines ++ splitFrom (number + above.count '\n')
          (start + Text.byteSize seen + Text.byteSize above) [] [] below := by
  induction above generalizing number start seen with
  | nil =>
    obtain ⟨-, rfl⟩ | hlast := h
    · exact ⟨[], number, start, rfl, fun below => rfl⟩
    · cases hlast
  | cons c cs ih =>
    replace h : (c :: cs).getLast? = some '\n' := by
      rcases h with ⟨hnil, -⟩ | hlast
      · cases hnil
      · exact hlast
    by_cases hc : c = '\n'
    · -- the current line ends here, and the next one begins
      subst hc
      have hrest : cs = [] ∧ ([] : List Char) = [] ∨ cs.getLast? = some '\n' := by
        cases cs with
        | nil => exact .inl ⟨rfl, rfl⟩
        | cons d ds => exact .inr (by simpa using h)
      obtain ⟨lines, n, m, hsplit, happend⟩ :=
        ih (number + 1) (start + Text.byteSize seen + 1) [] hrest
      refine ⟨⟨number, start, seen.reverse, false⟩ :: lines, n, m, ?_, fun below => ?_⟩
      · rw [splitFrom, if_pos rfl, splitFrom_done, hsplit]
        rfl
      · have hnumber : number + ('\n' :: cs).count '\n' = number + 1 + cs.count '\n' := by
          rw [List.count_cons_self]
          omega
        have hstart : start + Text.byteSize seen + Text.byteSize ('\n' :: cs) =
            start + Text.byteSize seen + 1 + Text.byteSize ([] : List Char) +
              Text.byteSize cs := by
          have hsize : '\n'.utf8Size = 1 := rfl
          simp only [Text.byteSize_cons, Text.byteSize_nil, hsize]
          omega
        rw [List.cons_append, splitFrom, if_pos rfl, splitFrom_done, happend, hnumber, hstart]
        rfl
    · have hrest : cs = [] ∧ c :: seen = [] ∨ cs.getLast? = some '\n' := by
        cases cs with
        | nil => exact absurd (by simpa using h) hc
        | cons d ds => exact .inr (by simpa using h)
      obtain ⟨lines, n, m, hsplit, happend⟩ := ih number start (c :: seen) hrest
      refine ⟨lines, n, m, ?_, fun below => ?_⟩
      · rw [splitFrom, if_neg hc, hsplit]
      · have hstart : start + Text.byteSize seen + Text.byteSize (c :: cs) =
            start + Text.byteSize (c :: seen) + Text.byteSize cs := by
          simp only [Text.byteSize_cons]
          omega
        rw [List.cons_append, splitFrom, if_neg hc, happend, List.count_cons_of_ne hc, hstart]

/-- The lines of two sources, one below the other. -/
theorem split_append {above : List Char} (h : above = [] ∨ above.getLast? = some '\n') :
    ∃ lines n m, split above = lines ++ [⟨n, m, [], true⟩] ∧
      ∀ below, split (above ++ below) =
        lines ++ (split below).map (shift (above.count '\n') (Text.byteSize above)) := by
  obtain ⟨lines, n, m, hsplit, happend⟩ :=
    splitFrom_above 1 0 [] above (h.imp (fun hnil => ⟨hnil, rfl⟩) id)
  refine ⟨lines, n, m, hsplit, fun below => ?_⟩
  rw [split, happend, Text.byteSize_nil, splitFrom_shift, Nat.zero_add]
  rfl

theorem statement?_empty (v : Vocabulary) (n m : Nat) (isLast : Bool) :
    (Line.mk n m [] isLast).statement? v = none := by
  simp [statement?, tokens, scanFrom]

end Line

/-! ## Statements and errors of lines -/

section Lines

variable (v : Vocabulary)

theorem errorsOf_append (lines lines' : List Line) :
    errorsOf v (lines ++ lines') = errorsOf v lines ++ errorsOf v lines' := by
  simp [errorsOf, List.filterMap_append]

theorem statementsOf_append (lines lines' : List Line) :
    statementsOf v (lines ++ lines') = statementsOf v lines ++ statementsOf v lines' := by
  simp [statementsOf, List.filterMap_append]

theorem errorsOf_shift (k b : Nat) (lines : List Line) :
    errorsOf v (lines.map (Line.shift k b)) = (errorsOf v lines).map (ParseError.shift k) := by
  induction lines with
  | nil => rfl
  | cons l lines ih =>
    rw [List.map_cons, errorsOf_cons, errorsOf_cons, ih, Line.statement?_shift, List.map_append]
    rcases l.statement? v with _ | _ | _ <;> rfl

theorem statementsOf_shift (k b : Nat) (lines : List Line) :
    statementsOf v (lines.map (Line.shift k b)) =
      (statementsOf v lines).map (Statement.shift k) := by
  induction lines with
  | nil => rfl
  | cons l lines ih =>
    rw [List.map_cons, statementsOf_cons, statementsOf_cons, ih, Line.statement?_shift,
      List.map_append]
    rcases l.statement? v with _ | _ | _ <;> rfl

end Lines

/-- What two sources are read as together, where the second one stands `k` lines further down: the
statements of both, or else the errors of both. -/
def joinReadings (k : Nat) :
    Except (List ParseError) (List Statement) → Except (List ParseError) (List Statement) →
      Except (List ParseError) (List Statement)
  | .ok p, .ok q => .ok (p ++ q.map (Statement.shift k))
  | .ok _, .error es => .error (es.map (ParseError.shift k))
  | .error es, .ok _ => .error es
  | .error es, .error es' => .error (es ++ es'.map (ParseError.shift k))

/-- A source below another one is read on its own. -/
theorem parse_below (v : Vocabulary) {above : List Char}
    (h : above = [] ∨ above.getLast? = some '\n') (below : List Char) :
    parse v (above ++ below) =
      joinReadings (above.count '\n') (parse v above) (parse v below) := by
  obtain ⟨lines, n, m, hsplit, happend⟩ := Line.split_append h
  have hempty : [(⟨n, m, [], true⟩ : Line)].filterMap (Line.statement? v) = [] := by
    simp [Line.statement?_empty]
  have herrors : errorsOf v (Line.split above) = errorsOf v lines := by
    rw [hsplit, errorsOf_append, errorsOf, errorsOf, hempty, List.flatMap_nil, List.append_nil]
  have hstatements : statementsOf v (Line.split above) = statementsOf v lines := by
    rw [hsplit, statementsOf_append, statementsOf, statementsOf, hempty, List.filterMap_nil,
      List.append_nil]
  rw [parse_eq, parse_eq, parse_eq, happend, herrors, hstatements, errorsOf_append,
    statementsOf_append, errorsOf_shift, statementsOf_shift]
  -- whether one of the two has errors decides, and the four cases are those of `joinReadings`
  cases errorsOf v lines with
  | nil => cases errorsOf v (Line.split below) <;> rfl
  | cons e es => cases errorsOf v (Line.split below) <;> simp [joinReadings]

/-! ## Single lines -/

theorem Piece.endsLine_tokens {c : Char} {cs : List Char} {place : Place}
    {onward behind : List Char} {t : Token}
    (h : t ∈ (first c cs).tokens place onward behind) : t.kind.endsLine = false := by
  cases hpiece : first c cs with
  | blank d =>
    rw [hpiece] at h
    cases h
  | comment body =>
    rw [hpiece] at h
    cases h
  | symbol kind d =>
    have hkind := kind_of_symbol hpiece
    rw [hpiece] at h
    obtain rfl := List.mem_singleton.mp h
    simp only [List.mem_cons, List.not_mem_nil, or_false] at hkind
    rcases hkind with rfl | rfl | rfl | rfl | rfl | rfl <;> rfl
  | contraction stem s =>
    rw [hpiece] at h
    simp only [tokens, List.mem_cons, List.not_mem_nil, or_false] at h
    rcases h with rfl | rfl <;> rfl
  | _ =>
    rw [hpiece] at h
    obtain rfl := List.mem_singleton.mp h
    rfl

/-- Only the token behind the last character ends a line. -/
theorem Line.endsLine_tokens {l : Line} {t : Token} (h : t ∈ l.tokens) :
    t.kind.endsLine = false := by
  have hscan : ∀ place cs, t ∈ scanFrom place cs → t.kind.endsLine = false := by
    intro place cs ht
    fun_induction scanFrom place cs with
    | case1 place => cases ht
    | case2 place c cs piece ih =>
      rcases List.mem_append.mp ht with hfirst | hrest
      · exact Piece.endsLine_tokens hfirst
      · exact ih hrest
  exact hscan _ _ h

theorem Line.endsLine_stop (l : Line) : l.stop.kind.endsLine = true := by
  obtain ⟨number, start, text, isLast⟩ := l
  cases isLast <;> rfl

/-- A line with a token gives a statement or at least one error. -/
theorem Line.statement?_of_tokens (v : Vocabulary) {l : Line} (h : l.tokens ≠ []) :
    (∃ stmt, l.statement? v = some (.ok stmt)) ∨
      ∃ e es, l.statement? v = some (.error (e :: es)) := by
  unfold statement?
  cases htokens : l.tokens with
  | nil => exact absurd htokens h
  | cons t ts =>
    dsimp only
    split
    next stmt _ => exact .inl ⟨stmt, rfl⟩
    next f _ => exact .inr ⟨_, _, rfl⟩

/-- A text without a newline is a single line, with or without a newline behind it. -/
theorem split_of_line {text ending : List Char} (htext : '\n' ∉ text)
    (hending : ending = [] ∨ ending = ['\n']) :
    ∃ isLast more, Line.split (text ++ ending) = ⟨1, 0, text, isLast⟩ :: more ∧
      ∀ l ∈ more, l.text = [] := by
  rcases hending with rfl | rfl
  · refine ⟨true, [], ?_, by simp⟩
    rw [Line.split, Line.splitFrom_append 1 0 [] htext, Line.splitFrom]
    simp
  · refine ⟨false, [⟨2, Text.byteSize text + 1, [], true⟩], ?_, by simp⟩
    rw [Line.split, Line.splitFrom_append 1 0 [] htext, Line.splitFrom, if_pos rfl,
      Line.splitFrom_done, Line.splitFrom, List.append_nil, Text.byteSize_reverse]
    simp

theorem tokens_of_blank {l : Line} (h : l.text = []) : l.tokens = [] := by
  rw [Line.tokens, h, scanFrom]

theorem filterMap_of_blank (v : Vocabulary) {lines : List Line} (h : ∀ l ∈ lines, l.text = []) :
    lines.filterMap (Line.statement? v) = [] := by
  rw [List.filterMap_eq_nil_iff]
  intro l hl
  simp [Line.statement?, tokens_of_blank (h l hl)]

/-- A single line with a token on it, with or without a newline at its end, gives exactly one
statement, or at least one error and no statement; a line without a token gives neither. -/
theorem parse_of_line (v : Vocabulary) {text ending : List Char} (htext : '\n' ∉ text)
    (hending : ending = [] ∨ ending = ['\n']) :
    ((∃ t ∈ tokenize (text ++ ending), t.kind.endsLine = false) →
      (∃ stmt, parse v (text ++ ending) = .ok [stmt]) ∨
        ∃ e es, parse v (text ++ ending) = .error (e :: es)) ∧
    ((∀ t ∈ tokenize (text ++ ending), t.kind.endsLine = true) →
      parse v (text ++ ending) = .ok []) := by
  obtain ⟨isLast, more, hsplit, hmore⟩ := split_of_line htext hending
  generalize hline : Line.mk 1 0 text isLast = l at hsplit
  have hnone := filterMap_of_blank v hmore
  constructor
  · rintro ⟨t, ht, hends⟩
    have htokens : l.tokens ≠ [] := by
      intro hnil
      rw [tokenize, hsplit] at ht
      obtain ⟨l', hl', ht⟩ := List.mem_flatMap.mp ht
      have hl'nil : l'.tokens = [] := by
        rcases List.mem_cons.mp hl' with rfl | hmem
        · exact hnil
        · exact tokens_of_blank (hmore l' hmem)
      rw [hl'nil, List.nil_append, List.mem_singleton] at ht
      rw [ht, Line.endsLine_stop] at hends
      cases hends
    unfold parse
    rw [hsplit, List.filterMap_cons, hnone]
    rcases Line.statement?_of_tokens v htokens with ⟨stmt, hstmt⟩ | ⟨e, es, herror⟩
    · rw [hstmt]
      exact .inl ⟨stmt, rfl⟩
    · rw [herror]
      exact .inr ⟨e, es, by simp [lineErrors]⟩
  · intro hall
    have hnil : l.tokens = [] := by
      rw [List.eq_nil_iff_forall_not_mem]
      intro t ht
      have hends := hall t (by
        rw [tokenize, hsplit, List.flatMap_cons]
        simp [ht])
      rw [Line.endsLine_tokens ht] at hends
      cases hends
    unfold parse
    rw [hsplit, List.filterMap_cons, hnone]
    simp [Line.statement?, hnil]

end Rockstar
