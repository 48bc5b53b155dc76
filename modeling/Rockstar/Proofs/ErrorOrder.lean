import Mathlib.Data.List.Nodup
import Rockstar.Proofs.Faults

/-!
# Errors in source order

A line that cannot be read is left with the error of its reader and the faults behind it. These
errors have ascending columns, and all but the first are faults (`Line.reports`). Lines are read one
after the other, which gives the order of all errors of a source and the number of times that each
fault is reported (`faults_reported_in_order`).
-/

namespace Rockstar

/-- The first span begins before the second one, on an earlier line or further left. -/
def Span.Before (a b : Span) : Prop := a.line < b.line ∨ a.line = b.line ∧ a.col < b.col

instance (a b : Span) : Decidable (a.Before b) := by
  unfold Span.Before
  infer_instance

theorem Span.Before.ne {a b : Span} (h : a.Before b) : a ≠ b := by
  rintro rfl
  rcases h with hline | ⟨-, hcol⟩
  · exact Nat.lt_irrefl _ hline
  · exact Nat.lt_irrefl _ hcol

/-! ## The errors of a line -/

theorem Piece.span_of_fault {c : Char} {cs : List Char} {place : Place} {onward behind : List Char}
    {t : Token} (ht : t ∈ (first c cs).tokens place onward behind) {e : ScanError}
    (he : t.fault? = some e) : e.span = t.span := by
  cases hpiece : first c cs with
  | blank d =>
    rw [hpiece] at ht
    cases ht
  | comment body =>
    rw [hpiece] at ht
    cases ht
  | symbol kind d =>
    have hkind := kind_of_symbol hpiece
    rw [hpiece] at ht
    obtain rfl := List.mem_singleton.mp ht
    rw [Token.fault?_eq_some_iff] at he
    obtain rfl : kind = .fault e := he
    simp at hkind
  | contraction stem s =>
    rw [hpiece] at ht
    simp only [tokens, List.mem_cons, List.not_mem_nil, or_false] at ht
    rcases ht with rfl | rfl <;> cases he
  | openComment _ | openString _ | stray _ =>
    rw [hpiece] at ht
    obtain rfl := List.mem_singleton.mp ht
    cases he
    rfl
  | string _ | number _ | word _ =>
    rw [hpiece] at ht
    obtain rfl := List.mem_singleton.mp ht
    cases he

namespace Line

/-- A fault has the span of its error. -/
theorem span_of_fault {l : Line} {t : Token} (ht : t ∈ l.tokens) {e : ScanError}
    (he : t.fault? = some e) : e.span = t.span := by
  have hscan : ∀ place cs, t ∈ scanFrom place cs → e.span = t.span := by
    intro place cs ht
    fun_induction scanFrom place cs with
    | case1 place => cases ht
    | case2 place c cs piece ih =>
      rcases List.mem_append.mp ht with hfirst | hrest
      · exact Piece.span_of_fault hfirst he
      · exact ih hrest
  exact hscan _ _ ht

/-- The tokens behind the verb of a line that begins with a variable. -/
def assigned (v : Vocabulary) (l : Line) : List Token := Reader.assigned ⟨v, l.stop⟩ l.tokens

/-- The errors of the line. -/
def errors (v : Vocabulary) (l : Line) : List ParseError := (l.statement? v).elim [] lineErrors

/-- A line without errors has faults only in what it assigns. The errors of another one are those
of a failure: its own one and the faults that it has left. -/
theorem errors_cases (v : Vocabulary) (l : Line) :
    l.errors v = [] ∧ (∀ t ∈ l.tokens, t.fault? = none ∨ t ∈ l.assigned v) ∨
    ∃ f : Failure, f.Accounts l.stop l.tokens (l.assigned v) ∧
      l.errors v = f.error :: (f.rest.filterMap Token.fault?).map .ofScan := by
  have haccounts := Reader.accounts_wholeLine (r := ⟨v, l.stop⟩) l.inOrder_tokens
  unfold errors statement?
  split
  next hnil =>
    rw [hnil]
    exact .inl ⟨rfl, by simp⟩
  next =>
    cases hread : Reader.wholeLine ⟨v, l.stop⟩ l.tokens with
    | ok stmt =>
      rw [hread] at haccounts
      obtain ⟨front, hts, hfront⟩ := haccounts
      rw [List.append_nil] at hts
      exact .inl ⟨rfl, hts ▸ hfront⟩
    | error f =>
      rw [hread] at haccounts
      exact .inr ⟨f, haccounts, rfl⟩

/-- What the errors of a line have to do with its faults. -/
structure Reports (v : Vocabulary) (l : Line) (es : List ParseError) : Prop where
  onLine : ∀ e ∈ es, e.span.line = l.number
  cols : (es.map (·.span.col)).Pairwise (· < ·)
  scans : ∀ e ∈ es.tail, e.cause.kind = .scan
  sound : ∀ e ∈ es, e.cause.kind = .scan →
    ∃ t ∈ l.tokens, ∃ s, t.fault? = some s ∧ e = .ofScan s
  complete : ∀ t ∈ l.tokens, ∀ s, t.fault? = some s → t ∈ l.assigned v ∨ .ofScan s ∈ es

end Line

/-- Where a span begins. -/
def Span.begin (s : Span) : Nat × Nat := (s.line, s.col)

theorem sublist_faults {ts : List Token}
    (h : ∀ t ∈ ts, ∀ e, t.fault? = some e → e.span = t.span) :
    (((ts.filterMap Token.fault?).map ParseError.ofScan).map (·.span.begin)).Sublist
      (ts.map (·.span.begin)) := by
  induction ts with
  | nil => exact .slnil
  | cons t ts ih =>
    have hts := ih fun u hu => h u (List.mem_cons_of_mem _ hu)
    cases hfault : t.fault? with
    | none =>
      rw [List.filterMap_cons_none hfault]
      exact hts.cons _
    | some e =>
      rw [List.filterMap_cons_some hfault]
      have hspan : (ParseError.ofScan e).span = t.span := h t List.mem_cons_self e hfault
      simp only [List.map_cons, hspan]
      exact hts.cons_cons _

/-- The error of a token begins where the token does. -/
theorem ParseError.At.begin_eq {l : Line} {e : ParseError} {t : Token} (h : e.At t)
    (ht : t ∈ l.tokens) : e.span.begin = t.span.begin := by
  unfold At at h
  split at h
  next s hfault =>
    rw [h, ← l.span_of_fault ht hfault]
    rfl
  next =>
    rw [Span.begin, h.2.1, h.2.2]
    rfl

theorem ParseError.At.fault {e : ParseError} {t : Token} (h : e.At t)
    (hkind : e.cause.kind = .scan) : ∃ s, t.fault? = some s ∧ e = .ofScan s := by
  unfold At at h
  split at h
  next s hfault => exact ⟨s, hfault, h⟩
  next => exact absurd hkind h.1

namespace Failure.Accounts

variable {v : Vocabulary} {l : Line} {literal : List Token} {f : Failure}

theorem rest_subset (h : f.Accounts l.stop l.tokens literal) : f.rest ⊆ l.tokens := by
  rcases h.place with ⟨front, t, back, hts, -, hrest⟩ | ⟨-, -, hrest⟩
  · rw [hts]
    exact List.Subset.trans hrest.subset (by simp)
  · simp [hrest]

/-- The errors begin where tokens of the line begin, or the only one is at the end of the line. -/
theorem sublist_begin (h : f.Accounts l.stop l.tokens literal) :
    ((f.error :: (f.rest.filterMap Token.fault?).map .ofScan).map (·.span.begin)).Sublist
        (l.tokens.map (·.span.begin)) ∨
      f.error.span = l.stop.span ∧ f.rest = [] := by
  rcases h.place with ⟨front, t, back, hts, hat, hrest⟩ | ⟨-, hspan, hrest⟩
  · have ht : t ∈ l.tokens := by simp [hts]
    have hfaults := sublist_faults fun u hu e he => l.span_of_fault (h.rest_subset hu) he
    refine .inl ?_
    rw [List.map_cons, hat.begin_eq ht, hts, List.map_append, List.map_cons]
    exact ((hfaults.trans (hrest.sublist.map _)).cons_cons _).trans
      (List.sublist_append_right _ _)
  · exact .inr ⟨hspan, hrest⟩

theorem reports (h : f.Accounts l.stop l.tokens (l.assigned v)) :
    l.Reports v (f.error :: (f.rest.filterMap Token.fault?).map .ofScan) := by
  have horder := l.inOrder_tokens
  have hplaces : (∀ e ∈ f.error :: (f.rest.filterMap Token.fault?).map .ofScan,
        e.span.line = l.number) ∧
      ((f.error :: (f.rest.filterMap Token.fault?).map .ofScan).map (·.span.col)).Pairwise
        (· < ·) := by
    rcases h.sublist_begin with hsub | ⟨hspan, hrest⟩
    · constructor
      · intro e he
        obtain ⟨t, ht, hbegin⟩ := List.mem_map.mp (hsub.subset (List.mem_map_of_mem he))
        exact (congrArg Prod.fst hbegin).symm.trans (horder.onLine t ht)
      · have hcols := hsub.map Prod.snd
        rw [List.map_map, List.map_map] at hcols
        exact horder.cols.sublist hcols
    · simp only [hrest, List.filterMap_nil, List.map_nil, List.mem_singleton, forall_eq, hspan,
        List.map_cons, List.pairwise_singleton, and_true]
      rfl
  refine ⟨hplaces.1, hplaces.2, ?_, ?_, ?_⟩
  · intro e he
    obtain ⟨s, -, rfl⟩ := List.mem_map.mp he
    rfl
  · intro e he hkind
    rcases List.mem_cons.mp he with rfl | hlater
    · rcases h.place with ⟨front, t, back, hts, hat, -⟩ | ⟨hother, -, -⟩
      · exact ⟨t, by simp [hts], hat.fault hkind⟩
      · exact absurd hkind hother
    · obtain ⟨s, hs, rfl⟩ := List.mem_map.mp hlater
      obtain ⟨t, ht, hfault⟩ := List.mem_filterMap.mp hs
      exact ⟨t, h.rest_subset ht, s, hfault, rfl⟩
  · intro t ht s hs
    rcases h.kept t ht s hs with hliteral | herror | hrest
    · exact .inl hliteral
    · exact .inr (by simp [herror])
    · refine .inr (List.mem_cons_of_mem _ (List.mem_map_of_mem ?_))
      exact List.mem_filterMap.mpr ⟨t, hrest, hs⟩

end Failure.Accounts

theorem Line.reports (v : Vocabulary) (l : Line) : l.Reports v (l.errors v) := by
  rcases l.errors_cases v with ⟨hnone, hfaults⟩ | ⟨f, hf, herrors⟩
  · rw [hnone]
    refine ⟨by simp, .nil, by simp, by simp, fun t ht s hs => .inl ?_⟩
    refine (hfaults t ht).resolve_left fun hsound => ?_
    rw [hsound] at hs
    cases hs
  · rw [herrors]
    exact hf.reports

/-! ## The errors of a source -/

theorem errorsOf_eq (v : Vocabulary) (lines : List Line) :
    errorsOf v lines = lines.flatMap (Line.errors v) := by
  induction lines with
  | nil => rfl
  | cons l lines ih => rw [errorsOf_cons, ih, List.flatMap_cons, Line.errors]

/-- The errors that are reported for a source; there are none if it can be read. -/
def parseErrors (v : Vocabulary) (source : List Char) : List ParseError :=
  match parse v source with
  | .ok _ => []
  | .error es => es

theorem parseErrors_eq (v : Vocabulary) (source : List Char) :
    parseErrors v source = (Line.split source).flatMap (Line.errors v) := by
  rw [← errorsOf_eq, parseErrors, parse_eq]
  split_ifs with hnone
  · exact (List.isEmpty_iff.mp hnone).symm
  · rfl

/-- The tokens of a source that stand behind the verb of a line that begins with a variable. -/
def assignedTokens (v : Vocabulary) (source : List Char) : List Token :=
  (Line.split source).flatMap (Line.assigned v)

theorem Line.fault?_stop (l : Line) : l.stop.fault? = none := by
  obtain ⟨number, start, text, isLast⟩ := l
  cases isLast <;> rfl

theorem exists_line_of_fault {source : List Char} {t : Token} (ht : t ∈ tokenize source)
    {e : ScanError} (he : t.fault? = some e) : ∃ l ∈ Line.split source, t ∈ l.tokens := by
  obtain ⟨l, hl, hmem⟩ := List.mem_flatMap.mp ht
  rcases List.mem_append.mp hmem with htoken | hstop
  · exact ⟨l, hl, htoken⟩
  · obtain rfl := List.mem_singleton.mp hstop
    rw [l.fault?_stop] at he
    cases he

theorem faults_tokenize (source : List Char) :
    (tokenize source).filterMap Token.fault? =
      (Line.split source).flatMap fun l => l.tokens.filterMap Token.fault? := by
  rw [tokenize, List.filterMap_flatMap]
  refine List.flatMap_congr fun l _ => ?_
  rw [List.filterMap_append, List.filterMap_cons_none l.fault?_stop, List.filterMap_nil,
    List.append_nil]

/-- No two faults of a source are alike. -/
theorem nodup_faults (source : List Char) : ((tokenize source).filterMap Token.fault?).Nodup := by
  rw [faults_tokenize, List.nodup_flatMap]
  constructor
  · intro l _
    have hsub := sublist_faults fun t ht e he => l.span_of_fault ht he
    have hcols := hsub.map Prod.snd
    rw [List.map_map, List.map_map, List.map_map] at hcols
    have hpairwise := l.inOrder_tokens.cols.sublist hcols
    exact .of_map _ (hpairwise.imp Nat.ne_of_lt)
  · refine (Line.pairwise_split source).imp fun {l l'} hlt e he he' => ?_
    obtain ⟨t, ht, hfault⟩ := List.mem_filterMap.mp he
    obtain ⟨t', ht', hfault'⟩ := List.mem_filterMap.mp he'
    -- the error is on the line of either token
    have hline := l.inOrder_tokens.onLine t ht
    have hline' := l'.inOrder_tokens.onLine t' ht'
    rw [← l.span_of_fault ht hfault] at hline
    rw [← l'.span_of_fault ht' hfault'] at hline'
    omega

/-- Of two errors the first one begins earlier; and if both are on one line, the second one is a
fault. -/
theorem pairwise_parseErrors (v : Vocabulary) (source : List Char) :
    (parseErrors v source).Pairwise fun a b =>
      a.span.Before b.span ∧ (a.span.line = b.span.line → b.cause.kind = .scan) := by
  rw [parseErrors_eq, List.pairwise_flatMap]
  constructor
  · intro l hl
    have hreports := l.reports v
    generalize l.errors v = es at hreports
    cases es with
    | nil => exact .nil
    | cons e es =>
      have hcols := List.pairwise_map.mp hreports.cols
      have hscans : (e :: es).Pairwise fun _ b => b.cause.kind = .scan :=
        List.pairwise_cons.mpr ⟨hreports.scans,
          List.pairwise_of_forall_mem_list fun _ _ b hb => hreports.scans b hb⟩
      refine (hcols.and hscans).imp_of_mem ?_
      rintro a b ha hb ⟨hlt, hkind⟩
      have hline := (hreports.onLine a ha).trans (hreports.onLine b hb).symm
      exact ⟨.inr ⟨hline, hlt⟩, fun _ => hkind⟩
  · refine (Line.pairwise_split source).imp fun {l l'} hlt a ha b hb => ?_
    have hline := (l.reports v).onLine a ha
    have hline' := (l'.reports v).onLine b hb
    exact ⟨.inl (by omega), fun heq => by omega⟩

theorem nodup_parseErrors (v : Vocabulary) (source : List Char) : (parseErrors v source).Nodup := by
  refine (pairwise_parseErrors v source).imp fun {a b} h heq => h.1.ne ?_
  rw [heq]

/-- All errors of a line but the first one are faults. -/
theorem kind_of_mem_tail (v : Vocabulary) (source : List Char) (line : Nat) {e : ParseError}
    (he : e ∈ ((parseErrors v source).filter (·.span.line = line)).tail) :
    e.cause.kind = .scan := by
  have hpair := (pairwise_parseErrors v source).filter (·.span.line = line)
  have honLine : ∀ a ∈ (parseErrors v source).filter (·.span.line = line), a.span.line = line :=
    fun a ha => by simpa using (List.mem_filter.mp ha).2
  generalize (parseErrors v source).filter (·.span.line = line) = es at he hpair honLine
  cases es with
  | nil => cases he
  | cons a es =>
    have hline : a.span.line = e.span.line :=
      (honLine a List.mem_cons_self).trans (honLine e (List.mem_cons_of_mem _ he)).symm
    exact ((List.pairwise_cons.mp hpair).1 e he).2 hline

/-- A fault is reported, unless it stands in what a line assigns. -/
theorem mem_parseErrors_of_fault {v : Vocabulary} {source : List Char} {t : Token}
    (ht : t ∈ tokenize source) {s : ScanError} (hs : t.fault? = some s) :
    t ∈ assignedTokens v source ∨ .ofScan s ∈ parseErrors v source := by
  obtain ⟨l, hl, htoken⟩ := exists_line_of_fault ht hs
  rw [parseErrors_eq]
  rcases (l.reports v).complete t htoken s hs with hassigned | hreported
  · exact .inl (List.mem_flatMap.mpr ⟨l, hl, hassigned⟩)
  · exact .inr (List.mem_flatMap.mpr ⟨l, hl, hreported⟩)

theorem exists_fault_of_mem_parseErrors {v : Vocabulary} {source : List Char} {e : ParseError}
    (he : e ∈ parseErrors v source) (hkind : e.cause.kind = .scan) :
    ∃ t ∈ tokenize source, ∃ s, t.fault? = some s ∧ e = .ofScan s := by
  rw [parseErrors_eq] at he
  obtain ⟨l, hl, hreported⟩ := List.mem_flatMap.mp he
  obtain ⟨t, ht, hfault⟩ := (l.reports v).sound e hreported hkind
  exact ⟨t, List.mem_flatMap.mpr ⟨l, hl, List.mem_append_left _ ht⟩, hfault⟩

/-- The errors of a source that cannot be read are in its order, no two at one place, and all errors
of a line but its first one are faults of the scanner. No two faults of a source are alike; each is
reported at most once, and exactly once unless it stands behind the verb of a line that begins with
a variable; and every error of this kind that is reported is one that the scanner has found. So the
faults of a source that can be read all stand behind such verbs. -/
theorem faults_reported_in_order (v : Vocabulary) (source : List Char) :
    (∀ es, parse v source = .error es →
      es.Pairwise (fun a b => a.span.Before b.span) ∧
      ∀ line, ∀ e ∈ (es.filter (·.span.line = line)).tail, e.report.kind = .scan) ∧
    ((tokenize source).filterMap Token.fault?).Nodup ∧
    (∀ t ∈ tokenize source, ∀ s, t.fault? = some s →
      (parseErrors v source).count (.ofScan s) ≤ 1 ∧
      (t ∉ assignedTokens v source → (parseErrors v source).count (.ofScan s) = 1)) ∧
    (∀ e ∈ parseErrors v source, e.report.kind = .scan →
      ∃ t ∈ tokenize source, ∃ s, t.fault? = some s ∧ e = .ofScan s) ∧
    ∀ program, parse v source = .ok program →
      ∀ t ∈ tokenize source, t.fault?.isSome = true → t ∈ assignedTokens v source := by
  have hnodup := nodup_parseErrors v source
  refine ⟨fun es hes => ?_, nodup_faults source, fun t ht s hs => ⟨?_, fun hother => ?_⟩, ?_, ?_⟩
  · obtain rfl : parseErrors v source = es := by rw [parseErrors, hes]
    exact ⟨(pairwise_parseErrors v source).imp fun h => h.1,
      fun line e he => kind_of_mem_tail v source line he⟩
  · exact List.nodup_iff_count_le_one.mp hnodup _
  · exact List.count_eq_one_of_mem hnodup ((mem_parseErrors_of_fault ht hs).resolve_left hother)
  · exact fun e he hkind => exists_fault_of_mem_parseErrors he hkind
  · intro program hprogram t ht hfault
    obtain ⟨s, hs⟩ := Option.isSome_iff_exists.mp hfault
    have hnone : parseErrors v source = [] := by rw [parseErrors, hprogram]
    refine (mem_parseErrors_of_fault ht hs).resolve_right fun hmem => ?_
    rw [hnone] at hmem
    cases hmem

/-- Four lines with faults: two at places where an expression is read, one in a text that is taken
as it is, two where a literal is read, and one behind another error. -/
def tangledSource : List Char :=
  "Shout # 1 $\nTommy says @ home\nTommy was @ \"home\nPut 1 1 # into Tommy".toList

/-- The errors of the four lines. -/
def tangledErrors : List ParseError :=
  [.ofScan (.unexpectedChar '#' ⟨1, 7, 1⟩), .ofScan (.unexpectedChar '$' ⟨1, 11, 1⟩),
    .ofScan (.unexpectedChar '@' ⟨3, 11, 1⟩), .ofScan (.unterminatedString ⟨3, 13, 1⟩),
    ⟨.expectedToken "'into'" "'1'", ⟨4, 7, 1⟩⟩, .ofScan (.unexpectedChar '#' ⟨4, 9, 1⟩)]

/-- The fault behind the verb of the second line is not reported, those behind the verb of the third
one are, and so is each of the others. -/
theorem faults_reported_in_order_tangled :
    parse .standard tangledSource = .error tangledErrors ∧
      tangledErrors.Pairwise (fun a b => a.span.Before b.span) ∧
      (∀ t ∈ tokenize tangledSource, ∀ s, t.fault? = some s → t.span.line = 1 →
        tangledErrors.count (.ofScan s) = 1) ∧
      (assignedTokens .standard tangledSource).filterMap Token.fault? =
        [.unexpectedChar '@' ⟨2, 12, 1⟩, .unexpectedChar '@' ⟨3, 11, 1⟩,
          .unterminatedString ⟨3, 13, 1⟩] := by
  have hparse : parse .standard tangledSource = .error tangledErrors :=
    eq_error_of_map (by decide +kernel)
  obtain ⟨horder, -, hfaults, -⟩ := faults_reported_in_order .standard tangledSource
  have herrors : parseErrors .standard tangledSource = tangledErrors := by rw [parseErrors, hparse]
  rw [herrors] at hfaults
  have hfirst : ∀ t ∈ assignedTokens .standard tangledSource, t.span.line ≠ 1 := by decide +kernel
  refine ⟨hparse, (horder _ hparse).1, fun t ht s hs hline => ?_, by decide +kernel⟩
  exact (hfaults t ht s hs).2 fun hmem => hfirst t hmem hline

end Rockstar
