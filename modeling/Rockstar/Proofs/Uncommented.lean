import Mathlib.Data.List.Forall2
import Rockstar.Proofs.Rereading

/-!
# Sources without comments

`withoutComments` overwrites the comments of a source, line by line, but for those in spoken text.
The new source has the same size and the same lines (`byteSize_withoutComments`,
`split_withoutComments`), and each line is read again as before, or held a poetic number that is
lost (`Line.reading`). So the errors and the statements of the two sources correspond
(`parse_withoutComments`).
-/

namespace Rockstar

/-! ## Lines -/

namespace Line

/-- The line with its comments overwritten, but for those in spoken text. -/
def overwritten (v : Vocabulary) (l : Line) : Line :=
  { l with text := overwrite (Reader.verbatim ⟨v, l.stop⟩ l.tokens) l.text }

variable (v : Vocabulary) (l : Line)

theorem byteSize_overwritten : Text.byteSize (l.overwritten v).text = Text.byteSize l.text :=
  (overwrites_overwrite _ l.text).byteSize_eq

theorem stop_overwritten : (l.overwritten v).stop = l.stop := by
  unfold stop endSpan
  rw [byteSize_overwritten]
  rfl

theorem tokens_overwritten :
    (l.overwritten v).tokens =
      l.tokens.map (Token.overwrite (Reader.verbatim ⟨v, l.stop⟩ l.tokens)) :=
  scanFrom_overwrite _ l.place l.text

/-- How a line is read, and how it is read without its comments. -/
inductive Reading : Option (Except (List ParseError) Statement) →
    Option (Except (List ParseError) Statement) → Prop where
  | blank : Reading none none
  | ok {stmt stmt' : Statement} : stmt.Reread stmt' →
      Reading (some (.ok stmt)) (some (.ok stmt'))
  | error {es es' : List ParseError} : List.Forall₂ ParseError.Same es es' →
      Reading (some (.error es)) (some (.error es'))
  | lost {stmt : Statement} (e : ParseError) (es : List ParseError) : ¬stmt.Legible →
      Reading (some (.ok stmt)) (some (.error (e :: es)))

/-- The errors of a line: the first one, and the faults behind it. -/
theorem forall₂_of_mirrors {keep : Nat} {f f' : Failure}
    (h : Mirrors keep Statement.Reread (¬·.Legible) (.error f) (.error f')) :
    List.Forall₂ ParseError.Same (f.error :: (f.rest.filterMap Token.fault?).map ParseError.ofScan)
      (f'.error :: (f'.rest.filterMap Token.fault?).map ParseError.ofScan) := by
  cases h with
  | error rest hsame =>
    have hfaults : (rest.map (Token.overwrite keep)).filterMap Token.fault? =
        rest.filterMap Token.fault? := by
      rw [List.filterMap_map]
      rfl
    dsimp only
    rw [hfaults]
    exact .cons hsame (List.forall₂_same.mpr fun e _ => .refl e)

theorem reading : Reading (l.statement? v) ((l.overwritten v).statement? v) := by
  have hmirrors := Reader.mirrors_statement ⟨v, l.stop⟩ l.tokens
  unfold statement?
  rw [tokens_overwritten, stop_overwritten]
  cases htokens : l.tokens with
  | nil => exact .blank
  | cons t ts =>
    rw [htokens] at hmirrors
    rw [List.map_cons] at hmirrors ⊢
    dsimp only [Reader.wholeLine]
    revert hmirrors
    generalize Reader.verbatim _ _ = keep
    generalize Reader.statement _ (t :: ts) = x
    generalize Reader.statement _ _ = x'
    intro hmirrors
    cases hmirrors with
    | error rest hsame => exact .error (forall₂_of_mirrors (.error rest hsame))
    | lost f hlost => exact .lost _ _ hlost
    | ok rest hre =>
      -- punctuation ends a line with or without comments
      have hdrop : (rest.map (Token.overwrite keep)).dropWhile (·.kind.isTrailing) =
          (rest.dropWhile (·.kind.isTrailing)).map (Token.overwrite keep) := by
        rw [List.dropWhile_map]
        rfl
      simp only [bind, Except.bind]
      rw [hdrop]
      cases rest.dropWhile (·.kind.isTrailing) with
      | nil => exact .ok hre
      | cons u us =>
        -- something is left over on both lines, and it is the same
        exact .error (forall₂_of_mirrors (Reader.mirrors_failAt (u :: us) fun _ => rfl))

end Line

/-! ## Cutting a source into lines -/

theorem Text.byteSize_reverse (cs : List Char) : byteSize cs.reverse = byteSize cs := by
  induction cs with
  | nil => rfl
  | cons c cs ih =>
    rw [List.reverse_cons, byteSize_append, ih, byteSize_cons, byteSize_cons, byteSize_nil]
    omega

namespace Line

/-- Lines that follow each other from a number and a start on, up to the end of a source. -/
inductive Follow : Nat → Nat → List Line → Prop where
  | last (number start : Nat) {text : List Char} : '\n' ∉ text →
      Follow number start [⟨number, start, text, true⟩]
  | next (number start : Nat) {text : List Char} {lines : List Line} : '\n' ∉ text →
      Follow (number + 1) (start + Text.byteSize text + 1) lines →
      Follow number start (⟨number, start, text, false⟩ :: lines)

theorem follow_splitFrom (number start : Nat) {seen : List Char} (h : '\n' ∉ seen)
    (cs : List Char) : Follow number start (splitFrom number start seen [] cs) := by
  induction cs generalizing number start seen with
  | nil => exact .last number start (by simpa using h)
  | cons c cs ih =>
    rw [splitFrom]
    split
    · rw [splitFrom_done, ← Text.byteSize_reverse]
      exact .next number start (by simpa using h) (ih _ _ (by simp))
    next hc => exact ih number start (by simp [h, Ne.symm hc])

theorem splitFrom_append (number start : Nat) (seen : List Char) {text : List Char}
    (h : '\n' ∉ text) (cs : List Char) :
    splitFrom number start seen [] (text ++ cs) =
      splitFrom number start (text.reverse ++ seen) [] cs := by
  induction text generalizing seen with
  | nil => rfl
  | cons c text ih =>
    simp only [List.mem_cons, not_or] at h
    rw [List.cons_append, splitFrom, if_neg (Ne.symm h.1), ih _ h.2]
    simp

/-- Behind a newline the cutting begins anew. -/
theorem exists_splitFrom_newline (number start : Nat) (seen text cs : List Char) :
    ∃ front number' start', splitFrom number start seen [] (text ++ '\n' :: cs) =
      front ++ splitFrom number' start' [] [] cs := by
  induction text generalizing number start seen with
  | nil =>
    rw [List.nil_append, splitFrom, if_pos rfl, splitFrom_done]
    exact ⟨_, _, _, rfl⟩
  | cons c text ih =>
    rw [List.cons_append, splitFrom]
    split
    · obtain ⟨front, number', start', hfront⟩ :=
        ih (number + 1) (start + Text.byteSize seen + 1) []
      rw [splitFrom_done, hfront, ← List.append_assoc]
      exact ⟨_, _, _, rfl⟩
    · exact ih number start (c :: seen)

/-- Lines that were put together are told apart by their newlines. -/
theorem map_text_splitFrom (number start : Nat) {texts : List (List Char)}
    (h : ∀ text ∈ texts, '\n' ∉ text) :
    (splitFrom number start [] [] (texts.flatMap (· ++ ['\n']))).map Line.text =
      texts ++ [[]] := by
  induction texts generalizing number start with
  | nil => rfl
  | cons text texts ih =>
    obtain ⟨htext, hrest⟩ := List.forall_mem_cons.mp h
    rw [List.flatMap_cons, List.append_assoc, splitFrom_append number start [] htext,
      List.singleton_append, splitFrom, if_pos rfl, splitFrom_done, List.map_append, ih _ _ hrest]
    simp

/-- The line with the newline that ends it. -/
def raw (l : Line) : List Char := l.text ++ if l.isLast then [] else ['\n']

theorem flatMap_raw_splitFrom (number start : Nat) (seen cs : List Char) :
    (splitFrom number start seen [] cs).flatMap raw = seen.reverse ++ cs := by
  induction cs generalizing number start seen with
  | nil => simp [splitFrom, raw]
  | cons c cs ih =>
    rw [splitFrom]
    split
    next hc =>
      rw [splitFrom_done, List.flatMap_append, ih]
      simp [raw, hc]
    next => simp [ih]

theorem Follow.split_flatMap_raw {number start : Nat} {lines : List Line}
    (h : Follow number start lines) :
    splitFrom number start [] [] (lines.flatMap raw) = lines := by
  induction h with
  | @last number start text htext =>
    have hraw : [⟨number, start, text, true⟩].flatMap raw = text ++ [] := by
      simp [raw]
    rw [hraw, splitFrom_append number start [] htext, splitFrom]
    simp
  | @next number start text lines htext hrest ih =>
    have hraw : (⟨number, start, text, false⟩ :: lines).flatMap raw =
        text ++ '\n' :: lines.flatMap raw := by
      simp [raw]
    rw [hraw, splitFrom_append number start [] htext, splitFrom, if_pos rfl, splitFrom_done,
      List.append_nil, Text.byteSize_reverse, ih]
    simp

theorem Follow.overwritten (v : Vocabulary) {number start : Nat} {lines : List Line}
    (h : Follow number start lines) : Follow number start (lines.map (Line.overwritten v)) := by
  induction h with
  | last number start htext =>
    exact .last number start ((overwrites_overwrite _ _).newline_not_mem htext)
  | @next number start text lines htext _ ih =>
    refine .next number start ((overwrites_overwrite _ _).newline_not_mem htext) ?_
    rw [(overwrites_overwrite _ text).byteSize_eq]
    exact ih

end Line

/-- The source with its comments overwritten, but for those in spoken text. -/
def withoutComments (v : Vocabulary) (source : String) : String :=
  String.ofList ((Line.split source.toList).flatMap fun l => (l.overwritten v).raw)

/-- Overwriting keeps the lines of a source. -/
theorem split_withoutComments (v : Vocabulary) (source : String) :
    Line.split (withoutComments v source).toList =
      (Line.split source.toList).map (Line.overwritten v) := by
  have hfollow : Line.Follow 1 0 (Line.split source.toList) :=
    Line.follow_splitFrom 1 0 (by simp) source.toList
  have hsplit := (hfollow.overwritten v).split_flatMap_raw
  rw [List.flatMap_map] at hsplit
  rw [withoutComments, String.toList_ofList]
  exact hsplit

/-- Overwriting keeps the size of a source. -/
theorem byteSize_withoutComments (v : Vocabulary) (source : String) :
    Text.byteSize (withoutComments v source).toList = Text.byteSize source.toList := by
  have hlines : ∀ lines : List Line,
      Text.byteSize (lines.flatMap fun l => (l.overwritten v).raw) =
        Text.byteSize (lines.flatMap Line.raw) := by
    intro lines
    induction lines with
    | nil => rfl
    | cons l lines ih =>
      have hraw : Text.byteSize (l.overwritten v).raw = Text.byteSize l.raw := by
        unfold Line.raw
        rw [Text.byteSize_append, Text.byteSize_append, Line.byteSize_overwritten]
        rfl
      rw [List.flatMap_cons, List.flatMap_cons, Text.byteSize_append, Text.byteSize_append, hraw,
        ih]
  have hsource : (Line.split source.toList).flatMap Line.raw = source.toList :=
    Line.flatMap_raw_splitFrom 1 0 [] source.toList
  rw [withoutComments, String.toList_ofList, hlines, hsource]

/-! ## Programs -/

/-- The errors of lines that could not be read. -/
def errorsOf (v : Vocabulary) (lines : List Line) : List ParseError :=
  (lines.filterMap (Line.statement? v)).flatMap lineErrors

theorem parse_eq (v : Vocabulary) (source : List Char) :
    parse v source =
      if (errorsOf v (Line.split source)).isEmpty then .ok (statementsOf v (Line.split source))
      else .error (errorsOf v (Line.split source)) := rfl

/-- Statements that stand on lines that can be read are in the program, if there is one. -/
theorem eq_statementsOf {v : Vocabulary} {source : List Char} {p : List Statement}
    (h : parse v source = .ok p) : p = statementsOf v (Line.split source) := by
  rw [parse_eq] at h
  split at h
  · injection h with hp
    exact hp.symm
  · cases h

theorem errorsOf_cons (v : Vocabulary) (l : Line) (lines : List Line) :
    errorsOf v (l :: lines) = (l.statement? v).elim [] lineErrors ++ errorsOf v lines := by
  unfold errorsOf
  rw [List.filterMap_cons]
  cases l.statement? v <;> rfl

theorem statementsOf_cons (v : Vocabulary) (l : Line) (lines : List Line) :
    statementsOf v (l :: lines) =
      ((l.statement? v).bind Except.toOption).toList ++ statementsOf v lines := by
  unfold statementsOf
  rw [List.filterMap_cons]
  rcases l.statement? v with _ | _ | _ <;> rfl

/-- The errors and statements of lines, and those without comments. Nothing is lost if all poetic
numbers are legible, or if there are no errors without comments. -/
theorem reread_lines {v : Vocabulary} {lines : List Line}
    (h : (∀ stmt ∈ statementsOf v lines, stmt.Legible) ∨
      errorsOf v (lines.map (Line.overwritten v)) = []) :
    List.Forall₂ ParseError.Same (errorsOf v lines)
        (errorsOf v (lines.map (Line.overwritten v))) ∧
      List.Forall₂ Statement.Reread (statementsOf v lines)
        (statementsOf v (lines.map (Line.overwritten v))) := by
  induction lines with
  | nil => exact ⟨.nil, .nil⟩
  | cons l lines ih =>
    have hreading := l.reading v
    rw [List.map_cons, errorsOf_cons, errorsOf_cons, statementsOf_cons, statementsOf_cons]
    rw [List.map_cons, errorsOf_cons, statementsOf_cons] at h
    obtain ⟨herrors, hstmts⟩ := ih (h.imp
      (fun hlegible stmt hmem => hlegible stmt (List.mem_append_right _ hmem))
      fun hnone => (List.append_eq_nil_iff.mp hnone).2)
    revert h hreading
    generalize l.statement? v = x
    generalize (l.overwritten v).statement? v = x'
    intro h hreading
    cases hreading with
    | blank => exact ⟨herrors, hstmts⟩
    | ok hre => exact ⟨herrors, .cons hre hstmts⟩
    | error hes => exact ⟨List.rel_append hes herrors, hstmts⟩
    -- a line that is lost holds an illegible number and leaves an error behind
    | @lost stmt e es hlost =>
      rcases h with hlegible | hnone
      · exact absurd (hlegible stmt (by simp [Except.toOption])) hlost
      · cases hnone

/-- A poetic number that is lost shows as one error more. -/
theorem length_errorsOf (v : Vocabulary) (lines : List Line) :
    (errorsOf v lines).length ≤ (errorsOf v (lines.map (Line.overwritten v))).length ∧
      ((errorsOf v lines).length = (errorsOf v (lines.map (Line.overwritten v))).length →
        ∀ stmt ∈ statementsOf v lines, stmt.Legible) := by
  induction lines with
  | nil => exact ⟨Nat.le_refl _, by simp [statementsOf]⟩
  | cons l lines ih =>
    obtain ⟨hle, hlegible⟩ := ih
    have hreading := l.reading v
    rw [List.map_cons, errorsOf_cons, errorsOf_cons, statementsOf_cons, List.length_append,
      List.length_append]
    revert hreading
    generalize l.statement? v = x
    generalize (l.overwritten v).statement? v = x'
    intro hreading
    cases hreading with
    | blank => exact ⟨by simpa using hle, by simpa using hlegible⟩
    | @ok stmt stmt' hre =>
      refine ⟨by simpa [lineErrors] using hle, fun heq u hu => ?_⟩
      rcases List.mem_cons.mp hu with rfl | hmem
      · exact hre.legible
      · exact hlegible (by simpa [lineErrors] using heq) u hmem
    | error hes =>
      have hlength := hes.length_eq
      refine ⟨?_, fun heq => ?_⟩
      · simpa [lineErrors, hlength] using hle
      · simpa [Except.toOption] using hlegible (by simpa [lineErrors, hlength] using heq)
    | lost e es hlost =>
      -- the line had no error before
      simp only [Option.elim_some, lineErrors, List.length_nil, List.length_cons]
      refine ⟨by omega, fun heq => ?_⟩
      omega

theorem isEmpty_of_forall₂ {α : Type} {R : α → α → Prop} {as bs : List α}
    (h : List.Forall₂ R as bs) : bs.isEmpty = as.isEmpty := by
  cases h <;> rfl

/-- On the lines that can be read, every poetic number is one without its comments, too. -/
def Legible (v : Vocabulary) (source : String) : Prop :=
  ∀ stmt ∈ statementsOf v (Line.split source.toList), stmt.Legible

instance (v : Vocabulary) (source : String) : Decidable (Legible v source) := by
  unfold Legible
  infer_instance

/-- No comment makes a difference on the lines that can be read. -/
def Undisturbed (v : Vocabulary) (source : String) : Prop :=
  ∀ stmt ∈ statementsOf v (Line.split source.toList), stmt.Undisturbed

instance (v : Vocabulary) (source : String) : Decidable (Undisturbed v source) := by
  unfold Undisturbed
  infer_instance

section Parse

variable {v : Vocabulary} {source : String}

/-- Where no poetic number is lost, reading gives errors of the same kinds at the same places, or
the statements read again. -/
theorem parse_withoutComments (h : Legible v source) :
    (∃ es es', parse v source.toList = .error es ∧
        parse v (withoutComments v source).toList = .error es' ∧
        List.Forall₂ ParseError.Same es es') ∨
      ∃ p p', parse v source.toList = .ok p ∧
        parse v (withoutComments v source).toList = .ok p' ∧
        List.Forall₂ Statement.Reread p p' := by
  obtain ⟨herrors, hstmts⟩ := reread_lines (.inl h)
  rw [parse_eq, parse_eq, split_withoutComments, isEmpty_of_forall₂ herrors]
  by_cases hnone : (errorsOf v (Line.split source.toList)).isEmpty = true
  · rw [if_pos hnone, if_pos hnone]
    exact .inr ⟨_, _, rfl, rfl, hstmts⟩
  · rw [if_neg hnone, if_neg hnone]
    exact .inl ⟨_, _, rfl, rfl, herrors⟩

/-- A source that can be read without its comments can be read with them. -/
theorem parse_of_withoutComments {p' : List Statement}
    (h : parse v (withoutComments v source).toList = .ok p') :
    ∃ p, parse v source.toList = .ok p ∧ List.Forall₂ Statement.Reread p p' := by
  rw [parse_eq, split_withoutComments] at h
  split at h
  next hnone =>
    cases h
    obtain ⟨herrors, hstmts⟩ := reread_lines (.inr (List.isEmpty_iff.mp hnone))
    rw [List.isEmpty_iff.mp hnone, List.forall₂_nil_right_iff] at herrors
    refine ⟨_, ?_, hstmts⟩
    rw [parse_eq, herrors]
    rfl
  next => cases h

/-- Where as many errors are found without comments, no poetic number is lost. -/
theorem legible_of_parse {es es' : List ParseError} (h : parse v source.toList = .error es)
    (h' : parse v (withoutComments v source).toList = .error es')
    (hlength : es.length = es'.length) : Legible v source := by
  rw [parse_eq] at h h'
  rw [split_withoutComments] at h'
  split at h
  · cases h
  · split at h'
    · cases h'
    · cases h
      cases h'
      exact (length_errorsOf v _).2 hlength

end Parse

end Rockstar
