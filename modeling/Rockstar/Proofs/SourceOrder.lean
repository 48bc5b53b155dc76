import Rockstar.Proofs.Reading

/-!
# Sources are read in order

The tokens of a line have ascending columns (`Line.inOrder_tokens`), and the lines of a source
ascending numbers (`Line.pairwise_split`). So the references of a program, in the order in which it
is compiled, stand in the order of the source (`Source.refs`), and all numbers in it are plain
(`Source.literals`).
-/

namespace Rockstar

/-! ## Tokens of a line -/

theorem Text.byteSize_pos {cs : List Char} (h : cs ≠ []) : 0 < byteSize cs := by
  cases cs with
  | nil => exact absurd rfl h
  | cons c cs =>
    have hc := c.utf8Size_pos
    rw [byteSize_cons]
    omega

namespace Piece

theorem raw_first_ne_nil (c : Char) (cs : List Char) : (first c cs).raw ≠ [] := by
  intro hnil
  have happend := raw_append_restOf c cs
  have hlength := length_restOf_le c cs
  rw [hnil, List.nil_append] at happend
  rw [happend, List.length_cons] at hlength
  omega

theorem size_first_pos (c : Char) (cs : List Char) : 0 < (first c cs).size :=
  Text.byteSize_pos (raw_first_ne_nil c cs)

/-- The stem of a contraction is a word of its own, and an s follows. -/
theorem contraction_of_first {c : Char} {cs stem : List Char} {s : Char}
    (h : first c cs = .contraction stem s) : stem ≠ [] ∧ (s = 's' ∨ s = 'S') := by
  have hword : ∀ letters, ofWord letters = .contraction stem s →
      stem ≠ [] ∧ (s = 's' ∨ s = 'S') := by
    intro letters hletters
    unfold ofWord at hletters
    split at hletters
    · split at hletters
      next hs =>
        cases hletters
        refine ⟨?_, by simp_all⟩
        intro hnil
        simp [List.reverse_eq_nil_iff.mp hnil] at hs
      next => cases hletters
    · cases hletters
  unfold first at h
  split at h
  · cases h
  · split at h
    · dsimp only at h
      split at h <;> cases h
    · split at h
      · dsimp only at h
        split at h <;> cases h
      · split at h
        · cases h
        · split at h
          · exact hword _ h
          · split at h <;> cases h

/-- A token at the place of a piece lies within the piece. -/
theorem inOrder_singleton {p : Piece} (hpos : 0 < p.size) {place : Place} {t : Token}
    (hline : t.span.line = place.line) (hcol : t.span.col = place.col) :
    InOrder place.line [t] ∧
      ∀ u ∈ [t], place.col ≤ u.span.col ∧ u.span.col < place.col + p.size := by
  refine ⟨⟨?_, List.pairwise_singleton _ _⟩, ?_⟩
  · intro u hu
    rw [List.mem_singleton.mp hu, hline]
  · intro u hu
    rw [List.mem_singleton.mp hu]
    omega

/-- The tokens of a piece lie within it, one behind the other. -/
theorem inOrder_tokens {p : Piece} (hpos : 0 < p.size)
    (hstem : ∀ stem s, p = .contraction stem s → stem ≠ []) (place : Place)
    (onward behind : List Char) :
    InOrder place.line (p.tokens place onward behind) ∧
      ∀ t ∈ p.tokens place onward behind,
        place.col ≤ t.span.col ∧ t.span.col < place.col + p.size := by
  cases p with
  | blank c => exact ⟨⟨by simp [tokens], List.Pairwise.nil⟩, by simp [tokens]⟩
  | comment body => exact ⟨⟨by simp [tokens], List.Pairwise.nil⟩, by simp [tokens]⟩
  | openComment body => exact inOrder_singleton hpos rfl rfl
  | string body => exact inOrder_singleton hpos rfl rfl
  | openString body => exact inOrder_singleton hpos rfl rfl
  | number digits => exact inOrder_singleton hpos rfl rfl
  | word letters => exact inOrder_singleton hpos rfl rfl
  | symbol kind c => exact inOrder_singleton hpos rfl rfl
  | stray c => exact inOrder_singleton hpos rfl rfl
  | contraction stem s =>
    -- the only piece of two tokens: the second one begins behind the stem
    have hlt := Text.byteSize_pos (hstem stem s rfl)
    have hsize : (Piece.contraction stem s).size =
        Text.byteSize stem + ('\''.utf8Size + s.utf8Size) := by
      simp [size, raw]
    have hquote := Char.utf8Size_pos '\''
    rw [hsize]
    refine ⟨⟨?_, ?_⟩, ?_⟩
    · simp [tokens, Place.span, Place.advance]
    · simpa [tokens, Place.span, Place.advance] using hlt
    · simp [tokens, Place.span, Place.advance]
      omega

end Piece

/-- The tokens of a text follow each other from the place on where the text begins. -/
theorem inOrder_scanFrom (place : Place) (cs : List Char) :
    InOrder place.line (scanFrom place cs) ∧
      ∀ t ∈ scanFrom place cs, place.col ≤ t.span.col := by
  fun_induction scanFrom place cs with
  | case1 place => exact ⟨⟨by simp, List.Pairwise.nil⟩, by simp⟩
  | case2 place c cs piece ih =>
    obtain ⟨hfirst, hbounds⟩ :=
      Piece.inOrder_tokens (Piece.size_first_pos c cs)
        (fun _ _ h => (Piece.contraction_of_first h).1) place (c :: cs) (Piece.restOf c cs)
    obtain ⟨hrest, hlower⟩ := ih
    refine ⟨⟨?_, ?_⟩, ?_⟩
    · intro t ht
      rcases List.mem_append.mp ht with h | h
      · exact hfirst.onLine t h
      · exact hrest.onLine t h
    · rw [List.map_append, List.pairwise_append]
      refine ⟨hfirst.cols, hrest.cols, ?_⟩
      intro a ha b hb
      obtain ⟨t, ht, rfl⟩ := List.mem_map.mp ha
      obtain ⟨u, hu, rfl⟩ := List.mem_map.mp hb
      exact Nat.lt_of_lt_of_le (hbounds t ht).2 (hlower u hu)
    · intro t ht
      rcases List.mem_append.mp ht with h | h
      · exact (hbounds t h).1
      · exact Nat.le_trans (Nat.le_add_right _ _) (hlower t h)

namespace Line

theorem inOrder_tokens (l : Line) : InOrder l.number l.tokens :=
  (inOrder_scanFrom l.place l.text).1

/-! ## Lines of a source -/

theorem pairwise_splitFrom (number start : Nat) (seen cs : List Char) :
    (splitFrom number start seen [] cs).Pairwise (fun a b => a.number < b.number) ∧
      ∀ l ∈ splitFrom number start seen [] cs, number ≤ l.number := by
  induction cs generalizing number start seen with
  | nil => simp [splitFrom]
  | cons c cs ih =>
    rw [splitFrom]
    split
    · rw [splitFrom_done]
      obtain ⟨hpair, hlower⟩ := ih (number + 1) (start + Text.byteSize seen + 1) []
      refine ⟨?_, ?_⟩
      · rw [List.pairwise_append]
        refine ⟨List.pairwise_singleton _ _, hpair, ?_⟩
        intro a ha b hb
        obtain rfl := List.mem_singleton.mp ha
        exact hlower b hb
      · intro l hl
        rcases List.mem_append.mp hl with h | h
        · obtain rfl := List.mem_singleton.mp h
          exact Nat.le_refl _
        · exact Nat.le_of_succ_le (hlower l h)
    · exact ih number start (c :: seen)

/-- Lines are numbered upwards. -/
theorem pairwise_split (source : List Char) :
    (split source).Pairwise (fun a b => a.number < b.number) :=
  (pairwise_splitFrom 1 0 [] source).1

theorem from_statement? {vocabulary : Vocabulary} {l : Line} {stmt : Statement}
    (h : l.statement? vocabulary = some (.ok stmt)) : stmt.From l.number := by
  unfold statement? at h
  split at h
  · cases h
  · split at h
    next hread =>
      cases h
      exact Reader.from_wholeLine hread l.inOrder_tokens
    next => cases h

end Line

/-! ## Programs -/

/-- The first reference stands before the second one. -/
def Variable.Precedes (a b : Variable) : Prop :=
  a.span.line < b.span.line ∨ a.span.line = b.span.line ∧ a.span.col < b.span.col

instance (a b : Variable) : Decidable (a.Precedes b) := by
  unfold Variable.Precedes
  infer_instance

/-- What a program that was read from a source has in common with it. -/
structure Source (program : List Statement) : Prop where
  literals : ∀ stmt ∈ program, ∀ v ∈ stmt.literals, v.IsPlain
  refs : (program.flatMap Statement.refs).Pairwise Variable.Precedes

/-- The statements of lines that could be read. -/
def statementsOf (vocabulary : Vocabulary) (lines : List Line) : List Statement :=
  (lines.filterMap (Line.statement? vocabulary)).filterMap Except.toOption

theorem exists_line_of_mem {vocabulary : Vocabulary} {lines : List Line} {stmt : Statement}
    (h : stmt ∈ statementsOf vocabulary lines) : ∃ l ∈ lines, stmt.From l.number := by
  obtain ⟨result, hresult, hok⟩ := List.mem_filterMap.mp h
  obtain ⟨l, hl, hstmt⟩ := List.mem_filterMap.mp hresult
  cases result with
  | error e => cases hok
  | ok stmt' =>
    cases hok
    exact ⟨l, hl, Line.from_statement? hstmt⟩

/-- References of one statement are in order of columns, those of different statements in order of
lines. -/
theorem pairwise_refs {vocabulary : Vocabulary} {lines : List Line}
    (h : lines.Pairwise (fun a b => a.number < b.number)) :
    ((statementsOf vocabulary lines).flatMap Statement.refs).Pairwise Variable.Precedes := by
  induction lines with
  | nil => exact List.Pairwise.nil
  | cons l lines ih =>
    rw [List.pairwise_cons] at h
    unfold statementsOf
    rw [List.filterMap_cons]
    cases hstmt : l.statement? vocabulary with
    | none => exact ih h.2
    | some result =>
      cases result with
      | error e => exact ih h.2
      | ok stmt =>
        have hfrom := Line.from_statement? hstmt
        show (stmt.refs ++ (statementsOf vocabulary lines).flatMap Statement.refs).Pairwise _
        rw [List.pairwise_append]
        refine ⟨?_, ih h.2, ?_⟩
        -- on one line columns decide, and between lines their numbers
        · have hcols := List.pairwise_map.mp hfrom.cols
          refine hcols.imp_of_mem ?_
          intro a b ha hb hlt
          exact .inr ⟨(hfrom.onLine a ha).trans (hfrom.onLine b hb).symm, hlt⟩
        · intro a ha b hb
          obtain ⟨stmt', hstmt', hb⟩ := List.mem_flatMap.mp hb
          obtain ⟨l', hl', hfrom'⟩ := exists_line_of_mem hstmt'
          refine .inl ?_
          rw [hfrom.onLine a ha, hfrom'.onLine b hb]
          exact h.1 l' hl'

/-- A program that was read keeps the order of its source. -/
theorem source_of_parse {vocabulary : Vocabulary} {source : List Char}
    {program : List Statement} (h : parse vocabulary source = .ok program) : Source program := by
  unfold parse at h
  dsimp only at h
  split at h
  · obtain rfl : statementsOf vocabulary (Line.split source) = program := by
      injection h
    refine ⟨?_, pairwise_refs (Line.pairwise_split source)⟩
    intro stmt hstmt
    obtain ⟨l, -, hfrom⟩ := exists_line_of_mem hstmt
    exact hfrom.literals
  · cases h

end Rockstar
