import Mathlib.Data.List.Forall2
import Rockstar.Proofs.ErrorOrder
import Rockstar.Proofs.Partition

/-!
# Places of faults

The scanner tells an error by its span, and the token that stands for it has an offset too.
`scanErrors` records the errors without looking at tokens, and `charAt?` counts through a source up
to a line and column. A fault is the error recorded with it and has its span, and the span begins at
the character that the error is about (`forall₂_reports`). The offset of the fault is the position
of this character, with one exception: a comment that is not closed is noticed where its line ends,
and that is the offset of its fault. So offsets and spans agree exactly in the sources in which
every comment is closed (`faults_located`).
-/

namespace Rockstar

/-! ## Characters by line and column -/

namespace Place

/-- The place behind the character that stands at this one. -/
def next (p : Place) (c : Char) : Place :=
  if c = '\n' then ⟨p.line + 1, 1, p.offset + 1⟩ else p.advance c.utf8Size

theorem behind_concat (before : List Char) (c : Char) :
    behind (before ++ [c]) = (behind before).next c := by
  unfold next
  split
  next hc => rw [hc, behind_newline]
  next hc =>
    rw [behind_append before (by simpa using Ne.symm hc)]
    rfl

theorem behind_eq_foldl (before : List Char) : behind before = before.foldl next ⟨1, 1, 0⟩ := by
  induction before using List.reverseRecOn with
  | nil => rfl
  | append_singleton before c ih =>
    rw [behind_concat, ih, List.foldl_append]
    rfl

theorem lt_next (p : Place) (c : Char) :
    p.line < (p.next c).line ∨ p.line = (p.next c).line ∧ p.col < (p.next c).col := by
  unfold next
  split
  next => exact .inl (Nat.lt_succ_self _)
  next => exact .inr ⟨rfl, Nat.lt_add_of_pos_right c.utf8Size_pos⟩

/-- Reading on never comes back to a line and column. -/
theorem lt_foldl_next (p : Place) (c : Char) (cs : List Char) :
    p.line < ((c :: cs).foldl next p).line ∨
      p.line = ((c :: cs).foldl next p).line ∧ p.col < ((c :: cs).foldl next p).col := by
  induction cs generalizing p c with
  | nil => exact p.lt_next c
  | cons d cs ih =>
    have hfirst := p.lt_next c
    have hrest := ih (p.next c) d
    rw [List.foldl_cons]
    omega

end Place

/-- The first character at the line and column in a text that begins at the place, and its byte
position. -/
def charFrom? (line col : Nat) (place : Place) : List Char → Option (Nat × Char)
  | [] => none
  | c :: cs =>
    if place.line = line ∧ place.col = col then some (place.offset, c)
    else charFrom? line col (place.next c) cs

/-- The character at a line and column of the source, and its byte position. -/
def charAt? (source : List Char) (line col : Nat) : Option (Nat × Char) :=
  charFrom? line col ⟨1, 1, 0⟩ source

theorem charFrom?_foldl (place : Place) (before : List Char) (c : Char) (after : List Char) :
    charFrom? (before.foldl Place.next place).line (before.foldl Place.next place).col place
        (before ++ c :: after) =
      some ((before.foldl Place.next place).offset, c) := by
  induction before generalizing place with
  | nil => exact if_pos ⟨rfl, rfl⟩
  | cons d before ih =>
    have hlater := place.lt_foldl_next d before
    rw [List.cons_append, charFrom?, if_neg (by omega), List.foldl_cons, ih]

/-- A character is found at the line and column of its place. -/
theorem charAt?_behind (before : List Char) (c : Char) (after : List Char) :
    charAt? (before ++ c :: after) (Place.behind before).line (Place.behind before).col =
      some (Text.byteSize before, c) := by
  have hoffset : Text.byteSize before = (Place.behind before).offset := rfl
  rw [charAt?, hoffset, Place.behind_eq_foldl, charFrom?_foldl]

/-! ## Recorded errors -/

namespace ScanError

/-- The character that the error is about: the unexpected one, or the one that opens what is not
closed. -/
def char : ScanError → Char
  | .unexpectedChar c _ => c
  | .unterminatedString _ => '"'
  | .unterminatedComment _ => '('

/-- Whether the error is about a comment. -/
def isComment : ScanError → Bool
  | .unterminatedComment _ => true
  | _ => false

variable {e : ScanError} {before slice after : List Char}

/-- A slice that an error is about begins with its character. -/
theorem Marks.exists_cons (h : e.Marks before slice after) : ∃ body, slice = e.char :: body := by
  obtain ⟨-, hslice⟩ := h
  cases e with
  | unexpectedChar c span => exact ⟨[], hslice⟩
  | unterminatedString span => exact ⟨hslice.choose, hslice.choose_spec.1⟩
  | unterminatedComment span => exact ⟨hslice.choose, hslice.choose_spec.1⟩

/-- The span of an error begins at its character. -/
theorem Marks.charAt?_eq (h : e.Marks before slice after) :
    charAt? (before ++ (slice ++ after)) e.span.line e.span.col =
      some (Text.byteSize before, e.char) := by
  obtain ⟨body, rfl⟩ := h.exists_cons
  have hline : e.span.line = (Place.behind before).line := congrArg Place.line h.1
  have hcol : e.span.col = (Place.behind before).col := congrArg Place.col h.1
  rw [hline, hcol, List.cons_append, charAt?_behind]

end ScanError

/-- The error that is recorded for the piece at a position, if there is one. -/
def Piece.error? (p : Piece) (place : Place) : Option ScanError :=
  match p with
  | .openComment _ => some (.unterminatedComment (place.span 1))
  | .openString _ => some (.unterminatedString (place.span 1))
  | .stray c => some (.unexpectedChar c (place.span p.size))
  | _ => none

/-- The errors that are recorded for a text that begins at the given position. -/
def scanErrorsFrom (place : Place) : List Char → List ScanError
  | [] => []
  | c :: cs =>
    let piece := Piece.first c cs
    (piece.error? place).toList ++ scanErrorsFrom (place.advance piece.size) (Piece.restOf c cs)
termination_by cs => cs.length
decreasing_by
  have := Piece.length_restOf_le c cs
  simp only [List.length_cons]
  omega

/-- The errors that are recorded for a source. -/
def scanErrors (source : List Char) : List ScanError :=
  (Line.split source).flatMap fun l => scanErrorsFrom l.place l.text

/-- The tokens of a source that are faults. -/
def faultTokens (source : List Char) : List Token :=
  (tokenize source).filter (·.fault?.isSome)

/-! ## Faults and recorded errors -/

namespace Token

/-- The fault stands where the error is: it has the span of the error, and its offset is the byte
position of the character at the line and column of the span, which is the one that the error is
about. -/
structure Locates (source : List Char) (t : Token) (e : ScanError) : Prop where
  fault : t.fault? = some e
  span : t.span = e.span
  offset : charAt? source e.span.line e.span.col = some (t.offset, e.char)

/-- What the scanner makes of an error about a slice of the source. The span is that of the error
and begins where the slice does. So does the fault, unless the slice is a comment: then the fault is
put behind it. -/
structure Reports (source : List Char) (t : Token) (e : ScanError) : Prop where
  fault : t.fault? = some e
  span : t.span = e.span
  place : ∃ before slice after, source = before ++ (slice ++ after) ∧ e.Marks before slice after ∧
    charAt? source e.span.line e.span.col = some (Text.byteSize before, e.char) ∧
    t.offset = Text.byteSize (if e.isComment then before ++ slice else before)

variable {t : Token} {e : ScanError} {before slice after source : List Char}

theorem reports_of_marks (hfault : t.fault? = some e) (hspan : t.span = e.span)
    (hmarks : e.Marks before slice after)
    (hoffset : t.offset = Text.byteSize (if e.isComment then before ++ slice else before)) :
    t.Reports (before ++ (slice ++ after)) e :=
  ⟨hfault, hspan, before, slice, after, rfl, hmarks, hmarks.charAt?_eq, hoffset⟩

/-- Only the fault of a comment stands elsewhere. -/
theorem Reports.locates_iff (h : t.Reports source e) :
    t.Locates source e ↔ e.isComment = false := by
  obtain ⟨before, slice, after, -, hmarks, hchar, hoffset⟩ := h.place
  constructor
  · intro hlocates
    by_contra hcomment
    -- the slice has its opening parenthesis at least, so its end is not its beginning
    obtain ⟨body, rfl⟩ := hmarks.exists_cons
    have hsame : t.offset = Text.byteSize before :=
      congrArg Prod.fst (Option.some.inj (hlocates.offset.symm.trans hchar))
    rw [hsame, if_pos (by simpa using hcomment), Text.byteSize_append,
      Text.byteSize_cons] at hoffset
    have hpos := e.char.utf8Size_pos
    omega
  · intro hother
    rw [if_neg (by simp [hother])] at hoffset
    exact ⟨h.fault, h.span, by rw [hchar, hoffset]⟩

end Token

/-- The first piece of a line is a fault exactly if an error is recorded for it. -/
theorem Piece.forall₂_reports {before after : List Char} {c : Char} {cs : List Char}
    (hline : '\n' ∉ c :: cs) (hafter : Stops (· ≠ '\n') after) :
    List.Forall₂ (Token.Reports (before ++ (c :: cs ++ after)))
      (((first c cs).tokens (Place.behind before) (c :: cs) (restOf c cs)).filter
        (·.fault?.isSome))
      ((first c cs).error? (Place.behind before)).toList := by
  rw [← raw_append_restOf c cs] at hline ⊢
  rw [List.append_assoc]
  cases hpiece : first c cs with
  | openComment body =>
    rw [hpiece] at hline
    have hopen := unclosed (openComment_of_first hpiece) hline hafter
    have hoffset := (Text.byteSize_append before ('(' :: body)).symm
    exact .cons (Token.reports_of_marks rfl rfl ⟨rfl, hopen⟩ hoffset) .nil
  | openString body =>
    rw [hpiece] at hline
    have hopen := unclosed (openString_of_first hpiece) hline hafter
    exact .cons (Token.reports_of_marks rfl rfl ⟨rfl, hopen⟩ rfl) .nil
  | stray d => exact .cons (Token.reports_of_marks rfl rfl ⟨rfl, rfl⟩ rfl) .nil
  | symbol kind d =>
    have hkind := kind_of_symbol hpiece
    rw [tokens, List.filter_cons_of_neg]
    · exact .nil
    · rw [Token.fault?_eq_none]
      · decide
      · rintro e rfl
        simp at hkind
  -- all others are no faults, and no errors are recorded for them
  | _ => exact .nil

/-- The faults of a text without a newline are the errors that are recorded for it. -/
theorem forall₂_reports_scan {source before after cs : List Char} (hline : '\n' ∉ cs)
    (hafter : Piece.Stops (· ≠ '\n') after) (hsource : source = before ++ (cs ++ after)) :
    List.Forall₂ (Token.Reports source)
      ((scanFrom (Place.behind before) cs).filter (·.fault?.isSome))
      (scanErrorsFrom (Place.behind before) cs) := by
  generalize hplace : Place.behind before = place
  revert before
  fun_induction scanFrom place cs with
  | case1 place =>
    intro before _ _
    rw [scanErrorsFrom]
    exact .nil
  | case2 place c cs piece ih =>
    rintro before rfl rfl
    have hwhole := Piece.raw_append_restOf c cs
    obtain ⟨hraw, hrest⟩ : '\n' ∉ (Piece.first c cs).raw ∧ '\n' ∉ Piece.restOf c cs := by
      rwa [← not_or, ← List.mem_append, hwhole]
    have hbehind : before ++ (c :: cs ++ after) =
        before ++ (Piece.first c cs).raw ++ (Piece.restOf c cs ++ after) := by
      rw [← hwhole, List.append_assoc, List.append_assoc]
    rw [scanErrorsFrom, List.filter_append]
    exact List.rel_append (Piece.forall₂_reports hline hafter)
      (ih hrest hbehind (Place.behind_append before hraw))

theorem Line.filter_fault_stop (l : Line) : [l.stop].filter (·.fault?.isSome) = [] := by
  rw [List.filter_cons_of_neg (by simp [l.fault?_stop]), List.filter_nil]

/-- The faults of the lines behind a text. -/
theorem forall₂_reports_lines {source before : List Char} {number start : Nat} {lines : List Line}
    (h : Line.Follow number start lines) (hplace : Place.behind before = ⟨number, 1, start⟩)
    (hsource : source = before ++ lines.flatMap Line.raw) :
    List.Forall₂ (Token.Reports source)
      ((lines.flatMap fun l => l.tokens ++ [l.stop]).filter (·.fault?.isSome))
      (lines.flatMap fun l => scanErrorsFrom l.place l.text) := by
  induction h generalizing before with
  | @last number start text htext =>
    have hline : source = before ++ (text ++ []) := by simpa [Line.raw] using hsource
    have hscan := forall₂_reports_scan htext (by rintro _ _ ⟨⟩) hline
    rw [hplace] at hscan
    rw [List.flatMap_singleton, List.flatMap_singleton, List.filter_append, Line.filter_fault_stop,
      List.append_nil]
    exact hscan
  | @next number start text lines htext _ ih =>
    have hline : source = before ++ (text ++ '\n' :: lines.flatMap Line.raw) := by
      simpa [Line.raw] using hsource
    have hbehind : source = before ++ text ++ ['\n'] ++ lines.flatMap Line.raw := by
      simpa using hline
    have hnext := Place.behind_line htext hplace
    have hscan := forall₂_reports_scan htext (by rintro d ds ⟨⟩; rfl) hline
    rw [hplace] at hscan
    rw [List.flatMap_cons, List.flatMap_cons, List.filter_append, List.filter_append,
      Line.filter_fault_stop, List.append_nil]
    exact List.rel_append hscan (ih hnext hbehind)

theorem forall₂_reports (source : List Char) :
    List.Forall₂ (Token.Reports source) (faultTokens source) (scanErrors source) := by
  have hfollow : Line.Follow 1 0 (Line.split source) :=
    Line.follow_splitFrom 1 0 List.not_mem_nil source
  have hsource : source = [] ++ (Line.split source).flatMap Line.raw :=
    (Line.flatMap_raw_splitFrom 1 0 [] source).symm
  exact forall₂_reports_lines hfollow rfl hsource

/-! ## Which faults are where their errors are -/

/-- Where one relation holds all along, another one does if the elements of the second list have the
property that makes the difference. -/
theorem forall₂_iff_of_forall₂ {α β : Type} {R S : α → β → Prop} {p : β → Prop} {as : List α}
    {bs : List β} (h : List.Forall₂ R as bs) (hiff : ∀ a b, R a b → (S a b ↔ p b)) :
    List.Forall₂ S as bs ↔ ∀ b ∈ bs, p b := by
  induction h with
  | nil => simp
  | cons hab _ ih => rw [List.forall₂_cons, hiff _ _ hab, ih, List.forall_mem_cons]

theorem forall₂_locates_iff (source : List Char) :
    List.Forall₂ (Token.Locates source) (faultTokens source) (scanErrors source) ↔
      ∀ e ∈ scanErrors source, e.isComment = false :=
  forall₂_iff_of_forall₂ (forall₂_reports source) fun _ _ h => h.locates_iff

/-- The errors that the parser finds in the tokens are the recorded ones. -/
theorem filterMap_fault?_tokenize (source : List Char) :
    (tokenize source).filterMap Token.fault? = scanErrors source := by
  have hfaults : ∀ {ts : List Token} {es : List ScanError},
      List.Forall₂ (Token.Reports source) ts es → ts.filterMap Token.fault? = es := by
    intro ts es h
    induction h with
    | nil => rfl
    | cons hreports _ ih => rw [List.filterMap_cons_some hreports.fault, ih]
  rw [← hfaults (forall₂_reports source), faultTokens, List.filterMap_filter]
  refine List.filterMap_congr fun t _ => ?_
  cases t.fault? <;> rfl

/-- The errors that are recorded for a source are those that the parser finds in its tokens, and the
faults among the tokens are, one by one and in order, these errors. Each has the span of its error,
and at the line and column of this span stands the character that the error is about. Its offset is
the byte position of this character, but for a comment that is not closed it is the end of the line.
So all faults are where their errors are exactly if no comment is left open. -/
theorem faults_located (source : List Char) :
    (tokenize source).filterMap Token.fault? = scanErrors source ∧
      List.Forall₂ (Token.Reports source) (faultTokens source) (scanErrors source) ∧
      (List.Forall₂ (Token.Locates source) (faultTokens source) (scanErrors source) ↔
        ∀ e ∈ scanErrors source, e.isComment = false) :=
  ⟨filterMap_fault?_tokenize source, forall₂_reports source, forall₂_locates_iff source⟩

/-- Two unexpected characters, one of two bytes, and a string that is not closed. -/
example :
    let source := "Say é #§\n  \"ü".toList
    (faultTokens source).map Token.offset = [7, 8, 13] ∧
      (scanErrors source).map (fun e => charAt? source e.span.line e.span.col) =
        [some (7, '#'), some (8, '§'), some (13, '"')] := by
  decide +kernel

/-- The parenthesis stands behind eight bytes, and its fault behind all thirteen. -/
theorem comment_misplaced :
    let source := "Shout X (loud".toList
    scanErrors source = [.unterminatedComment ⟨1, 9, 1⟩] ∧ charAt? source 1 9 = some (8, '(') ∧
      (faultTokens source).map Token.offset = [13] ∧
      ¬List.Forall₂ (Token.Locates source) (faultTokens source) (scanErrors source) := by
  intro source
  have herrors : scanErrors source = [.unterminatedComment ⟨1, 9, 1⟩] := by decide +kernel
  refine ⟨herrors, by decide +kernel, by decide +kernel, fun h => ?_⟩
  have hclosed := (forall₂_locates_iff source).mp h
  rw [herrors] at hclosed
  exact absurd (hclosed _ List.mem_cons_self) (by decide)

end Rockstar
