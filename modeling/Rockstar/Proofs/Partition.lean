import Mathlib.Data.List.DropRight
import Rockstar.Proofs.LineByLine
import Rockstar.Proofs.NameShapes

/-!
# Tokens partition the source

The scanner counts lines, columns and bytes while it cuts the rest of the text shorter and shorter.
`Partition` ties the two together: read from left to right, a source is one stretch after the other,
each a token, a blank, a closed comment or the subject of an error, and each token is placed where
its stretch begins. Pieces are put in front of what is known of the rest (`Partition.piece`), so a
line is (`Partition.scan`), and so is a source (`partition_lines`).

The places of the tokens are then the places of their stretches (`Partition.standsAt_of_mem`), and
cutting the source at these places gives the texts that the parser works with
(`between?_reference`).
-/

namespace Rockstar

/-! ## Cutting a text at byte positions -/

namespace Text

theorem dropBytes?_byteSize_append (a b : List Char) :
    dropBytes? (byteSize a) (a ++ b) = some b := by
  induction a with
  | nil => rw [byteSize_nil, List.nil_append, dropBytes?]
  | cons c cs ih =>
    obtain ⟨n, hn⟩ := Nat.exists_eq_succ_of_ne_zero (Nat.ne_of_gt c.utf8Size_pos)
    have hsize : byteSize (c :: cs) = n + byteSize cs + 1 := by
      rw [byteSize_cons]
      omega
    have hrest : n + byteSize cs + 1 - c.utf8Size = byteSize cs := by omega
    rw [hsize, List.cons_append, dropBytes?, if_pos (by omega), hrest, ih]

theorem takeBytes?_byteSize_append (a b : List Char) :
    takeBytes? (byteSize a) (a ++ b) = some a := by
  induction a with
  | nil => rw [byteSize_nil, List.nil_append, takeBytes?]
  | cons c cs ih =>
    obtain ⟨n, hn⟩ := Nat.exists_eq_succ_of_ne_zero (Nat.ne_of_gt c.utf8Size_pos)
    have hsize : byteSize (c :: cs) = n + byteSize cs + 1 := by
      rw [byteSize_cons]
      omega
    have hrest : n + byteSize cs + 1 - c.utf8Size = byteSize cs := by omega
    rw [hsize, List.cons_append, takeBytes?, if_pos (by omega), hrest, ih]
    rfl

theorem between?_append (before slice after : List Char) :
    between? (byteSize before) (byteSize (before ++ slice)) (before ++ (slice ++ after)) =
      some slice := by
  have hlen : byteSize (before ++ slice) - byteSize before = byteSize slice := by
    rw [byteSize_append]
    omega
  have hle : byteSize before ≤ byteSize (before ++ slice) := by
    rw [byteSize_append]
    omega
  rw [between?, if_pos hle, dropBytes?_byteSize_append, Option.bind_some, hlen,
    takeBytes?_byteSize_append]

/-- Of two beginnings of a text, the one with fewer bytes is a beginning of the other. -/
theorem exists_append_of_byteSize_le {a b c d : List Char} (h : a ++ b = c ++ d)
    (hle : byteSize a ≤ byteSize c) : ∃ x, c = a ++ x ∧ b = x ++ d := by
  rcases List.append_eq_append_iff.mp h with ⟨x, hc, hb⟩ | ⟨x, ha, hd⟩
  · exact ⟨x, hc, hb⟩
  · -- the first one is no longer than the second, so nothing is left between them
    have hx : x = [] := by
      by_contra hne
      have hpos := byteSize_pos hne
      rw [ha, byteSize_append] at hle
      omega
    subst hx
    exact ⟨[], by simpa using ha.symm, by simpa using hd.symm⟩

end Text

/-- The byte positions of the newlines in a text that begins at the given one. -/
def breaksFrom (start : Nat) : List Char → List Nat
  | [] => []
  | c :: cs =>
    if c = '\n' then start :: breaksFrom (start + 1) cs else breaksFrom (start + c.utf8Size) cs

theorem breaksFrom_append (start : Nat) {text : List Char} (h : '\n' ∉ text) (cs : List Char) :
    breaksFrom start (text ++ cs) = breaksFrom (start + Text.byteSize text) cs := by
  induction text generalizing start with
  | nil => rfl
  | cons c text ih =>
    simp only [List.mem_cons, not_or] at h
    rw [List.cons_append, breaksFrom, if_neg (Ne.symm h.1), ih _ h.2, Text.byteSize_cons,
      Nat.add_assoc]

/-! ## Places -/

namespace Place

/-- The place behind the text with which a source begins: its line is one more than the newlines
before it, and its column one more than the bytes since the last of them. -/
def behind (before : List Char) : Place where
  line := 1 + before.count '\n'
  col := 1 + Text.byteSize (before.rtakeWhile (· ≠ '\n'))
  offset := Text.byteSize before

theorem rtakeWhile_append {p : Char → Bool} (before : List Char) {cs : List Char}
    (h : ∀ c ∈ cs, p c = true) : (before ++ cs).rtakeWhile p = before.rtakeWhile p ++ cs := by
  rw [List.rtakeWhile, List.reverse_append,
    List.takeWhile_append_of_pos (by simpa using h), List.reverse_append, List.reverse_reverse]
  rfl

theorem behind_append (before : List Char) {cs : List Char} (h : '\n' ∉ cs) :
    behind (before ++ cs) = (behind before).advance (Text.byteSize cs) := by
  have hall : ∀ c ∈ cs, decide (c ≠ '\n') = true := by
    intro c hc
    exact decide_eq_true (ne_of_mem_of_not_mem hc h)
  simp only [behind, advance, rtakeWhile_append before hall, List.count_append,
    List.count_eq_zero.mpr h, Text.byteSize_append, Nat.add_assoc, Nat.add_zero]

theorem behind_newline (before : List Char) :
    behind (before ++ ['\n']) =
      ⟨(behind before).line + 1, 1, (behind before).offset + 1⟩ := by
  have hsize : '\n'.utf8Size = 1 := rfl
  simp [behind, hsize, Nat.add_assoc]

/-- Behind a line and its newline the next line begins. -/
theorem behind_line {before text : List Char} {number start : Nat} (htext : '\n' ∉ text)
    (hplace : behind before = ⟨number, 1, start⟩) :
    behind (before ++ text ++ ['\n']) = ⟨number + 1, 1, start + Text.byteSize text + 1⟩ := by
  rw [behind_newline, behind_append before htext, hplace]
  rfl

end Place

/-! ## Stretches -/

namespace Token

/-- Where the token begins. -/
def place (t : Token) : Place := ⟨t.span.line, t.span.col, t.offset⟩

/-- The characters that a token stands for: a string has its quotes, and the "is" of a contraction
is an apostrophe and an s. All others are written as they are. -/
def Spelled (t : Token) (slice : List Char) : Prop :=
  match t.kind with
  | .string => slice = '"' :: t.lexeme.toList ++ ['"']
  | .word =>
    slice = t.lexeme.toList ∨ t.lexeme = "is" ∧ (slice = ['\'', 's'] ∨ slice = ['\'', 'S'])
  | _ => slice = t.lexeme.toList

/-- The token, which is no fault, stands for a slice of the source between two other parts of it. A
token that does not end a line stays on its line, and knows the rest of it. -/
structure StandsAt (t : Token) (before slice after : List Char) : Prop where
  sound : t.fault? = none
  place : t.place = Place.behind before
  endOffset : t.endOffset = Text.byteSize (before ++ slice)
  spelled : t.Spelled slice
  onward : t.onward = (slice ++ after).takeWhile (· ≠ '\n')
  behind : t.kind.endsLine = false → '\n' ∉ slice ∧ t.behind = after.takeWhile (· ≠ '\n')

variable {t : Token} {before slice after : List Char}

theorem StandsAt.offset_eq (h : t.StandsAt before slice after) :
    t.offset = Text.byteSize before :=
  congrArg Place.offset h.place

theorem StandsAt.len_eq (h : t.StandsAt before slice after) :
    t.span.len = Text.byteSize slice := by
  have hend := h.endOffset
  rw [Token.endOffset, h.offset_eq, Text.byteSize_append] at hend
  exact Nat.add_left_cancel hend

end Token

/-- The slice runs from the opening character up to the end of its line, and is not closed. -/
def Unclosed (opening closing : Char) (slice after : List Char) : Prop :=
  ∃ body, slice = opening :: body ∧ closing ∉ body ∧ '\n' ∉ body ∧
    Piece.Stops (· ≠ '\n') after

/-- The error is about a slice of the source and names the place where it begins. -/
def ScanError.Marks (e : ScanError) (before slice after : List Char) : Prop :=
  (⟨e.span.line, e.span.col, Text.byteSize before⟩ : Place) = Place.behind before ∧
    match e with
    | .unexpectedChar c _ => slice = [c]
    | .unterminatedString _ => Unclosed '"' '"' slice after
    | .unterminatedComment _ => Unclosed '(' ')' slice after

/-- The text, which follows `before` in the source, is a row of stretches with these tokens: each
stretch is a token, a blank, a closed comment, or one for which an error was recorded. -/
inductive Partition : List Char → List Char → List Token → Prop where
  | nil (before : List Char) : Partition before [] []
  | token {before slice after : List Char} {t : Token} {ts : List Token} :
      t.StandsAt before slice after → Partition (before ++ slice) after ts →
      Partition before (slice ++ after) (t :: ts)
  | blank {before after : List Char} {c : Char} {ts : List Token} : isBlank c = true →
      Partition (before ++ [c]) after ts → Partition before (c :: after) ts
  | comment {before body after : List Char} {ts : List Token} : ')' ∉ body → '\n' ∉ body →
      Partition (before ++ ('(' :: body ++ [')'])) after ts →
      Partition before ('(' :: body ++ [')'] ++ after) ts
  | fault {before slice after : List Char} {t : Token} {e : ScanError} {ts : List Token} :
      t.fault? = some e → e.Marks before slice after → Partition (before ++ slice) after ts →
      Partition before (slice ++ after) (t :: ts)

/-! ## Pieces -/

namespace Piece

variable {c : Char} {cs body : List Char}

theorem isBlank_of_first {d : Char} (h : first c cs = .blank d) : isBlank d = true := by
  unfold first ofWord at h
  grind

/-- An apostrophe and an s are two bytes. -/
theorem byteSize_of_contraction {stem : List Char} {s : Char}
    (h : first c cs = .contraction stem s) : Text.byteSize ['\'', s] = 2 := by
  rcases (contraction_of_first h).2 with rfl | rfl <;> rfl

/-- A comment ends at the first closing parenthesis. -/
theorem comment_of_first (h : first c cs = .comment body) : ')' ∉ body := by
  have hbody : body = cs.takeWhile (· ≠ ')') := by
    unfold first ofWord at h
    grind
  intro hmem
  rw [hbody] at hmem
  exact absurd (List.mem_takeWhile_imp hmem) (by decide)

/-- A comment that is not closed takes the rest of the text. -/
theorem openComment_of_first (h : first c cs = .openComment body) :
    ')' ∉ body ∧ restOf c cs = [] := by
  obtain ⟨rfl, hopen⟩ : c = '(' ∧ ')' ∉ cs := by
    unfold first ofWord at h
    grind
  obtain ⟨hfirst, hrest⟩ := first_openComment hopen
  rw [hfirst] at h
  cases h
  exact ⟨hopen, hrest⟩

/-- A string that is not closed takes the rest of the text. -/
theorem openString_of_first (h : first c cs = .openString body) :
    '"' ∉ body ∧ restOf c cs = [] := by
  obtain ⟨rfl, hopen⟩ : c = '"' ∧ '"' ∉ cs := by
    unfold first ofWord at h
    grind
  obtain ⟨hfirst, hrest⟩ := first_openString hopen
  rw [hfirst] at h
  cases h
  exact ⟨hopen, hrest⟩

/-- What takes the rest of a line is not closed up to its end. -/
theorem unclosed {opening closing : Char} {rest after : List Char}
    (hopen : closing ∉ body ∧ rest = []) (hline : '\n' ∉ opening :: body ++ rest)
    (hafter : Stops (· ≠ '\n') after) :
    Unclosed opening closing (opening :: body) (rest ++ after) := by
  obtain ⟨hclosing, rfl⟩ := hopen
  refine ⟨body, rfl, hclosing, fun hmem => hline ?_, hafter⟩
  simp [hmem]

end Piece

theorem takeWhile_line {text after : List Char} (h : '\n' ∉ text)
    (hafter : Piece.Stops (· ≠ '\n') after) : (text ++ after).takeWhile (· ≠ '\n') = text :=
  (Piece.takeWhile_of_stops (fun _ hc => decide_eq_true (ne_of_mem_of_not_mem hc h)) hafter).1

/-- A token that begins where the text before it ends, and is as long as its slice. -/
theorem Token.standsAt {kind : TokenKind} {lexeme : String} {before slice rest after : List Char}
    (hsound : ∀ e, kind ≠ .fault e) (hline : '\n' ∉ slice ++ rest)
    (hafter : Piece.Stops (· ≠ '\n') after)
    (hspelled : ∀ span offset onward behind,
      (⟨kind, lexeme, span, offset, onward, behind⟩ : Token).Spelled slice) :
    (⟨kind, lexeme, (Place.behind before).span (Text.byteSize slice), (Place.behind before).offset,
      slice ++ rest, rest⟩ : Token).StandsAt before slice (rest ++ after) where
  sound := by
    unfold fault?
    split
    next e he => exact absurd he (hsound e)
    next => rfl
  place := rfl
  endOffset := (Text.byteSize_append before slice).symm
  spelled := hspelled _ _ _ _
  onward := by rw [← List.append_assoc, takeWhile_line hline hafter]
  behind := by
    rw [List.mem_append, not_or] at hline
    exact fun _ => ⟨hline.1, (takeWhile_line hline.2 hafter).symm⟩

/-- The first piece of a line is put in front of a row of stretches. -/
theorem Partition.piece {before after : List Char} {c : Char} {cs : List Char} {ts : List Token}
    (hline : '\n' ∉ c :: cs) (hafter : Piece.Stops (· ≠ '\n') after)
    (h : Partition (before ++ (Piece.first c cs).raw) (Piece.restOf c cs ++ after) ts) :
    Partition before (c :: cs ++ after)
      ((Piece.first c cs).tokens (Place.behind before) (c :: cs) (Piece.restOf c cs) ++ ts) := by
  rw [← Piece.raw_append_restOf c cs] at hline ⊢
  rw [List.append_assoc]
  cases hpiece : Piece.first c cs with
  | blank d =>
    rw [hpiece] at h
    exact .blank (Piece.isBlank_of_first hpiece) h
  | comment body =>
    rw [hpiece] at h hline
    refine .comment (Piece.comment_of_first hpiece) (fun hmem => hline ?_) h
    simp [Piece.raw, hmem]
  | openComment body =>
    have hopen := Piece.openComment_of_first hpiece
    rw [hpiece] at h hline
    exact .fault rfl ⟨rfl, Piece.unclosed hopen hline hafter⟩ h
  | openString body =>
    have hopen := Piece.openString_of_first hpiece
    rw [hpiece] at h hline
    exact .fault rfl ⟨rfl, Piece.unclosed hopen hline hafter⟩ h
  | stray d =>
    rw [hpiece] at h
    exact .fault rfl ⟨rfl, rfl⟩ h
  | symbol kind d =>
    have hkind := Piece.kind_of_symbol hpiece
    rw [hpiece] at h hline
    refine .token (Token.standsAt ?_ hline hafter ?_) h
    · rintro e rfl
      simp at hkind
    · simp only [List.mem_cons, List.not_mem_nil, or_false] at hkind
      rcases hkind with rfl | rfl | rfl | rfl | rfl | rfl <;> simp [Token.Spelled, Piece.raw]
  | contraction stem s =>
    have hs := (Piece.contraction_of_first hpiece).2
    have hsize := Piece.byteSize_of_contraction hpiece
    rw [hpiece] at h hline
    rw [Piece.raw, List.append_assoc] at hline ⊢
    rw [Piece.raw, ← List.append_assoc] at h
    -- the apostrophe and the s begin behind the stem
    obtain ⟨hstem, hsecond⟩ : '\n' ∉ stem ∧ '\n' ∉ ['\'', s] ++ Piece.restOf c cs := by
      rwa [← not_or, ← List.mem_append]
    have hplace := Place.behind_append before hstem
    rw [List.append_assoc]
    refine .token (Token.standsAt (by simp) hline hafter (by simp [Token.Spelled])) ?_
    rw [← hsize, ← hplace]
    refine .token (Token.standsAt (by simp) hsecond hafter fun _ _ _ _ => .inr ⟨rfl, ?_⟩) h
    simpa using hs
  -- strings, numbers and words are one token each
  | _ =>
    rw [hpiece] at h hline
    exact .token (Token.standsAt (by simp) hline hafter (by simp [Token.Spelled, Piece.raw])) h

/-- The tokens of a line are put in front of a row of stretches. -/
theorem Partition.scan {before after cs : List Char} {ts : List Token} (hline : '\n' ∉ cs)
    (hafter : Piece.Stops (· ≠ '\n') after) (h : Partition (before ++ cs) after ts) :
    Partition before (cs ++ after) (scanFrom (Place.behind before) cs ++ ts) := by
  generalize hplace : Place.behind before = place
  revert before
  fun_induction scanFrom place cs with
  | case1 place =>
    intro before h _
    simpa using h
  | case2 place c cs piece ih =>
    rintro before h rfl
    have hwhole := Piece.raw_append_restOf c cs
    obtain ⟨hraw, hrest⟩ : '\n' ∉ (Piece.first c cs).raw ∧ '\n' ∉ Piece.restOf c cs := by
      rwa [← not_or, ← List.mem_append, hwhole]
    rw [← hwhole, ← List.append_assoc] at h
    rw [List.append_assoc]
    exact .piece hline hafter (ih hrest h (Place.behind_append before hraw))

/-! ## Lines -/

/-- The token that ends a line stands for the newline, if there is one. -/
theorem Line.standsAt_stop {l : Line} {before : List Char} (hline : '\n' ∉ l.text)
    (hplace : Place.behind before = l.place) (after : List Char)
    (hlast : l.isLast = true → after = []) :
    l.stop.StandsAt (before ++ l.text) (if l.isLast then [] else ['\n']) after := by
  have hbehind : l.stop.place = Place.behind (before ++ l.text) := by
    rw [Place.behind_append before hline, hplace]
    rfl
  have hoffset : l.stop.offset = Text.byteSize (before ++ l.text) :=
    congrArg Place.offset hbehind
  have hends : ¬l.stop.kind.endsLine = false := by simp [l.endsLine_stop]
  obtain ⟨number, start, text, isLast⟩ := l
  cases isLast with
  | true =>
    obtain rfl := hlast rfl
    refine ⟨rfl, hbehind, ?_, rfl, rfl, fun h => absurd h hends⟩
    rw [Token.endOffset, hoffset]
    simp [stop, endSpan]
  | false =>
    refine ⟨rfl, hbehind, ?_, by simp [Token.Spelled, stop], rfl, fun h => absurd h hends⟩
    rw [Token.endOffset, hoffset, Text.byteSize_append (before ++ text)]
    rfl

/-- The tokens of lines that begin behind a text. -/
theorem partition_lines {number start : Nat} {lines : List Line}
    (h : Line.Follow number start lines) {before : List Char}
    (hplace : Place.behind before = ⟨number, 1, start⟩) :
    Partition before (lines.flatMap Line.raw) (lines.flatMap fun l => l.tokens ++ [l.stop]) := by
  induction h generalizing before with
  | @last number start text htext =>
    have hstop := Line.standsAt_stop (l := ⟨number, start, text, true⟩) htext hplace [] fun _ => rfl
    have hscan := Partition.scan htext (by rintro _ _ ⟨⟩) (.token hstop (.nil _))
    rw [hplace] at hscan
    simpa [Line.raw, Line.tokens, Line.place] using hscan
  | @next number start text lines htext _ ih =>
    have hnext := Place.behind_line htext hplace
    have hstop := Line.standsAt_stop (l := ⟨number, start, text, false⟩) htext hplace
      (lines.flatMap Line.raw) (by simp)
    have hscan := Partition.scan htext (by rintro d ds ⟨⟩; rfl) (.token hstop (ih hnext))
    rw [hplace] at hscan
    simpa [Line.raw, Line.tokens, Line.place] using hscan

/-- The first line of a source begins at its beginning. -/
theorem partition_tokenize (source : List Char) : Partition [] source (tokenize source) := by
  have hfollow : Line.Follow 1 0 (Line.split source) :=
    Line.follow_splitFrom 1 0 (List.not_mem_nil) source
  have hpartition : Partition [] ((Line.split source).flatMap Line.raw) (tokenize source) :=
    partition_lines hfollow rfl
  rwa [Line.split, Line.flatMap_raw_splitFrom] at hpartition

/-! ## Tokens of a source -/

/-- Every token but a fault stands for a slice of the text. -/
theorem Partition.standsAt_of_mem {before text : List Char} {ts : List Token}
    (h : Partition before text ts) {t : Token} (ht : t ∈ ts) (hsound : t.fault? = none) :
    ∃ front slice after, text = front ++ (slice ++ after) ∧
      t.StandsAt (before ++ front) slice after := by
  -- what is put in front of the text is put in front of all that comes before the token
  have hstep : ∀ {before : List Char} (slice : List Char) {text : List Char},
      (∃ front slice' after, text = front ++ (slice' ++ after) ∧
        t.StandsAt (before ++ slice ++ front) slice' after) →
      ∃ front slice' after, slice ++ text = front ++ (slice' ++ after) ∧
        t.StandsAt (before ++ front) slice' after := by
    rintro before slice text ⟨front, slice', after, rfl, hstands⟩
    exact ⟨slice ++ front, slice', after, by simp, by simpa using hstands⟩
  induction h with
  | nil before => cases ht
  | @token before slice after u ts hstands _ ih =>
    rcases List.mem_cons.mp ht with rfl | hmem
    · exact ⟨[], slice, after, rfl, by simpa using hstands⟩
    · exact hstep slice (ih hmem)
  | blank _ _ ih => exact hstep [_] (ih ht)
  | comment _ _ _ ih => exact hstep _ (ih ht)
  | fault hfault _ _ ih =>
    rcases List.mem_cons.mp ht with rfl | hmem
    · rw [hfault] at hsound
      cases hsound
    · exact hstep _ (ih hmem)

/-- Tokens do not overlap. -/
theorem Partition.pairwise {before text : List Char} {ts : List Token}
    (h : Partition before text ts) :
    (ts.filter (·.fault?.isNone)).Pairwise (fun t u => t.endOffset ≤ u.offset) := by
  induction h with
  | nil before => exact .nil
  | @token before slice after t ts hstands hrest ih =>
    rw [List.filter_cons_of_pos (by simp [hstands.sound])]
    refine List.pairwise_cons.mpr ⟨fun u hu => ?_, ih⟩
    obtain ⟨hmem, hsound⟩ := List.mem_filter.mp hu
    obtain ⟨front, slice', after', -, hstands'⟩ :=
      hrest.standsAt_of_mem hmem (by simpa using hsound)
    rw [hstands.endOffset, hstands'.offset_eq, Text.byteSize_append (before ++ slice)]
    exact Nat.le_add_right _ _
  | blank _ _ ih => exact ih
  | comment _ _ _ ih => exact ih
  | fault hfault _ _ ih =>
    rw [List.filter_cons_of_neg (by simp [hfault])]
    exact ih

namespace Line

theorem filter_newline_tokens (l : Line) : l.tokens.filter (·.kind = .newline) = [] := by
  refine List.filter_eq_nil_iff.mpr fun t ht hkind => ?_
  have hends := l.endsLine_tokens ht
  rw [of_decide_eq_true hkind] at hends
  cases hends

/-- The newline tokens stand at the newlines. -/
theorem newlines_lines {number start : Nat} {lines : List Line} (h : Follow number start lines) :
    ((lines.flatMap fun l => l.tokens ++ [l.stop]).filter (·.kind = .newline)).map Token.offset =
      breaksFrom start (lines.flatMap raw) := by
  induction h with
  | @last number start text htext =>
    have hraw : [⟨number, start, text, true⟩].flatMap raw = text ++ [] := by simp [raw]
    rw [hraw, breaksFrom_append start htext, breaksFrom, List.flatMap_singleton,
      List.filter_append, filter_newline_tokens]
    rfl
  | @next number start text lines htext _ ih =>
    have hraw : (⟨number, start, text, false⟩ :: lines).flatMap raw =
        text ++ '\n' :: lines.flatMap raw := by
      simp [raw]
    rw [hraw, breaksFrom_append start htext, breaksFrom, if_pos rfl, ← ih, List.flatMap_cons,
      List.filter_append, List.filter_append, filter_newline_tokens]
    rfl

/-- The last token, and no other one, marks the end. -/
theorem endOfSource_lines {number start : Nat} {lines : List Line}
    (h : Follow number start lines) :
    ∃ front stop, (lines.flatMap fun l => l.tokens ++ [l.stop]) = front ++ [stop] ∧
      stop.kind = .endOfSource ∧ stop.offset = start + Text.byteSize (lines.flatMap raw) ∧
      ∀ t ∈ front, t.kind ≠ .endOfSource := by
  have hline : ∀ (l : Line), ∀ t ∈ l.tokens, t.kind ≠ .endOfSource := by
    intro l t ht hkind
    have hends := l.endsLine_tokens ht
    rw [hkind] at hends
    cases hends
  induction h with
  | @last number start text htext =>
    refine ⟨_, _, List.flatMap_singleton _ _, rfl, ?_, hline _⟩
    simp [stop, raw]
  | @next number start text lines htext _ ih =>
    obtain ⟨front, last, hlast, hkind, hoffset, hfront⟩ := ih
    refine ⟨tokens ⟨number, start, text, false⟩ ++ stop ⟨number, start, text, false⟩ :: front,
      last, by simp [hlast], hkind, ?_, ?_⟩
    · have hsize : '\n'.utf8Size = 1 := rfl
      simp [hoffset, raw, hsize, Nat.add_assoc]
    · intro t ht
      rcases List.mem_append.mp ht with hmem | hmem
      · exact hline _ t hmem
      · rcases List.mem_cons.mp hmem with rfl | hmem
        · simp [stop]
        · exact hfront t hmem

end Line

/-! ## Slices of a source -/

namespace Token

variable {t : Token} {before slice after : List Char}

/-- The rest of the line is found behind the token. -/
theorem StandsAt.rest (h : t.StandsAt before slice after) (hends : t.kind.endsLine = false) :
    (Text.dropBytes? t.endOffset (before ++ (slice ++ after))).map (List.takeWhile (· ≠ '\n')) =
      some t.behind := by
  rw [h.endOffset, ← List.append_assoc, Text.dropBytes?_byteSize_append, Option.map_some,
    (h.behind hends).2]

/-- The text from one token to another one on the same line is the text of the reference that
reaches from the one to the other. -/
theorem between?_reference {first last : Token} {before' slice' after' source : List Char}
    (h : first.StandsAt before slice after) (hsource : source = before ++ (slice ++ after))
    (h' : last.StandsAt before' slice' after') (hsource' : source = before' ++ (slice' ++ after'))
    (hends : last.kind.endsLine = false) (hline : first.span.line = last.span.line)
    (hle : first.offset ≤ last.offset) :
    Text.between? first.offset last.endOffset source =
      some (Reader.reference first last).text.toList := by
  rw [h.offset_eq, h'.offset_eq] at hle
  obtain ⟨x, rfl, hx⟩ := Text.exists_append_of_byteSize_le (hsource.symm.trans hsource') hle
  -- there is no newline between the two tokens
  have hplace := h'.place
  have hnewline : '\n' ∉ x := by
    have hlines : 1 + before.count '\n' = 1 + (before ++ x).count '\n' :=
      (congrArg Place.line h.place).symm.trans (hline.trans (congrArg Place.line hplace))
    rw [List.count_append] at hlines
    exact List.count_eq_zero.mp (by omega)
  have hcol : last.span.col = first.span.col + Text.byteSize x := by
    rw [Place.behind_append before hnewline, ← h.place] at hplace
    exact congrArg Place.col hplace
  have hwidth : last.span.endCol - first.span.col = Text.byteSize (x ++ slice') := by
    rw [Span.endCol, hcol, h'.len_eq, Text.byteSize_append]
    omega
  have honward : first.onward = x ++ slice' ++ after'.takeWhile (· ≠ '\n') := by
    rw [h.onward, hx, ← List.append_assoc, List.takeWhile_append_of_pos]
    intro c hc
    have hmem : '\n' ∉ x ++ slice' := by simp [hnewline, (h'.behind hends).1]
    exact decide_eq_true (ne_of_mem_of_not_mem hc hmem)
  have htext : (Reader.reference first last).text = String.ofList (x ++ slice') := by
    rw [Reader.reference, hwidth, honward, Text.takeBytes_byteSize_append]
  rw [hsource', h.offset_eq, h'.endOffset, htext, String.toList_ofList, List.append_assoc,
    List.append_assoc, ← List.append_assoc x, Text.between?_append]

end Token

/-- A token of a source that is no fault stands for a slice of it. -/
theorem standsAt_of_mem_tokenize {source : List Char} {t : Token} (ht : t ∈ tokenize source)
    (hsound : t.fault? = none) :
    ∃ before slice after, source = before ++ (slice ++ after) ∧ t.StandsAt before slice after :=
  (partition_tokenize source).standsAt_of_mem ht hsound

theorem Line.sublist_tokenize {source : List Char} {l : Line} (h : l ∈ Line.split source) :
    l.tokens.Sublist (tokenize source) := by
  refine (List.sublist_append_left _ [l.stop]).trans ?_
  exact List.sublist_flatten_of_mem (List.mem_map_of_mem h)

/-- The text from the first of some words of a line to the last of them is a slice of the source. -/
theorem between?_of_words {source : List Char} {l : Line} (hl : l ∈ Line.split source)
    {first : Token} {more : List Token} (hsub : (first :: more).Sublist l.tokens)
    (hwords : ∀ t ∈ first :: more, t.kind = .word) :
    Text.between? first.offset (more.getLast?.getD first).endOffset source =
      some (Reader.reference first (more.getLast?.getD first)).text.toList := by
  have hsound : ∀ t ∈ first :: more, t.fault? = none := by
    intro t ht
    unfold Token.fault?
    rw [hwords t ht]
  -- the last word is the first one, or stands behind it
  obtain ⟨last, hlast, hmem, hle⟩ : ∃ last, more.getLast?.getD first = last ∧
      last ∈ first :: more ∧ first.offset ≤ last.offset := by
    cases hmore : more.getLast? with
    | none => exact ⟨first, rfl, List.mem_cons_self, Nat.le_refl _⟩
    | some last =>
      have hmem := List.mem_of_getLast? hmore
      have hpair := (partition_tokenize source).pairwise.sublist
        ((hsub.trans (Line.sublist_tokenize hl)).filter _)
      rw [List.filter_eq_self.mpr (by simpa using hsound), List.pairwise_cons] at hpair
      exact ⟨last, rfl, List.mem_cons_of_mem _ hmem,
        Nat.le_trans (Nat.le_add_right _ _) (hpair.1 last hmem)⟩
  rw [hlast]
  have hstands : ∀ t ∈ first :: more, ∃ before slice after, source = before ++ (slice ++ after) ∧
      t.StandsAt before slice after := fun t ht =>
    standsAt_of_mem_tokenize ((hsub.trans (Line.sublist_tokenize hl)).mem ht) (hsound t ht)
  obtain ⟨a, s, b, hsource, hfirst⟩ := hstands first List.mem_cons_self
  obtain ⟨a', s', b', hsource', hlast'⟩ := hstands last hmem
  have hline : first.span.line = last.span.line :=
    (l.inOrder_tokens.onLine first (hsub.mem List.mem_cons_self)).trans
      (l.inOrder_tokens.onLine last (hsub.mem hmem)).symm
  have hends : last.kind.endsLine = false := by rw [hwords last hmem]; rfl
  exact Token.between?_reference hfirst hsource hlast' hsource' hends hline hle

/-- The text of a reference that is read from a line is a slice of the source. -/
theorem between?_of_reads {source : List Char} {l : Line} (hl : l ∈ Line.split source)
    {r : Reader} {v : Variable} (h : r.Reads l.tokens v) :
    ∃ first ∈ l.tokens, ∃ last ∈ l.tokens, v = Reader.reference first last ∧
      Text.between? first.offset last.endOffset source = some v.text.toList := by
  obtain ⟨before, taken, rest, htokens, href⟩ := h
  obtain ⟨first, more, -, htaken, rfl, hwords, -⟩ := Reader.takes_of_variableRef href
  obtain rfl := List.append_cancel_right htaken
  have hsub : (first :: more).Sublist l.tokens := by
    rw [htokens]
    exact (List.sublist_append_left _ _).trans (List.sublist_append_right _ _)
  have hmem : more.getLast?.getD first ∈ first :: more := by
    cases hmore : more.getLast? with
    | none => exact List.mem_cons_self
    | some last => exact List.mem_cons_of_mem _ (List.mem_of_getLast? hmore)
  exact ⟨first, hsub.mem List.mem_cons_self, _, hsub.mem hmem, rfl,
    between?_of_words hl hsub fun t ht => (hwords t ht).1⟩

/-- Tokens partition the source. Read from left to right, the source is a row of tokens, blanks,
closed comments and stretches for which an error was recorded. One token marks the end, and it is
the last one; the newline tokens stand at the newlines; every other token but a fault stands for
the slice of the source at its place; and tokens do not overlap. So the rest of the line behind a
token, and the text of a reference, can be cut from the source at the places of the tokens. -/
theorem tokenize_partitions (source : List Char) :
    Partition [] source (tokenize source) ∧
      (∃ front stop, tokenize source = front ++ [stop] ∧ stop.kind = .endOfSource ∧
        stop.offset = Text.byteSize source ∧ ∀ t ∈ front, t.kind ≠ .endOfSource) ∧
      ((tokenize source).filter (·.kind = .newline)).map Token.offset = breaksFrom 0 source ∧
      (∀ t ∈ tokenize source, t.fault? = none →
        ∃ before slice after, source = before ++ (slice ++ after) ∧
          t.StandsAt before slice after) ∧
      ((tokenize source).filter (·.fault?.isNone)).Pairwise
        (fun t u => t.endOffset ≤ u.offset) ∧
      (∀ t ∈ tokenize source, t.fault? = none → t.kind.endsLine = false →
        (Text.dropBytes? t.endOffset source).map (List.takeWhile (· ≠ '\n')) = some t.behind) ∧
      ∀ l ∈ Line.split source, ∀ (r : Reader) (v : Variable), r.Reads l.tokens v →
        ∃ first ∈ l.tokens, ∃ last ∈ l.tokens, v = Reader.reference first last ∧
          Text.between? first.offset last.endOffset source = some v.text.toList := by
  have hfollow : Line.Follow 1 0 (Line.split source) :=
    Line.follow_splitFrom 1 0 (List.not_mem_nil) source
  have hraw : (Line.split source).flatMap Line.raw = source :=
    Line.flatMap_raw_splitFrom 1 0 [] source
  refine ⟨partition_tokenize source, ?_, ?_, fun t ht => standsAt_of_mem_tokenize ht,
    (partition_tokenize source).pairwise, ?_, fun l hl r v => between?_of_reads hl⟩
  · have hends := Line.endOfSource_lines hfollow
    rwa [hraw, Nat.zero_add] at hends
  · have hnewlines := Line.newlines_lines hfollow
    rwa [hraw] at hnewlines
  · intro t ht hsound hends
    obtain ⟨before, slice, after, rfl, hstands⟩ := standsAt_of_mem_tokenize ht hsound
    exact hstands.rest hends

/-- A contraction behind a letter of two bytes, with a comment on its line and an open string on the
next one. -/
theorem tokenize_partitions_zoe :
    let source := "Zoë's 1 (é)\n\"ü".toList
    let line : Line := ⟨1, 0, "Zoë's 1 (é)".toList, false⟩
    let is : Token := ⟨.word, "is", ⟨1, 5, 2⟩, 4, "'s 1 (é)".toList, " 1 (é)".toList⟩
    is ∈ tokenize source ∧ is.fault? = none ∧
      (∃ before slice after, source = before ++ (slice ++ after) ∧ is.StandsAt before slice after) ∧
      (Text.dropBytes? 6 source).map (List.takeWhile (· ≠ '\n')) = some " 1 (é)".toList ∧
      ((tokenize source).filter (·.kind = .newline)).map Token.offset = [13] ∧
      ∃ first ∈ line.tokens, ∃ last ∈ line.tokens,
        Text.between? first.offset last.endOffset source = some "Zoë".toList := by
  intro source line is
  have his : is ∈ tokenize source := by decide +kernel
  have hline : line ∈ Line.split source := by decide +kernel
  have href : Reader.variableRef ⟨.standard, line.stop⟩ line.tokens =
      .ok (⟨"Zoë", ⟨1, 1, 4⟩⟩, line.tokens.drop 1) :=
    eq_ok_of_toOption (by decide +kernel)
  have hreads : Reader.Reads ⟨.standard, line.stop⟩ line.tokens ⟨"Zoë", ⟨1, 1, 4⟩⟩ :=
    (Reader.reads_variableRef href).2
  obtain ⟨-, -, hnewlines, hstands, -, hrest, hrefs⟩ := tokenize_partitions source
  obtain ⟨first, hfirst, last, hlast, -, htext⟩ := hrefs line hline _ _ hreads
  refine ⟨his, rfl, hstands is his rfl, hrest is his rfl rfl, hnewlines.trans ?_, first, hfirst,
    last, hlast, htext⟩
  decide +kernel

end Rockstar
