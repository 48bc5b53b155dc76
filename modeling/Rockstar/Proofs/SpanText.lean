import Rockstar.Proofs.Partition

/-!
# Spans point at the text they describe

The spans of a program are joined from the spans of tokens. Both ends of a token's span lie between
two characters of its line, and joining takes ends from its parts, so all spans are cut from the
line without breaking a character (`Span.On.join`). What is read keeps the order of the tokens
(`Laid`), so the span of an expression holds those of its parts, and operands do not overlap
(`Expr.Located`). A reference takes its text from its first token on, as many bytes as its span is
long, so the span finds the text again (`Variable.located_reference`).
-/

namespace Rockstar

/-! ## Spans on a line -/

namespace Text

theorem exists_append_of_dropBytes? {n : Nat} {cs rest : List Char}
    (h : dropBytes? n cs = some rest) : ∃ front, cs = front ++ rest ∧ n = byteSize front := by
  fun_induction dropBytes? n cs with
  | case1 cs =>
    cases h
    exact ⟨[], rfl, rfl⟩
  | case2 => cases h
  | case3 n c cs hle ih =>
    obtain ⟨front, rfl, hsize⟩ := ih h
    exact ⟨c :: front, rfl, by rw [byteSize_cons]; omega⟩
  | case4 => cases h

theorem exists_append_of_takeBytes? {n : Nat} {cs slice : List Char}
    (h : takeBytes? n cs = some slice) : (∃ rest, cs = slice ++ rest) ∧ n = byteSize slice := by
  fun_induction takeBytes? n cs generalizing slice with
  | case1 cs =>
    cases h
    exact ⟨⟨cs, rfl⟩, rfl⟩
  | case2 => cases h
  | case3 n c cs hle ih =>
    obtain ⟨slice, hslice, rfl⟩ := Option.map_eq_some_iff.mp h
    obtain ⟨⟨rest, rfl⟩, hsize⟩ := ih hslice
    exact ⟨⟨rest, rfl⟩, by rw [byteSize_cons]; omega⟩
  | case4 => cases h

end Text

/-- The column lies at one end of the line or between two characters. -/
def Line.Cuts (l : Line) (col : Nat) : Prop :=
  ∃ before after, l.text = before ++ after ∧ col = 1 + Text.byteSize before

namespace Span

/-- The span is on the line, inside its bytes, and cuts no character. -/
structure On (l : Line) (s : Span) : Prop where
  line : s.line = l.number
  col_pos : 1 ≤ s.col
  inside : (s.slice? l.text).isSome = true

/-- The first span lies within the second one. -/
structure Within (s t : Span) : Prop where
  line : s.line = t.line
  col : t.col ≤ s.col
  endCol : s.endCol ≤ t.endCol

variable {l : Line} {s a b : Span}

theorem slice?_eq_some {text before slice after : List Char}
    (htext : text = before ++ (slice ++ after)) (hcol : s.col = 1 + Text.byteSize before)
    (hlen : s.len = Text.byteSize slice) : s.slice? text = some slice := by
  have hstart : s.start = Text.byteSize before := by
    rw [start, hcol]
    omega
  rw [slice?, htext, hstart, hlen, Text.dropBytes?_byteSize_append, Option.bind_some,
    Text.takeBytes?_byteSize_append]

/-- A span cuts no character if neither of its ends does. -/
theorem on_iff : s.On l ↔ s.line = l.number ∧ l.Cuts s.col ∧ l.Cuts s.endCol := by
  constructor
  · rintro ⟨hline, hpos, hinside⟩
    obtain ⟨slice, hslice⟩ := Option.isSome_iff_exists.mp hinside
    obtain ⟨rest, hdrop, htake⟩ := Option.bind_eq_some_iff.mp hslice
    obtain ⟨before, htext, hstart⟩ := Text.exists_append_of_dropBytes? hdrop
    obtain ⟨⟨after, rfl⟩, hlen⟩ := Text.exists_append_of_takeBytes? htake
    have hcol : s.col = 1 + Text.byteSize before := by
      rw [start] at hstart
      omega
    refine ⟨hline, ⟨before, slice ++ after, htext, hcol⟩, before ++ slice, after, ?_, ?_⟩
    · rw [htext, List.append_assoc]
    · rw [endCol, hcol, hlen, Text.byteSize_append, Nat.add_assoc]
  · rintro ⟨hline, ⟨before, after, htext, hcol⟩, before', after', htext', hend⟩
    have hle : Text.byteSize before ≤ Text.byteSize before' := by
      rw [endCol] at hend
      omega
    obtain ⟨slice, rfl, rfl⟩ := Text.exists_append_of_byteSize_le (htext.symm.trans htext') hle
    have hlen : s.len = Text.byteSize slice := by
      rw [endCol, Text.byteSize_append] at hend
      omega
    exact ⟨hline, by omega, by rw [slice?_eq_some htext hcol hlen]; rfl⟩

theorem col_le_endCol (s : Span) : s.col ≤ s.endCol := Nat.le_add_right _ _

/-! Joined spans begin where the first part begins, and end where the last one ends. -/

theorem join_eq (h : a.line = b.line) :
    (a.join b).line = a.line ∧ (a.join b).col = min a.col b.col ∧
      (a.join b).endCol = max a.endCol b.endCol := by
  unfold join endCol
  rw [if_pos h]
  refine ⟨rfl, rfl, ?_⟩
  dsimp only
  omega

theorem join_ends (h : a.line = b.line) :
    ((a.join b).col = a.col ∨ (a.join b).col = b.col) ∧
      ((a.join b).endCol = a.endCol ∨ (a.join b).endCol = b.endCol) := by
  obtain ⟨-, hcol, hend⟩ := join_eq h
  omega

theorem On.join (ha : a.On l) (hb : b.On l) : (a.join b).On l := by
  have hline := ha.line.trans hb.line.symm
  obtain ⟨hcol, hend⟩ := join_ends hline
  obtain ⟨hlineA, hcolA, hendA⟩ := on_iff.mp ha
  obtain ⟨-, hcolB, hendB⟩ := on_iff.mp hb
  refine on_iff.mpr ⟨(join_eq hline).1.trans hlineA, ?_, ?_⟩
  · rcases hcol with h | h <;> rwa [h]
  · rcases hend with h | h <;> rwa [h]

/-- A span between two others lies within their join. -/
theorem within_join (hline : a.line = b.line) (hs : s.line = a.line) (hcol : a.col ≤ s.col)
    (hend : s.endCol ≤ b.endCol) : s.Within (a.join b) := by
  obtain ⟨hline', hcol', hend'⟩ := join_eq hline
  refine ⟨hs.trans hline'.symm, ?_, ?_⟩
  · rw [hcol']
    exact Nat.le_trans (Nat.min_le_left _ _) hcol
  · rw [hend']
    exact Nat.le_trans hend (Nat.le_max_right _ _)

end Span

/-! ## Tokens on a line -/

/-- The span of the token is on the line, and the rest of the line from there on is the token's. -/
structure Token.Sits (l : Line) (t : Token) : Prop where
  on : t.span.On l
  onward : ∃ before, l.text = before ++ t.onward ∧ t.span.col = 1 + Text.byteSize before

/-- The tokens sit on the line, each behind the end of the one before it. -/
structure Laid (l : Line) (ts : List Token) : Prop where
  sits : ∀ t ∈ ts, t.Sits l
  apart : ts.Pairwise (fun t u => t.span.endCol ≤ u.span.col)

theorem Laid.of_sublist {l : Line} {ts us : List Token} (h : Laid l ts) (hsub : us.Sublist ts) :
    Laid l us :=
  ⟨fun t ht => h.sits t (hsub.mem ht), h.apart.sublist hsub⟩

theorem Laid.tail {l : Line} {t : Token} {ts : List Token} (h : Laid l (t :: ts)) : Laid l ts :=
  h.of_sublist (List.sublist_cons_self _ _)

/-- A token that begins behind a part of the line and is as long as a slice of it. -/
theorem Token.sits_of_append {l : Line} {t : Token} {before : List Char} (slice : List Char)
    {rest : List Char} (htext : l.text = before ++ (slice ++ rest)) (hline : t.span.line = l.number)
    (hcol : t.span.col = 1 + Text.byteSize before) (hlen : t.span.len = Text.byteSize slice)
    (honward : t.onward = slice ++ rest) : t.Sits l := by
  refine ⟨⟨hline, by omega, ?_⟩, before, by rw [honward]; exact htext, hcol⟩
  rw [Span.slice?_eq_some htext hcol hlen]
  rfl

namespace Piece

variable {l : Line} {place : Place} {c : Char} {cs before : List Char}

theorem sits_tokens (hline : place.line = l.number) (hcol : place.col = 1 + Text.byteSize before)
    (htext : l.text = before ++ c :: cs) {t : Token}
    (ht : t ∈ (first c cs).tokens place (c :: cs) (restOf c cs)) : t.Sits l := by
  rw [← raw_append_restOf c cs] at ht htext
  cases hpiece : first c cs with
  | blank d =>
    rw [hpiece] at ht
    cases ht
  | comment body =>
    rw [hpiece] at ht
    cases ht
  -- an error that runs to the end of the line points at its first character only
  | openComment body =>
    rw [hpiece] at ht htext
    obtain rfl := List.mem_singleton.mp ht
    exact Token.sits_of_append ['('] htext hline hcol rfl rfl
  | openString body =>
    rw [hpiece] at ht htext
    obtain rfl := List.mem_singleton.mp ht
    exact Token.sits_of_append ['"'] htext hline hcol rfl rfl
  | contraction stem s =>
    have hs := byteSize_of_contraction hpiece
    rw [hpiece] at ht htext
    rw [raw, List.append_assoc] at htext
    simp only [tokens, List.mem_cons, List.not_mem_nil, or_false] at ht
    rcases ht with rfl | rfl
    · exact Token.sits_of_append stem htext hline hcol rfl (List.append_assoc _ _ _)
    · rw [← List.append_assoc] at htext
      refine Token.sits_of_append ['\'', s] htext hline ?_ hs.symm rfl
      rw [Text.byteSize_append, ← Nat.add_assoc, ← hcol]
      rfl
  | _ =>
    rw [hpiece] at ht htext
    obtain rfl := List.mem_singleton.mp ht
    exact Token.sits_of_append _ htext hline hcol rfl rfl

/-- The tokens of a piece end within it, one before the other. -/
theorem apart_tokens (place : Place) (c : Char) (cs onward behind : List Char) :
    ((first c cs).tokens place onward behind).Pairwise
        (fun t u => t.span.endCol ≤ u.span.col) ∧
      ∀ t ∈ (first c cs).tokens place onward behind,
        t.span.endCol ≤ place.col + (first c cs).size := by
  have hpos := size_first_pos c cs
  cases hpiece : first c cs with
  | blank d => exact ⟨.nil, by simp [tokens]⟩
  | comment body => exact ⟨.nil, by simp [tokens]⟩
  | openComment body =>
    rw [hpiece] at hpos
    refine ⟨List.pairwise_singleton _ _, ?_⟩
    simpa [tokens, Span.endCol, Place.span] using Nat.succ_le_of_lt hpos
  | openString body =>
    rw [hpiece] at hpos
    refine ⟨List.pairwise_singleton _ _, ?_⟩
    simpa [tokens, Span.endCol, Place.span] using Nat.succ_le_of_lt hpos
  | contraction stem s =>
    have hs := byteSize_of_contraction hpiece
    have hsize : (Piece.contraction stem s).size = Text.byteSize stem + 2 := by
      rw [size, raw, Text.byteSize_append, hs]
    refine ⟨List.pairwise_pair.mpr (Nat.le_refl _), ?_⟩
    rw [hsize]
    simp [tokens, Span.endCol, Place.span, Place.advance, Nat.add_assoc]
  | _ => exact ⟨List.pairwise_singleton _ _, by simp [tokens, Span.endCol, Place.span]⟩

end Piece

/-- The tokens of a text sit on the line that the text ends. -/
theorem laid_scanFrom {l : Line} {place : Place} (before : List Char) {cs : List Char}
    (hline : place.line = l.number) (hcol : place.col = 1 + Text.byteSize before)
    (htext : l.text = before ++ cs) : Laid l (scanFrom place cs) := by
  revert before
  fun_induction scanFrom place cs with
  | case1 place =>
    intro before _ _
    exact ⟨by simp, .nil⟩
  | case2 place c cs piece ih =>
    intro before hcol htext
    obtain ⟨hpair, hends⟩ := Piece.apart_tokens place c cs (c :: cs) (Piece.restOf c cs)
    have hrest := (inOrder_scanFrom (place.advance piece.size) (Piece.restOf c cs)).2
    have hlaid : Laid l (scanFrom (place.advance piece.size) (Piece.restOf c cs)) := by
      refine ih hline (before ++ piece.raw) ?_ ?_
      · show place.col + piece.size = _
        rw [hcol, Text.byteSize_append, Nat.add_assoc]
        rfl
      · rw [htext, List.append_assoc, Piece.raw_append_restOf]
    refine ⟨fun t ht => ?_, List.pairwise_append.mpr ⟨hpair, hlaid.apart, ?_⟩⟩
    · rcases List.mem_append.mp ht with hfirst | hlater
      · exact Piece.sits_tokens hline hcol htext hfirst
      · exact hlaid.sits t hlater
    · intro t ht u hu
      exact Nat.le_trans (hends t ht) (hrest u hu)

theorem Line.laid_tokens (l : Line) : Laid l l.tokens :=
  laid_scanFrom [] rfl rfl rfl

/-! ## Expressions -/

/-- Two spans lie within a third one on the line, the first before the second. -/
structure Span.Splits (l : Line) (whole a b : Span) : Prop where
  on : whole.On l
  left : a.Within whole
  right : b.Within whole
  apart : a.endCol ≤ b.col

/-- The reference is on the line, and its span covers its text. -/
structure Variable.Located (l : Line) (v : Variable) : Prop where
  on : v.span.On l
  text : v.span.slice? l.text = some v.text.toList

namespace Expr

/-- All spans of the expression are on the line and cut no character. The span of an operation
holds those of its parts, which do not overlap, and that of a reference covers its text. -/
def Located (l : Line) : Expr → Prop
  | .literal _ s => s.On l
  | .poetic _ _ s => s.On l
  | .variable v => v.Located l
  | .binary op left right =>
    left.Located l ∧ right.Located l ∧
      Span.Splits l (binary op left right).span left.span right.span
  | .negation word e => word.On l ∧ e.Located l ∧ Span.Splits l (negation word e).span word e.span

theorem Located.on_span {l : Line} {e : Expr} (h : e.Located l) : e.span.On l := by
  cases e with
  | literal v s => exact h
  | poetic x text s => exact h
  | «variable» v => exact h.on
  | binary op left right => exact h.2.2.on
  | negation word e => exact h.2.2.on

theorem Located.of_mem_refs {l : Line} {e : Expr} (h : e.Located l) {v : Variable}
    (hv : v ∈ e.refs) : v.Located l := by
  induction e with
  | literal _ _ => cases hv
  | poetic _ _ _ => cases hv
  | «variable» w =>
    obtain rfl := List.mem_singleton.mp hv
    exact h
  | binary op left right ihl ihr =>
    rcases List.mem_append.mp hv with hmem | hmem
    · exact ihl h.1 hmem
    · exact ihr h.2.1 hmem
  | negation word e ih => exact ih h.2.1 hv

end Expr

namespace Span

variable {l : Line} {a b c : Span}

theorem splits_join (ha : a.On l) (hb : b.On l) (hle : a.endCol ≤ b.col) :
    Splits l (a.join b) a b := by
  have hline := ha.line.trans hb.line.symm
  have hcol := a.col_le_endCol
  have hend := b.col_le_endCol
  exact ⟨ha.join hb, within_join hline rfl (Nat.le_refl _) (by omega),
    within_join hline hline.symm (by omega) (Nat.le_refl _), hle⟩

theorem eq_of_endCol_eq (hline : a.line = b.line) (hcol : a.col = b.col)
    (hend : a.endCol = b.endCol) : a = b := by
  obtain ⟨line, col, len⟩ := a
  obtain ⟨line', col', len'⟩ := b
  obtain rfl : line = line' := hline
  obtain rfl : col = col' := hcol
  obtain rfl : len = len' := Nat.add_left_cancel hend
  rfl

theorem join_assoc (hab : a.line = b.line) (hbc : b.line = c.line) :
    a.join (b.join c) = (a.join b).join c := by
  obtain ⟨hlineL, hcolL, hendL⟩ := join_eq hab
  obtain ⟨hlineR, hcolR, hendR⟩ := join_eq hbc
  obtain ⟨hline, hcol, hend⟩ := join_eq (hab.trans hlineR.symm)
  obtain ⟨hline', hcol', hend'⟩ := join_eq (hlineL.trans (hab.trans hbc))
  refine eq_of_endCol_eq (hline.trans (hline'.trans hlineL).symm) ?_ ?_
  · rw [hcol, hcolR, hcol', hcolL, Nat.min_assoc]
  · rw [hend, hendR, hend', hendL, Nat.max_assoc]

end Span

/-- Attaching an operand that stands behind an expression. -/
theorem Expr.Located.attach {l : Line} {tree right : Expr} (h : tree.Located l) (op : BinaryOp)
    (hright : right.Located l) (hle : tree.span.endCol ≤ right.span.col) :
    (tree.attach op right).Located l ∧
      (tree.attach op right).span = tree.span.join right.span := by
  have houter : (binary op tree right).Located l :=
    ⟨h, hright, Span.splits_join h.on_span hright.on_span hle⟩
  induction tree with
  | binary op' a b _ ihb =>
    rw [Expr.attach]
    split
    · -- the operand goes to the right part, which ends where the whole ends
      obtain ⟨ha, hb, hsplits⟩ := h
      have hend := hsplits.right.endCol
      have hleb : b.span.endCol ≤ right.span.col := Nat.le_trans hend hle
      obtain ⟨hattach, hspan⟩ := ihb hb hleb
        ⟨hb, hright, Span.splits_join hb.on_span hright.on_span hleb⟩
      have hline := ha.on_span.line.trans hb.on_span.line.symm
      have hline' := hb.on_span.line.trans hright.on_span.line.symm
      have hapart : a.span.endCol ≤ (b.attach op right).span.col := by
        have hleft := hsplits.left.endCol
        have hbetween := hsplits.apart
        rw [hspan, (Span.join_eq hline').2.1]
        omega
      refine ⟨⟨ha, hattach, Span.splits_join ha.on_span hattach.on_span hapart⟩, ?_⟩
      show a.span.join (b.attach op right).span = (a.span.join b.span).join right.span
      rw [hspan, Span.join_assoc hline hline']
    · exact ⟨houter, rfl⟩
  | _ => exact ⟨houter, rfl⟩

/-! ## Reading -/

/-- The span begins with one of the tokens and ends with one of them. -/
structure Span.Between (ts : List Token) (s : Span) : Prop where
  starts : ∃ t ∈ ts, s.col = t.span.col
  stops : ∃ t ∈ ts, s.endCol = t.span.endCol

namespace Span.Between

variable {l : Line} {ts us : List Token} {a b : Span}

theorem of_mem {t : Token} (h : t ∈ ts) : t.span.Between ts := ⟨⟨t, h, rfl⟩, t, h, rfl⟩

theorem of_subset (h : a.Between ts) (hsub : ts ⊆ us) : a.Between us := by
  obtain ⟨⟨t, ht, hcol⟩, u, hu, hend⟩ := h
  exact ⟨⟨t, hsub ht, hcol⟩, u, hsub hu, hend⟩

theorem join (ha : a.Between ts) (hb : b.Between ts) (hline : a.line = b.line) :
    (a.join b).Between ts := by
  obtain ⟨hcol, hend⟩ := Span.join_ends hline
  constructor
  · rcases hcol with h | h <;> rw [h]
    · exact ha.starts
    · exact hb.starts
  · rcases hend with h | h <;> rw [h]
    · exact ha.stops
    · exact hb.stops

/-- What is read from tokens ends before what is read from tokens behind them. -/
theorem endCol_le (ha : a.Between ts) (hb : b.Between us) (h : Laid l (ts ++ us)) :
    a.endCol ≤ b.col := by
  obtain ⟨t, ht, hend⟩ := ha.stops
  obtain ⟨u, hu, hcol⟩ := hb.starts
  rw [hend, hcol]
  exact (List.pairwise_append.mp h.apart).2.2 t ht u hu

end Span.Between

/-- The last of some tokens begins and ends behind the first one. -/
theorem Laid.le_of_mem {l : Line} {first last : Token} {more : List Token}
    (h : Laid l (first :: more)) (hlast : last ∈ first :: more) :
    first.span.col ≤ last.span.col ∧ first.span.endCol ≤ last.span.endCol := by
  rcases List.mem_cons.mp hlast with rfl | hmem
  · exact ⟨Nat.le_refl _, Nat.le_refl _⟩
  · have hle := (List.pairwise_cons.mp h.apart).1 last hmem
    have hfirst := first.span.col_le_endCol
    have hend := last.span.col_le_endCol
    omega

/-- The text of a reference is as long as its span and begins at its first token, so it is what the
span covers. -/
theorem Variable.located_reference {l : Line} {first last : Token} {more : List Token}
    (h : Laid l (first :: more)) (hlast : last ∈ first :: more) :
    (Reader.reference first last).Located l := by
  obtain ⟨hcol, hend⟩ := h.le_of_mem hlast
  obtain ⟨hon, before, htext, hbefore⟩ := h.sits first List.mem_cons_self
  have hon' := (h.sits last hlast).on
  obtain ⟨-, hcol', hend'⟩ := Span.join_eq (hon.line.trans hon'.line.symm)
  rw [Nat.min_eq_left hcol] at hcol'
  rw [Nat.max_eq_right hend] at hend'
  refine ⟨hon.join hon', ?_⟩
  -- the line goes on from the first token up to the end of the last one, and behind it
  obtain ⟨-, -, front, after, hfront, hstop⟩ := Span.on_iff.mp hon'
  have hends := last.span.col_le_endCol
  obtain ⟨slice, rfl, honward⟩ :=
    Text.exists_append_of_byteSize_le (htext.symm.trans hfront) (by omega)
  rw [Text.byteSize_append] at hstop
  have hlen : (first.span.join last.span).len = Text.byteSize slice := by
    rw [Span.endCol] at hend'
    omega
  have hwidth : last.span.endCol - first.span.col = Text.byteSize slice := by omega
  have hslice : (Reader.reference first last).text = String.ofList slice := by
    rw [Reader.reference, hwidth, honward, Text.takeBytes_byteSize_append]
  rw [hslice, String.toList_ofList]
  exact Span.slice?_eq_some (htext.trans (by rw [honward])) (hcol'.trans hbefore) hlen

/-- What an expression keeps of the tokens it was read from. -/
structure Expr.ReadFrom (l : Line) (front : List Token) (e : Expr) : Prop where
  located : e.Located l
  between : e.span.Between front

namespace Reader

variable {r : Reader} {l : Line} {ts rest : List Token}

theorem readFrom_variable {v : Variable} (h : r.variableRef ts = .ok (v, rest))
    (hlaid : Laid l ts) :
    ∃ front, ts = front ++ rest ∧ (Expr.variable v).ReadFrom l front := by
  obtain ⟨first, more, last, rfl, hlast, rfl⟩ := variableRef_ok h
  have hfront : Laid l (first :: more) := hlaid.of_sublist (List.sublist_append_left _ _)
  have hline := (hfront.sits first List.mem_cons_self).on.line.trans
    (hfront.sits last hlast).on.line.symm
  exact ⟨first :: more, rfl, Variable.located_reference hfront hlast,
    (Span.Between.of_mem List.mem_cons_self).join (.of_mem hlast) hline⟩

theorem readFrom_operand {e : Expr} (h : r.operand ts = .ok (e, rest)) (hlaid : Laid l ts) :
    ∃ front, ts = front ++ rest ∧ e.ReadFrom l front := by
  induction ts generalizing e rest with
  | nil => cases h
  | cons t tail ih =>
    have hon := (hlaid.sits t List.mem_cons_self).on
    rw [operand] at h
    split at h
    · cases h
      exact ⟨[t], rfl, hon, .of_mem List.mem_cons_self⟩
    · split at h
      · split at h
        next e' rest' hrest =>
          cases h
          obtain ⟨front, rfl, hread⟩ := ih hrest hlaid.tail
          have hfront : Laid l ([t] ++ front) := hlaid.of_sublist (by simp)
          have hword : t.span.Between [t] := .of_mem List.mem_cons_self
          have hon' := hread.located.on_span
          have hle := hword.endCol_le hread.between hfront
          refine ⟨t :: front, rfl, ⟨hon, hread.located, Span.splits_join hon hon' hle⟩, ?_⟩
          exact (hword.of_subset (by simp)).join (hread.between.of_subset (by simp))
            (hon.line.trans hon'.line.symm)
        next => cases h
      · split at h
        · split at h
          next v rest' hvar =>
            cases h
            exact readFrom_variable hvar hlaid
          next => cases h
        · cases h

theorem readFrom_continueExpr {front : List Token} {tree e : Expr}
    (h : r.continueExpr tree ts = .ok (e, rest)) (htree : tree.ReadFrom l front)
    (hlaid : Laid l (front ++ ts)) :
    ∃ more, ts = more ++ rest ∧ e.ReadFrom l (front ++ more) := by
  fun_induction r.continueExpr tree ts generalizing front with
  | case1 tree ts hop =>
    cases h
    exact ⟨[], rfl, by simpa using htree⟩
  | case2 tree ts op width hop right rest' hoperand ih =>
    have hdrop : Laid l (ts.drop width) :=
      hlaid.of_sublist ((List.drop_sublist _ _).trans (List.sublist_append_right _ _))
    obtain ⟨behind, hbehind, hright⟩ := readFrom_operand hoperand hdrop
    have hts : ts = ts.take width ++ behind ++ rest' := by
      rw [List.append_assoc, ← hbehind, List.take_append_drop]
    rw [hts, ← List.append_assoc, ← List.append_assoc] at hlaid
    have hapart : Laid l (front ++ behind) := hlaid.of_sublist (by simp)
    obtain ⟨hlocated, hspan⟩ := htree.located.attach op hright.located
      (htree.between.endCol_le hright.between hapart)
    have hattach : (tree.attach op right).ReadFrom l (front ++ ts.take width ++ behind) := by
      refine ⟨hlocated, hspan ▸ ?_⟩
      exact (htree.between.of_subset (by simp)).join (hright.between.of_subset (by simp))
        (htree.located.on_span.line.trans hright.located.on_span.line.symm)
    obtain ⟨more, rfl, hread⟩ := ih h hattach hlaid
    exact ⟨ts.take width ++ behind ++ more, by rw [List.append_assoc _ more]; exact hts,
      by simpa using hread⟩
  | case3 tree ts op width hop f hoperand => cases h

theorem readFrom_expr {e : Expr} (h : r.expr ts = .ok (e, rest)) (hlaid : Laid l ts) :
    ∃ front, ts = front ++ rest ∧ e.ReadFrom l front := by
  unfold expr at h
  split at h
  next first rest' hfirst =>
    obtain ⟨front, rfl, hread⟩ := readFrom_operand hfirst hlaid
    obtain ⟨more, rfl, hread'⟩ := readFrom_continueExpr h hread hlaid
    exact ⟨front ++ more, by simp, hread'⟩
  next => cases h

end Reader

/-! ## Statements -/

/-- All spans of the statement are on the line and cut no character, its own one holds those of its
parts, and each reference covers its text. -/
def Statement.Located (l : Line) : Statement → Prop
  | .assign target value span =>
    target.Located l ∧ value.Located l ∧ span.On l ∧ target.span.Within span ∧
      value.span.Within span
  | .output _ value span => value.Located l ∧ span.On l ∧ value.span.Within span
  | .step _ target _ span => target.Located l ∧ span.On l ∧ target.span.Within span

theorem Statement.Located.on_span {l : Line} {stmt : Statement} (h : stmt.Located l) :
    stmt.span.On l := by
  cases stmt with
  | assign target value span => exact h.2.2.1
  | output verb value span => exact h.2.1
  | step direction target count span => exact h.2.1

theorem Statement.Located.of_mem_refs {l : Line} {stmt : Statement} (h : stmt.Located l)
    {v : Variable} (hv : v ∈ stmt.refs) : v.Located l := by
  cases stmt with
  | assign target value span =>
    rcases Statement.mem_refs_assign.mp hv with rfl | hmem
    · exact h.1
    · exact h.2.1.of_mem_refs hmem
  | output verb value span => exact h.1.of_mem_refs hv
  | step direction target count span =>
    obtain rfl := List.mem_singleton.mp hv
    exact h.1

/-- A part between the first word of a statement and its end. -/
theorem Span.On.within_join {l : Line} {start s last : Span} (hstart : start.On l) (hs : s.On l)
    (hlast : last.On l) (hle : start.endCol ≤ s.col) (hend : s.endCol ≤ last.endCol) :
    s.Within (start.join last) :=
  Span.within_join (hstart.line.trans hlast.line.symm) (hs.line.trans hstart.line.symm)
    (Nat.le_trans start.col_le_endCol hle) hend

namespace Reader

variable {r : Reader} {l : Line} {t : Token} {ts rest : List Token} {stmt : Statement}

/-- Two parts of a statement behind its first word, with another word between them. -/
theorem within_of_laid {word : Token} {front behind : List Token} {a b : Span}
    (hlaid : Laid l (t :: (front ++ word :: (behind ++ rest)))) (ha : a.On l)
    (hfront : a.Between front) (hb : b.On l) (hbehind : b.Between behind) :
    (t.span.join b).On l ∧ a.Within (t.span.join b) ∧ b.Within (t.span.join b) := by
  have hon := (hlaid.sits t List.mem_cons_self).on
  have hstart : t.span.Between [t] := .of_mem List.mem_cons_self
  have hfirst := hstart.endCol_le hfront (hlaid.of_sublist (by simp))
  have hsecond := hfront.endCol_le hbehind (hlaid.tail.of_sublist (by simp))
  have hcol := a.col_le_endCol
  have hend := b.col_le_endCol
  exact ⟨hon.join hb, hon.within_join ha hb hfirst (by omega),
    hon.within_join hb hb (by omega) (Nat.le_refl _)⟩

theorem located_put (h : r.putStatement t.span ts = .ok (stmt, rest)) (hlaid : Laid l (t :: ts)) :
    stmt.Located l := by
  obtain ⟨⟨value, ts₁⟩, hvalue, h⟩ := bind_ok h
  obtain ⟨⟨into, ts₂⟩, hinto, h⟩ := bind_ok h
  obtain ⟨⟨target, ts₃⟩, htarget, h⟩ := bind_ok h
  cases h
  obtain ⟨front, rfl, hread⟩ := readFrom_expr hvalue hlaid.tail
  obtain rfl := word_ok hinto
  obtain ⟨behind, rfl, hread'⟩ := readFrom_variable htarget (hlaid.tail.of_sublist (by simp))
  obtain ⟨hon, hwithin, hwithin'⟩ := within_of_laid hlaid hread.located.on_span hread.between
    hread'.located.on_span hread'.between
  exact ⟨hread'.located, hread.located, hon, hwithin', hwithin⟩

theorem located_let (h : r.letStatement t.span ts = .ok (stmt, rest)) (hlaid : Laid l (t :: ts)) :
    stmt.Located l := by
  obtain ⟨⟨target, ts₁⟩, htarget, h⟩ := bind_ok h
  obtain ⟨⟨be, ts₂⟩, hbe, h⟩ := bind_ok h
  obtain ⟨⟨value, ts₃⟩, hvalue, h⟩ := bind_ok h
  cases h
  obtain ⟨front, rfl, hread⟩ := readFrom_variable htarget hlaid.tail
  obtain rfl := word_ok hbe
  obtain ⟨behind, rfl, hread'⟩ := readFrom_expr hvalue (hlaid.tail.of_sublist (by simp))
  obtain ⟨hon, hwithin, hwithin'⟩ := within_of_laid hlaid hread.located.on_span hread.between
    hread'.located.on_span hread'.between
  exact ⟨hread.located, hread'.located, hon, hwithin, hwithin'⟩

theorem located_output {verb : Verb} (h : r.outputStatement verb t.span ts = .ok (stmt, rest))
    (hlaid : Laid l (t :: ts)) : stmt.Located l := by
  obtain ⟨⟨value, ts₁⟩, hvalue, h⟩ := bind_ok h
  cases h
  obtain ⟨front, rfl, hread⟩ := readFrom_expr hvalue hlaid.tail
  have hon := (hlaid.sits t List.mem_cons_self).on
  have hstart : t.span.Between [t] := .of_mem List.mem_cons_self
  have hfirst := hstart.endCol_le hread.between (hlaid.of_sublist (by simp))
  exact ⟨hread.located, hon.join hread.located.on_span,
    hon.within_join hread.located.on_span hread.located.on_span hfirst (Nat.le_refl _)⟩

/-- Steps end at the last word that was counted. -/
theorem span_countSteps (word : String) (count : Nat) (last : Span) (ts : List Token) :
    (countSteps word count last ts).2.1 = last ∨
      ∃ u ∈ ts, (countSteps word count last ts).2.1 = u.span := by
  fun_induction countSteps word count last ts with
  | case1 count last => exact .inl rfl
  | case2 count last t ts hword ih =>
    rcases ih with h | ⟨u, hu, h⟩
    · exact .inr ⟨t, List.mem_cons_self, h⟩
    · exact .inr ⟨u, List.mem_cons_of_mem _ hu, h⟩
  | case3 count last t ts hword hcomma ih =>
    exact ih.imp_right fun ⟨u, hu, h⟩ => ⟨u, List.mem_cons_of_mem _ hu, h⟩
  | case4 count last t ts hword hcomma => exact .inl rfl

theorem located_step {direction : Direction}
    (h : r.stepStatement direction t.span ts = .ok (stmt, rest)) (hlaid : Laid l (t :: ts)) :
    stmt.Located l := by
  obtain ⟨⟨target, ts₁⟩, htarget, hrest⟩ := bind_ok h
  obtain ⟨front, rfl, hread⟩ := readFrom_variable htarget hlaid.tail
  have hon := (hlaid.sits t List.mem_cons_self).on
  have hstart : t.span.Between [t] := .of_mem List.mem_cons_self
  have hfirst := hstart.endCol_le hread.between (hlaid.of_sublist (by simp))
  have hlast : (countSteps direction.word 0 target.span ts₁).2.1.On l ∧
      target.span.endCol ≤ (countSteps direction.word 0 target.span ts₁).2.1.endCol := by
    rcases span_countSteps direction.word 0 target.span ts₁ with heq | ⟨u, hu, heq⟩
    · rw [heq]
      exact ⟨hread.located.on_span, Nat.le_refl _⟩
    · rw [heq]
      have hle := hread.between.endCol_le (.of_mem hu) hlaid.tail
      exact ⟨(hlaid.sits u (by simp [hu])).on, Nat.le_trans hle u.span.col_le_endCol⟩
  dsimp only at hrest
  split at hrest <;> cases hrest
  exact ⟨hread.located, hon.join hlast.1,
    hon.within_join hread.located.on_span hlast.1 hfirst hlast.2⟩

theorem readFrom_spanTo {first : Token} (hlaid : Laid l (first :: ts)) :
    (spanTo first ts).On l ∧ (spanTo first ts).Between (first :: ts) := by
  have hon := (hlaid.sits first List.mem_cons_self).on
  unfold spanTo
  split
  next last hlast =>
    have hmem : last ∈ first :: ts := List.mem_cons_of_mem _ (List.mem_of_getLast? hlast)
    have hon' := (hlaid.sits last hmem).on
    exact ⟨hon.join hon', (Span.Between.of_mem List.mem_cons_self).join (.of_mem hmem)
      (hon.line.trans hon'.line.symm)⟩
  next => exact ⟨hon, .of_mem List.mem_cons_self⟩

theorem readFrom_isValue {verb : Token} {e : Expr} (h : r.isValue verb ts = .ok (e, rest))
    (hlaid : Laid l ts) : e.ReadFrom l ts := by
  unfold isValue at h
  split at h
  · cases h
  · split at h
    · cases h
    · dsimp only at h
      split at h
      · cases h
        exact ⟨(hlaid.sits _ List.mem_cons_self).on, .of_mem List.mem_cons_self⟩
      · split at h <;> cases h
        obtain ⟨hon, hbetween⟩ := readFrom_spanTo hlaid
        exact ⟨hon, hbetween⟩

theorem located_name (h : r.nameStatement ts = .ok (stmt, rest)) (hlaid : Laid l ts) :
    stmt.Located l := by
  obtain ⟨⟨target, ts₁⟩, htarget, hrest⟩ := bind_ok h
  obtain ⟨front, rfl, hread⟩ := readFrom_variable htarget hlaid
  -- whatever the value is, it is read from tokens behind the name
  have hassign : ∀ {value : Expr} {behind : List Token}, value.ReadFrom l behind →
      Laid l (front ++ behind) →
      (Statement.assign target value (target.span.join value.span)).Located l := by
    intro value behind hread' hlaid'
    have hsplits := Span.splits_join hread.located.on_span hread'.located.on_span
      (hread.between.endCol_le hread'.between hlaid')
    exact ⟨hread.located, hread'.located, hsplits.on, hsplits.left, hsplits.right⟩
  cases ts₁ with
  | nil => cases hrest
  | cons verb tail =>
    dsimp only at hrest
    split at hrest
    · obtain ⟨⟨value, rest'⟩, hvalue, hpure⟩ := bind_ok hrest
      cases hpure
      exact hassign (readFrom_isValue hvalue (hlaid.of_sublist (by simp)))
        (hlaid.of_sublist (by simp))
    · split at hrest <;> cases hrest
      obtain ⟨hon, hbetween⟩ :=
        readFrom_spanTo (hlaid.of_sublist (List.sublist_append_right front (verb :: tail)))
      exact hassign ⟨hon, hbetween⟩ hlaid

theorem located_statement (h : r.statement ts = .ok (stmt, rest)) (hlaid : Laid l ts) :
    stmt.Located l := by
  cases ts with
  | nil => cases h
  | cons t tail =>
    unfold statement at h
    dsimp only at h
    split at h
    · cases h
    · split at h
      · exact located_put h hlaid
      · split at h
        · exact located_let h hlaid
        · split at h
          · exact located_output h hlaid
          · split at h
            · exact located_step h hlaid
            · split at h
              · exact located_step h hlaid
              · split at h
                · cases h
                · exact located_name h hlaid

end Reader

/-! ## Programs -/

theorem exists_line_of_located {v : Vocabulary} {source : List Char} {program : List Statement}
    (h : parse v source = .ok program) {stmt : Statement} (hstmt : stmt ∈ program) :
    ∃ l ∈ Line.split source, stmt.Located l := by
  obtain ⟨l, hl, rest, hstatement⟩ := exists_line_of_statement h hstmt
  exact ⟨l, hl, Reader.located_statement hstatement l.laid_tokens⟩

/-- The span covers the text on one of the lines. -/
def Span.Covers (s : Span) (lines : List Line) (text : String) : Prop :=
  ∃ l ∈ lines, s.line = l.number ∧ s.slice? l.text = some text.toList

/-- An error about a name or a pronoun has a span that covers what its message quotes. -/
def CompileError.Located (lines : List Line) : CompileError → Prop
  | .malformedName text span => span.Covers lines text
  | .unresolvedPronoun pronoun span => span.Covers lines pronoun
  | _ => True

/-- Both errors come from a reference, and have its text and its span. -/
theorem located_of_compile {o : Options} {source : List Char} {program : List Statement}
    (h : parse o.vocabulary source = .ok program) {e : CompileError}
    (he : compile o program = .error e) : e.Located (Line.split source) := by
  obtain ⟨s, hs⟩ := exists_session_of_error he
  refine CompileM.failsWith_statements ⟨fun _ => trivial, fun _ _ => trivial, fun _ _ => trivial⟩
    (fun _ _ _ _ => trivial) program (fun stmt hstmt ref href => ?_) _ _ _ hs
  obtain ⟨l, hl, hlocated⟩ := exists_line_of_located h hstmt
  obtain ⟨hon, htext⟩ := hlocated.of_mem_refs href
  exact CompileM.failsWith_identify (fun _ => ⟨l, hl, hon.line, htext⟩) ⟨l, hl, hon.line, htext⟩

/-- Spans point at the text they describe. Each statement of a program that was read has a line of
the source on which all its spans lie, without cutting a character; the spans of its parts lie
within its own, those of operands one before the other; and what the span of a reference covers is
its text. So an error about a name or a pronoun has a span that covers what its message quotes. -/
theorem spans_of_parse {o : Options} {source : String} {program : List Statement}
    (h : parse o.vocabulary source.toList = .ok program) :
    (∀ stmt ∈ program, ∃ l ∈ Line.split source.toList, stmt.span.line = l.number ∧
      stmt.Located l ∧ ∀ ref ∈ stmt.refs, ref.span.slice? l.text = some ref.text.toList) ∧
    ∀ e, compileSource o source = .error (.compile e) → e.Located (Line.split source.toList) := by
  constructor
  · intro stmt hstmt
    obtain ⟨l, hl, hlocated⟩ := exists_line_of_located h hstmt
    exact ⟨l, hl, hlocated.on_span.line, hlocated, fun ref href => (hlocated.of_mem_refs href).text⟩
  · intro e he
    obtain ⟨program', hparse, hcompile⟩ := exists_of_compileSource (r := .error e) he
    rw [h] at hparse
    cases hparse
    exact located_of_compile h hcompile

/-- A letter of two bytes before an operation, and a word that is no name. -/
def elanProgram : List Statement :=
  [.assign ⟨"Élan", ⟨1, 1, 5⟩⟩ (.literal (.number 5) ⟨1, 10, 1⟩) ⟨1, 1, 10⟩,
    .output .shout
      (.binary (.arith .add) (.negation ⟨2, 7, 3⟩ (.variable ⟨"Élan", ⟨2, 11, 5⟩⟩))
        (.variable ⟨"o'clock", ⟨2, 22, 7⟩⟩))
      ⟨2, 1, 28⟩]

/-- The word that is refused is found at the end of the second line. -/
theorem spans_of_parse_elan :
    let source := "Élan is 5\nShout not Élan plus o'clock"
    parse (Options.vocabulary {}) source.toList = .ok elanProgram ∧
      compileSource {} source = .error (.compile (.malformedName "o'clock" ⟨2, 22, 7⟩)) ∧
      (⟨2, 22, 7⟩ : Span).Covers (Line.split source.toList) "o'clock" ∧
      ∀ stmt ∈ elanProgram, ∃ l ∈ Line.split source.toList, stmt.Located l := by
  intro source
  have hparse : parse (Options.vocabulary {}) source.toList = .ok elanProgram :=
    eq_ok_of_toOption (by decide +kernel)
  have hrefused : compileSource {} source =
      .error (.compile (.malformedName "o'clock" ⟨2, 22, 7⟩)) :=
    eq_error_of_map (by decide +kernel)
  obtain ⟨hspans, herrors⟩ := spans_of_parse hparse
  refine ⟨hparse, hrefused, herrors _ hrefused, fun stmt hstmt => ?_⟩
  obtain ⟨l, hl, -, hlocated, -⟩ := hspans stmt hstmt
  exact ⟨l, hl, hlocated⟩

end Rockstar
