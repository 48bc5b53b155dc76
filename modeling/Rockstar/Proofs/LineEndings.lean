import Rockstar.Program
import Rockstar.Proofs.Likeness
import Rockstar.Proofs.Wording

/-!
# Line endings

A carriage return before the newline is a blank at the end of its line. Blanks at the end of a line
move no token (`extended_scanFrom`): words and numbers end before them, and a string or comment that
is not closed takes them in without a trace. What tokens carry along gets longer by the ending. No
reference reaches there, a poetic number and its text do not count white space at their ends, and a
spoken text leaves the carriage return out. So lines that end in a carriage return and a newline
read like lines that end in a newline (`parse_crlf`).
-/

namespace Rockstar

/-! ## Blanks at the end of a text -/

section Ending

variable {ending : List Char}

/-- A class of characters without blanks ends where it ended before. -/
theorem takeWhile_append_ending {p : Char → Bool} (h : ∀ d ∈ ending, p d = false)
    (cs : List Char) :
    (cs ++ ending).takeWhile p = cs.takeWhile p ∧
      (cs ++ ending).dropWhile p = cs.dropWhile p ++ ending := by
  induction cs with
  | nil =>
    cases ending with
    | nil => exact ⟨rfl, rfl⟩
    | cons d ds => simp [h d]
  | cons c cs ih =>
    by_cases hc : p c = true
    · simp [hc, ih]
    · simp [hc]

namespace Text

theorem trim_append_spaces (cs : List Char) {back : List Char}
    (h : ∀ c ∈ back, isSpace c = true) : trim (cs ++ back) = trim cs := by
  have hback : back.dropWhile isSpace = [] := List.dropWhile_eq_nil_iff.mpr h
  have hreverse : ∀ c ∈ back.reverse, isSpace c = true := by simpa using h
  unfold trim
  rw [List.dropWhile_append]
  by_cases hnone : (cs.dropWhile isSpace).isEmpty = true
  · rw [if_pos hnone, hback, List.isEmpty_iff.mp hnone]
  · rw [if_neg hnone, List.reverse_append, List.dropWhile_append_of_pos hreverse]

/-- A beginning that ends before the end of a text does not see what follows. -/
theorem takeBytes_append_of_le {n : Nat} {cs : List Char} (h : n ≤ byteSize cs)
    (back : List Char) : takeBytes n (cs ++ back) = takeBytes n cs := by
  induction cs generalizing n with
  | nil =>
    obtain rfl : n = 0 := Nat.le_zero.mp h
    rw [takeBytes_zero, takeBytes_zero]
  | cons c cs ih =>
    rw [byteSize_cons] at h
    rw [List.cons_append, takeBytes, takeBytes, ih (by omega)]

end Text

theorem isDigit_of_isBlank {c : Char} (h : isBlank c = true) : isDigit c = false := by
  unfold isBlank at h
  simp only [Bool.or_eq_true, decide_eq_true_eq] at h
  rcases h with (rfl | rfl) | rfl <;> decide

theorem ne_of_isBlank {c : Char} (h : isBlank c = true) : c ≠ ')' ∧ c ≠ '"' ∧ c ≠ '.' := by
  unfold isBlank at h
  simp only [Bool.or_eq_true, decide_eq_true_eq] at h
  rcases h with (rfl | rfl) | rfl <;> decide

namespace Piece

/-- What is left behind a piece, if the ending does not change the piece. -/
theorem restOf_append_of_first_eq {c : Char} {cs : List Char}
    (hfirst : first c (cs ++ ending) = first c cs) :
    restOf c (cs ++ ending) = restOf c cs ++ ending := by
  have hlength := congrArg List.length (raw_append_restOf c cs)
  rw [List.length_append, List.length_cons] at hlength
  unfold restOf
  rw [hfirst, List.drop_append_of_le_length (by omega)]

variable (h : ∀ d ∈ ending, isBlank d = true)
include h

theorem takeNumber_append_ending (cs : List Char) : takeNumber (cs ++ ending) = takeNumber cs := by
  have hdigits : ∀ d ∈ ending, isDigit d = false := fun d hd => isDigit_of_isBlank (h d hd)
  obtain ⟨htake, hdrop⟩ := takeWhile_append_ending hdigits cs
  unfold takeNumber
  rw [htake, hdrop]
  dsimp only
  rcases hrest : cs.dropWhile isDigit with _ | ⟨point, _ | ⟨d, ds⟩⟩
  · -- the number ends the text, and the ending does not begin with a point
    cases ending with
    | nil => rfl
    | cons e es =>
      have hpoint := (ne_of_isBlank (h e List.mem_cons_self)).2.2
      rw [List.nil_append]
      split
      next hcons => exact absurd (List.cons.inj hcons).1 hpoint
      next => rfl
  · by_cases hpoint : point = '.'
    · subst hpoint
      cases ending with
      | nil => rfl
      | cons e es => simp [hdigits e List.mem_cons_self]
    · simp [hpoint]
  · by_cases hpoint : point = '.'
    · subst hpoint
      have hfraction := (takeWhile_append_ending hdigits (d :: ds)).1
      rw [List.cons_append] at hfraction
      simp only [List.cons_append, hfraction]
    · simp [hpoint]

/-- Blanks at the end change no piece but a string or a comment that is not closed. -/
theorem first_append_ending (c : Char) (cs : List Char) :
    first c (cs ++ ending) = first c cs ∨ c = '(' ∧ ')' ∉ cs ∨ c = '"' ∧ '"' ∉ cs := by
  by_cases hparen : c = '('
  · subst hparen
    by_cases hclosed : ')' ∈ cs
    · obtain ⟨body, rest, hbody, rfl⟩ := exists_append_of_contains (by simpa using hclosed)
      rw [List.append_assoc, List.cons_append, (first_comment hbody _).1, (first_comment hbody _).1]
      exact .inl rfl
    · exact .inr (.inl ⟨rfl, hclosed⟩)
  by_cases hquote : c = '"'
  · subst hquote
    by_cases hclosed : '"' ∈ cs
    · obtain ⟨body, rest, hbody, rfl⟩ := exists_append_of_contains (by simpa using hclosed)
      rw [List.append_assoc, List.cons_append, (first_string hbody _).1, (first_string hbody _).1]
      exact .inl rfl
    · exact .inr (.inr ⟨rfl, hclosed⟩)
  refine .inl ?_
  have hletters : ∀ d ∈ ending, isWordChar d = false := fun d hd =>
    Text.isWordChar_of_isSpace (Text.isSpace_of_isBlank (h d hd))
  have hnumber := takeNumber_append_ending h (c :: cs)
  have hword := (takeWhile_append_ending hletters (c :: cs)).1
  rw [List.cons_append] at hnumber hword
  unfold first
  rw [if_neg hparen, if_neg hquote, if_neg hparen, if_neg hquote, hnumber, hword]

end Piece

/-! ## Tokens -/

/-- The second token is the first one on a line with an ending. Words are not empty and lie inside
the line, which has the given width; what they carry along of it has the ending, too. -/
structure Token.Extended (ending : List Char) (width : Nat) (t t' : Token) : Prop extends
    t.Like t' where
  span : t'.span = t.span
  inside : t.kind = .word → t.span.endCol ≤ width
  col : t.kind = .word → t.span.col + Text.byteSize t.onward = width
  onward : t.kind = .word → t'.onward = t.onward ++ ending
  behind : t.kind = .word → t'.behind = t.behind ++ ending
  noReturn : t.kind = .word → '\r' ∉ t.behind

theorem Token.extended_of_ne {width : Nat} {t t' : Token} (hlike : t.Like t')
    (hspan : t'.span = t.span) (hkind : t.kind ≠ .word) : t.Extended ending width t' where
  toLike := hlike
  span := hspan
  inside hword := absurd hword hkind
  col hword := absurd hword hkind
  onward hword := absurd hword hkind
  behind hword := absurd hword hkind
  noReturn hword := absurd hword hkind

/-- A fault is the same wherever the text behind it ends. -/
theorem Token.extended_fault {width offset offset' : Nat} {e e' : ScanError} {span span' : Span}
    (he : e' = e) (hspan : span' = span) (onward onward' behind behind' : List Char) :
    (Token.mk (.fault e) "" span offset onward behind).Extended ending width
      ⟨.fault e', "", span', offset', onward', behind'⟩ :=
  Token.extended_of_ne ⟨by rw [he], rfl⟩ hspan TokenKind.noConfusion

theorem Piece.extended_tokens {c : Char} {cs : List Char} {place place' : Place}
    (hline : place'.line = place.line) (hcol : place'.col = place.col) (hreturn : '\r' ∉ c :: cs) :
    List.Forall₂ (Token.Extended ending (place.col + Text.byteSize (c :: cs)))
      ((first c cs).tokens place (c :: cs) (restOf c cs))
      ((first c cs).tokens place' (c :: cs ++ ending) (restOf c cs ++ ending)) := by
  have hwhole := raw_append_restOf c cs
  have hspan : ∀ n, place'.span n = place.span n := fun n => by
    rw [Place.span, Place.span, hline, hcol]
  have hbehind : '\r' ∉ restOf c cs := fun hmem => hreturn (hwhole ▸ List.mem_append_right _ hmem)
  have hsize := congrArg Text.byteSize hwhole
  rw [Text.byteSize_append] at hsize
  cases hpiece : first c cs with
  | blank d => exact .nil
  | comment body => exact .nil
  | word letters =>
    rw [hpiece] at hsize
    refine .cons ⟨⟨rfl, rfl⟩, hspan _, fun _ => ?_, fun _ => rfl, fun _ => rfl, fun _ => rfl,
      fun _ => hbehind⟩ .nil
    show place.col + Text.byteSize (raw (.word letters)) ≤ _
    omega
  | contraction stem s =>
    have hs : s.utf8Size = 1 := by
      rcases (contraction_of_first hpiece).2 with rfl | rfl <;> rfl
    have hquote : '\''.utf8Size = 1 := rfl
    have hne : s ≠ '\r' := by
      rcases (contraction_of_first hpiece).2 with rfl | rfl <;> decide
    rw [hpiece] at hsize
    simp only [raw, Text.byteSize_append, Text.byteSize_cons, Text.byteSize_nil, hs,
      hquote] at hsize
    -- the stem, and behind it the "is" that the apostrophe stands for
    refine .cons ⟨⟨rfl, rfl⟩, hspan _, fun _ => ?_, fun _ => rfl, fun _ => rfl, fun _ => rfl,
      fun _ => ?_⟩ (.cons ⟨⟨rfl, rfl⟩, ?_, fun _ => ?_, fun _ => ?_, fun _ => rfl, fun _ => rfl,
      fun _ => hbehind⟩ .nil)
    · show place.col + Text.byteSize stem ≤ _
      rw [Text.byteSize_cons]
      omega
    · simp [hbehind, hne.symm]
    · simp only [Place.span, Place.advance, hline, hcol]
    · show place.col + Text.byteSize stem + 2 ≤ _
      rw [Text.byteSize_cons]
      omega
    · show place.col + Text.byteSize stem + Text.byteSize ('\'' :: s :: restOf c cs) = _
      simp only [Text.byteSize_cons, hs, hquote]
      omega
  | symbol kind d =>
    have hkind := kind_of_symbol hpiece
    refine .cons (Token.extended_of_ne ⟨rfl, rfl⟩ (hspan _) ?_) .nil
    rintro rfl
    simp at hkind
  | openComment body =>
    exact .cons (Token.extended_fault (by rw [hspan]) (hspan 1) _ _ _ _) .nil
  | openString body =>
    exact .cons (Token.extended_fault (by rw [hspan]) (hspan 1) _ _ _ _) .nil
  | stray d => exact .cons (Token.extended_fault (by rw [hspan]) (hspan _) _ _ _ _) .nil
  | string body =>
    exact .cons (Token.extended_of_ne ⟨rfl, rfl⟩ (hspan _) TokenKind.noConfusion) .nil
  | number digits =>
    exact .cons (Token.extended_of_ne ⟨rfl, rfl⟩ (hspan _) TokenKind.noConfusion) .nil

theorem scanFrom_blanks (h : ∀ d ∈ ending, isBlank d = true) (place : Place) :
    scanFrom place ending = [] := by
  induction ending generalizing place with
  | nil => rw [scanFrom]
  | cons d ds ih =>
    have hfirst : Piece.first d ds = .blank d := by
      rw [Piece.first, if_pos (h d List.mem_cons_self)]
    have hrest : Piece.restOf d ds = ds := by
      rw [Piece.restOf, hfirst]
      rfl
    rw [scanFrom, hrest, ih (fun e he => h e (List.mem_cons_of_mem _ he)), hfirst]
    rfl

/-- Blanks at the end of a line move no token. -/
theorem extended_scanFrom (h : ∀ d ∈ ending, isBlank d = true) (width : Nat) (place : Place)
    (cs : List Char) (hreturn : '\r' ∉ cs) (hwidth : place.col + Text.byteSize cs = width) :
    ∀ place' : Place, place'.line = place.line → place'.col = place.col →
      List.Forall₂ (Token.Extended ending width) (scanFrom place cs)
        (scanFrom place' (cs ++ ending)) := by
  fun_induction scanFrom place cs with
  | case1 place =>
    intro place' hline hcol
    rw [List.nil_append, scanFrom_blanks h]
    exact .nil
  | case2 place c cs piece ih =>
    intro place' hline hcol
    rw [List.cons_append, scanFrom]
    rcases Piece.first_append_ending h c cs with hfirst | ⟨rfl, hopen⟩ | ⟨rfl, hopen⟩
    · have hwhole := Piece.raw_append_restOf c cs
      have hsize := congrArg Text.byteSize hwhole
      have hcol' : (place'.advance piece.size).col = (place.advance piece.size).col := by
        simp only [Place.advance, hcol]
      have hwidth' : (place.advance piece.size).col + Text.byteSize (Piece.restOf c cs) =
          width := by
        rw [Text.byteSize_append] at hsize
        show place.col + Text.byteSize (Piece.first c cs).raw + _ = width
        omega
      rw [Piece.restOf_append_of_first_eq hfirst, hfirst]
      refine List.rel_append ?_ (ih ?_ hwidth' _ hline hcol')
      · rw [← hwidth]
        exact Piece.extended_tokens hline hcol hreturn
      · exact fun hmem => hreturn (hwhole ▸ List.mem_append_right _ hmem)
    -- what is not closed takes all of the line, and the ending with it
    · have hopen' : ')' ∉ cs ++ ending := by
        rw [List.mem_append, not_or]
        exact ⟨hopen, fun hmem => (ne_of_isBlank (h _ hmem)).1 rfl⟩
      have hspan : place'.span 1 = place.span 1 := by rw [Place.span, Place.span, hline, hcol]
      simp only [piece, Piece.first_openComment hopen, Piece.first_openComment hopen', scanFrom]
      exact .cons (Token.extended_fault (by rw [hspan]) hspan _ _ _ _) .nil
    · have hopen' : '"' ∉ cs ++ ending := by
        rw [List.mem_append, not_or]
        exact ⟨hopen, fun hmem => (ne_of_isBlank (h _ hmem)).2.1 rfl⟩
      have hspan : place'.span 1 = place.span 1 := by rw [Place.span, Place.span, hline, hcol]
      simp only [piece, Piece.first_openString hopen, Piece.first_openString hopen', scanFrom]
      exact .cons (Token.extended_fault (by rw [hspan]) hspan _ _ _ _) .nil

end Ending

/-! ## Lines -/

/-- A spoken text leaves out the carriage return at its end. -/
theorem Poetic.string_append_return {text : List Char} (h : '\r' ∉ text) :
    Poetic.string (text ++ ['\r']) = Poetic.string text := by
  have hlast : text.getLast? ≠ some '\r' := fun hlast => h (List.mem_of_getLast? hlast)
  unfold Poetic.string Poetic.dropReturn
  simp [hlast]

/-- The line ends with a carriage return in front of its newline, if it has one. -/
structure Line.Returned (l l' : Line) : Prop where
  number : l'.number = l.number
  isLast : l'.isLast = l.isLast
  text : l'.text = l.text ++ if l.isLast then [] else ['\r']

theorem Line.Returned.readAlike {l l' : Line} (h : l.Returned l') (hreturn : '\r' ∉ l.text)
    (v : Vocabulary) : ReadAlike (l.statement? v) (l'.statement? v) := by
  generalize hending : (if l.isLast then [] else ['\r'] : List Char) = ending
  have htext := h.text
  rw [hending] at htext
  have hcases : ending = [] ∨ ending = ['\r'] := by
    rw [← hending]
    cases l.isLast
    · exact .inr rfl
    · exact .inl rfl
  have hblank : ∀ d ∈ ending, isBlank d = true := by
    intro d hd
    rcases hcases with rfl | rfl
    · cases hd
    · rw [List.mem_singleton.mp hd]
      decide
  have hspace : ∀ d ∈ ending, Text.isSpace d = true := fun d hd =>
    Text.isSpace_of_isBlank (hblank d hd)
  have hlike : Reader.Likeness (Token.Extended ending (1 + Text.byteSize l.text))
      ⟨v, l.stop⟩ ⟨v, l'.stop⟩ := {
    stop := by
      refine ⟨?_, ?_⟩
      · simp only [Line.stop, h.isLast]
      · simp only [Line.stop, h.isLast]
    stopLine := h.number
    like := fun ht => ht.toLike
    span := fun ht => ht.span
    keyword := fun _ _ => rfl
    pronoun := fun _ _ => rfl
    determiner := fun _ _ => rfl
    reference := by
      intro t t' u u' ht hu htword huword
      have hcol := ht.col htword
      have hend := hu.inside huword
      unfold Reader.reference
      rw [ht.span, hu.span, ht.onward htword, Text.takeBytes_append_of_le (by omega)]
    number := by
      intro t t' ht hword
      rw [ht.behind hword, Poetic.number?_append_spaces _ hspace]
    text := by
      intro t t' ht hword
      rw [ht.behind hword, Text.trim_append_spaces _ hspace]
    speech := by
      intro t t' ht hword
      rw [ht.behind hword]
      rcases hcases with rfl | rfl
      · rw [List.append_nil]
      · exact Poetic.string_append_return (ht.noReturn hword) }
  refine Line.readAlike hlike ?_
  have htokens := extended_scanFrom hblank _ l.place l.text hreturn rfl l'.place h.number rfl
  rw [← htext] at htokens
  exact htokens

/-! ## Sources -/

/-- The source with a carriage return in front of every newline. -/
def crlf (source : String) : String :=
  String.ofList (source.toList.flatMap fun c => if c = '\n' then ['\r', '\n'] else [c])

theorem Line.returned_splitFrom (number start start' : Nat) (seen cs : List Char) :
    List.Forall₂ Line.Returned (splitFrom number start seen [] cs)
      (splitFrom number start' seen []
        (cs.flatMap fun c => if c = '\n' then ['\r', '\n'] else [c])) := by
  induction cs generalizing number start start' seen with
  | nil => exact .cons ⟨rfl, rfl, (List.append_nil _).symm⟩ .nil
  | cons c cs ih =>
    by_cases hc : c = '\n'
    · subst hc
      rw [List.flatMap_cons, if_pos rfl, splitFrom, if_pos rfl, splitFrom_done]
      simp only [List.cons_append, List.nil_append]
      rw [splitFrom, if_neg (by decide), splitFrom, if_pos rfl, splitFrom_done _ _ _ [_]]
      have hline : Line.Returned ⟨number, start, seen.reverse, false⟩
          ⟨number, start', ('\r' :: seen).reverse, false⟩ := ⟨rfl, rfl, by simp⟩
      exact .cons hline (ih _ _ _ _)
    · rw [List.flatMap_cons, if_neg hc, List.cons_append, List.nil_append, splitFrom, if_neg hc,
        splitFrom, if_neg hc]
      exact ih _ _ _ _

/-- The characters of a line stand in the source. -/
theorem Line.mem_of_mem_split {source : List Char} {l : Line} (hl : l ∈ split source) {c : Char}
    (hc : c ∈ l.text) : c ∈ source := by
  have hsource : (split source).flatMap raw = source := flatMap_raw_splitFrom 1 0 [] source
  rw [← hsource]
  exact List.mem_flatMap.mpr ⟨l, hl, List.mem_append_left _ hc⟩

theorem readAlike_crlf (v : Vocabulary) {source : String} (h : '\r' ∉ source.toList) :
    List.Forall₂ (fun l l' => ReadAlike (l.statement? v) (l'.statement? v))
      (Line.split source.toList) (Line.split (crlf source).toList) := by
  have hlines : List.Forall₂ Line.Returned (Line.split source.toList)
      (Line.split (crlf source).toList) := by
    rw [crlf, String.toList_ofList]
    exact Line.returned_splitFrom 1 0 0 [] source.toList
  have hreturn : ∀ l ∈ Line.split source.toList, '\r' ∉ l.text := fun l hl hmem =>
    h (Line.mem_of_mem_split hl hmem)
  refine ((List.forall₂_and_left _ _).mpr ⟨hreturn, hlines⟩).imp ?_
  rintro l l' ⟨hl, hline⟩
  exact hline.readAlike hl v

/-- Line endings do not matter. A source without carriage returns and the source with one in front
of every newline are read as the same program, with all texts and places, or neither of them is
read. In the first case they compile to the same executable or with the same error. In the second
case they have the same errors in the same order, of the same kinds, with the same messages and on
the same lines. -/
theorem parse_crlf (o : Options) {source : String} (h : '\r' ∉ source.toList) :
    (∀ program, parse o.vocabulary (crlf source).toList = .ok program ↔
      parse o.vocabulary source.toList = .ok program) ∧
    (∀ program, parse o.vocabulary source.toList = .ok program →
      compileSource o (crlf source) = compileSource o source) ∧
    ∀ es, parse o.vocabulary source.toList = .error es →
      ∃ es', parse o.vocabulary (crlf source).toList = .error es' ∧
        List.Forall₂ (fun (e e' : ParseError) => e'.report.kind = e.report.kind ∧
          e'.report.message = e.report.message ∧ e'.report.span.line = e.report.span.line)
          es es' := by
  rcases parse_alike (readAlike_crlf o.vocabulary h) with
    ⟨program, hparse, hparse'⟩ | ⟨es, es', hparse, hparse', halike⟩
  · refine ⟨fun program' => by rw [hparse, hparse'], fun _ _ => ?_, fun es herror => ?_⟩
    · rw [compileSource, compileSource, hparse, hparse']
    · rw [hparse] at herror
      cases herror
  · refine ⟨fun program => ?_, fun program hok => ?_, fun es₀ herror => ?_⟩
    · rw [hparse, hparse']
      constructor <;> intro hok <;> cases hok
    · rw [hparse] at hok
      cases hok
    · rw [hparse] at herror
      cases herror
      refine ⟨es', hparse', halike.imp fun e e' he => ⟨?_, ?_, he.line⟩⟩
      · show e'.cause.kind = e.cause.kind
        rw [he.cause]
      · show e'.cause.message = e.cause.message
        rw [he.cause]

/-- A step without its direction, and a line that is spoken. The error is where the line ends, which
is one column further behind a carriage return. -/
theorem parse_crlf_step :
    '\r' ∉ "Build X\nX says hi\n".toList ∧
      parse .standard "Build X\nX says hi\n".toList =
        .error [⟨.lineEnded "'up'", ⟨1, 8, 1⟩⟩] ∧
      parse .standard (crlf "Build X\nX says hi\n").toList =
        .error [⟨.lineEnded "'up'", ⟨1, 9, 1⟩⟩] ∧
      ∃ es', parse .standard (crlf "Build X\nX says hi\n").toList = .error es' ∧
        List.Forall₂ (fun (e e' : ParseError) => e'.report.kind = e.report.kind ∧
          e'.report.message = e.report.message ∧ e'.report.span.line = e.report.span.line)
          [⟨.lineEnded "'up'", ⟨1, 8, 1⟩⟩] es' := by
  have hreturn : '\r' ∉ "Build X\nX says hi\n".toList := by decide
  have hparse : parse .standard "Build X\nX says hi\n".toList =
      .error [⟨.lineEnded "'up'", ⟨1, 8, 1⟩⟩] := by
    decide +kernel
  refine ⟨hreturn, hparse, by decide +kernel, ?_⟩
  exact (parse_crlf {} hreturn).2.2 _ hparse

end Rockstar
