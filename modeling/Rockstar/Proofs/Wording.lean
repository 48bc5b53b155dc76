import Mathlib.Data.List.Chain
import Rockstar.Name
import Rockstar.Proofs.Shifting

/-!
# Words of a line and words of a text

The scanner cuts words out of a line, and names are later cut into words again, at white space. For
words that follow each other on a line without a comment between them both give the same words
(`Token.exists_text`), and in front of the first comment there is nothing but words and blanks. The
one word that the scanner makes up is the "is" of a contraction; every other one stands on the line
as it is (`Token.written_of_mem`).
-/

namespace Rockstar

/-- A letter, followed by letters and apostrophes. -/
def IsWord : List Char → Prop
  | [] => False
  | c :: cs => Text.isLetter c = true ∧ ∀ d ∈ cs, isWordChar d = true

instance (w : List Char) : Decidable (IsWord w) :=
  match w with
  | [] => inferInstanceAs (Decidable False)
  | c :: cs =>
    decidable_of_iff (Text.isLetter c = true ∧ cs.all isWordChar = true) (by simp [IsWord])

theorem IsWord.ne_nil {w : List Char} (h : IsWord w) : w ≠ [] := by
  rintro rfl
  exact h

theorem IsWord.isWordChar {w : List Char} (h : IsWord w) : ∀ c ∈ w, isWordChar c = true := by
  intro c hc
  cases w with
  | nil => cases hc
  | cons d ds =>
    rcases List.mem_cons.mp hc with rfl | hmem
    · simp [Rockstar.isWordChar, h.1]
    · exact h.2 c hmem

/-! ## Words of a text -/

namespace Text

theorem Run.exists_of_covers {rs : List Run} {n : Nat} (h : covers rs n = true) :
    ∃ r ∈ rs, r.first ≤ n ∧ n ≤ r.last := by
  induction rs with
  | nil => cases h
  | cons r rs ih =>
    simp only [covers, has, Bool.and_eq_true, Bool.or_eq_true, decide_eq_true_eq] at h
    rcases h.2 with hhas | hrest
    · exact ⟨r, by simp, hhas.1⟩
    · obtain ⟨r', hr', hn⟩ := ih hrest
      exact ⟨r', List.mem_cons_of_mem _ hr', hn⟩

/-- White space is neither a letter nor an apostrophe. -/
theorem isWordChar_of_isSpace {c : Char} (h : isSpace c = true) : isWordChar c = false := by
  have hdisjoint : ∀ r ∈ spaceRuns, ∀ n ∈ List.range' r.first (r.last + 1 - r.first),
      Run.covers letterRuns n = false := by
    decide +kernel
  obtain ⟨r, hr, hfirst, hlast⟩ := Run.exists_of_covers h
  have hletter : isLetter c = false := by
    refine hdisjoint r hr c.toNat ?_
    rw [List.mem_range'_1]
    omega
  have hquote : c ≠ '\'' := by
    rintro rfl
    exact absurd h (by decide)
  simp [isWordChar, hletter, hquote]

theorem isSpace_of_isBlank {c : Char} (h : isBlank c = true) : isSpace c = true := by
  simp only [isBlank, Bool.or_eq_true, decide_eq_true_eq] at h
  rcases h with (rfl | rfl) | rfl <;> decide

variable {w gap : List Char}

theorem isSpace_of_isWord (hw : IsWord w) : ∀ c ∈ w, isSpace c = false := by
  intro c hc
  have hchar := hw.isWordChar c hc
  refine Bool.eq_false_iff.mpr fun hspace => ?_
  rw [isWordChar_of_isSpace hspace] at hchar
  cases hchar

theorem wordsFrom_append (hw : ∀ c ∈ w, isSpace c = false) (word cs : List Char) :
    wordsFrom word (w ++ cs) = wordsFrom (w.reverse ++ word) cs := by
  induction w generalizing word with
  | nil => rfl
  | cons c w ih =>
    have hc : ¬isSpace c = true := by simp [hw c]
    rw [List.cons_append, wordsFrom, if_neg hc, ih fun d hd => hw d (by simp [hd])]
    simp

theorem words_spaces_append (hgap : ∀ c ∈ gap, isSpace c = true) (cs : List Char) :
    words (gap ++ cs) = words cs := by
  induction gap with
  | nil => rfl
  | cons c gap ih =>
    rw [words, List.cons_append, wordsFrom, if_pos (hgap c (by simp)), if_pos (by rfl)]
    exact ih fun d hd => hgap d (by simp [hd])

theorem words_single (hw : ∀ c ∈ w, isSpace c = false) (hne : w ≠ []) : words w = [w] := by
  have happend := wordsFrom_append hw [] []
  rw [List.append_nil, List.append_nil] at happend
  rw [words, happend, wordsFrom, if_neg (by simpa using hne), List.reverse_reverse]

/-- A word is cut off at the white space behind it. -/
theorem words_cons (hw : ∀ c ∈ w, isSpace c = false) (hne : w ≠ []) {s : Char}
    (hs : isSpace s = true) (cs : List Char) : words (w ++ s :: cs) = w :: words cs := by
  have hword : ¬(w.reverse ++ []).isEmpty = true := by simpa using hne
  rw [words, wordsFrom_append hw, wordsFrom, if_pos hs, if_neg hword, List.append_nil,
    List.reverse_reverse]
  rfl

/-- The first word goes on where the reading of it began, or behind white space. -/
theorem exists_append_of_wordsFrom {word cs : List Char} {ws : List (List Char)}
    (h : wordsFrom word cs = w :: ws) :
    ∃ gap front rest, cs = gap ++ (front ++ rest) ∧ w = word.reverse ++ front ∧ w ≠ [] ∧
      (∀ c ∈ gap, isSpace c = true) ∧ (∀ c ∈ front, isSpace c = false) ∧
      (word ≠ [] → gap = []) := by
  induction cs generalizing word with
  | nil =>
    rw [wordsFrom] at h
    split at h
    · cases h
    next hne =>
      obtain ⟨rfl, -⟩ := List.cons.inj h
      exact ⟨[], [], [], rfl, by simp, by simpa using hne, by simp, by simp, fun _ => rfl⟩
  | cons c cs ih =>
    rw [wordsFrom] at h
    by_cases hspace : isSpace c = true
    · rw [if_pos hspace] at h
      split at h
      next hempty =>
        -- white space in front of the word
        obtain ⟨gap, front, rest, rfl, hw, hne, hgap, hfront, -⟩ := ih h
        refine ⟨c :: gap, front, rest, rfl, ?_, hne, by simpa [hspace] using hgap, hfront, ?_⟩
        · rw [hw, List.isEmpty_iff.mp hempty]
        · exact fun hne => absurd (List.isEmpty_iff.mp hempty) hne
      next hne =>
        obtain ⟨rfl, -⟩ := List.cons.inj h
        exact ⟨[], [], c :: cs, rfl, by simp, by simpa using hne, by simp, by simp, fun _ => rfl⟩
    · rw [if_neg hspace] at h
      obtain ⟨gap, front, rest, rfl, rfl, hne, -, hfront, hgap⟩ := ih h
      rw [hgap (by simp)]
      refine ⟨[], c :: front, rest, rfl, by simp, hne, by simp, ?_, fun _ => rfl⟩
      simpa [hspace] using hfront

/-- Nothing but white space stands in front of the first word. -/
theorem exists_append_of_words {cs : List Char} {ws : List (List Char)}
    (h : words cs = w :: ws) :
    ∃ gap rest, cs = gap ++ (w ++ rest) ∧ w ≠ [] ∧ (∀ c ∈ gap, isSpace c = true) ∧
      ∀ c ∈ w, isSpace c = false := by
  obtain ⟨gap, front, rest, hcs, rfl, hne, hgap, hfront, -⟩ := exists_append_of_wordsFrom h
  exact ⟨gap, rest, hcs, hne, hgap, hfront⟩

theorem words_of_isWord (hw : IsWord w) : words w = [w] :=
  words_single (isSpace_of_isWord hw) hw.ne_nil

theorem words_append (hw : IsWord w) (hgap : ∀ c ∈ gap, isSpace c = true) (hne : gap ≠ [])
    (cs : List Char) : words (w ++ (gap ++ cs)) = w :: words cs := by
  obtain ⟨c, gap, rfl⟩ := List.exists_cons_of_ne_nil hne
  rw [List.cons_append, words_cons (isSpace_of_isWord hw) hw.ne_nil (hgap c (by simp)),
    words_spaces_append fun d hd => hgap d (by simp [hd])]

end Text

/-! ## Words of a line -/

namespace Piece

variable {c : Char} {cs : List Char}

/-- A piece of letters takes all of them, and apostrophes with them. -/
theorem isWord_raw_first
    (h : (∃ w, first c cs = .word w) ∨ ∃ stem s, first c cs = .contraction stem s) :
    IsWord (first c cs).raw ∧ Stops isWordChar (restOf c cs) := by
  have hletters : Text.isLetter c = true ∧
      first c cs = ofWord ((c :: cs).takeWhile isWordChar) := by
    unfold first at h ⊢
    grind
  obtain ⟨hletter, hfirst⟩ := hletters
  have hraw : (first c cs).raw = (c :: cs).takeWhile isWordChar := by rw [hfirst, raw_ofWord]
  have hrest : restOf c cs = (c :: cs).dropWhile isWordChar := by
    have hwhole := raw_append_restOf c cs
    have hsplit := List.takeWhile_append_dropWhile (p := isWordChar) (l := c :: cs)
    rw [hraw] at hwhole
    exact List.append_cancel_left (hwhole.trans hsplit.symm)
  rw [hraw, hrest]
  refine ⟨?_, stops_dropWhile isWordChar (c :: cs)⟩
  rw [List.takeWhile_cons_of_pos (by simp [isWordChar, hletter])]
  exact ⟨hletter, fun d hd => List.mem_takeWhile_imp hd⟩

end Piece

theorem IsWord.of_append {front back : List Char} (h : IsWord (front ++ back))
    (hne : front ≠ []) : IsWord front := by
  cases front with
  | nil => exact absurd rfl hne
  | cons c cs => exact ⟨h.1, fun d hd => h.2 d (List.mem_append_left _ hd)⟩

namespace Token

/-- A word that stands on the line as it is. -/
structure Written (t : Token) : Prop where
  onward : t.onward = t.lexeme.toList ++ t.behind
  len : t.span.len = Text.byteSize t.lexeme.toList
  word : IsWord t.lexeme.toList
  stops : Piece.Stops Text.isLetter t.behind

theorem written_of_piece {c : Char} {cs : List Char} {place : Place} {t : Token}
    (h : t ∈ (Piece.first c cs).tokens place (c :: cs) (Piece.restOf c cs))
    (hkind : t.kind = .word) : t.lexeme = "is" ∨ t.Written := by
  have hwhole := Piece.raw_append_restOf c cs
  cases hpiece : Piece.first c cs with
  | word letters =>
    obtain ⟨hword, hstops⟩ := Piece.isWord_raw_first (.inl ⟨letters, hpiece⟩)
    rw [hpiece] at h hwhole hword
    obtain rfl := List.mem_singleton.mp h
    refine .inr ⟨by simpa [Piece.raw] using hwhole.symm,
      by simp [Place.span, Piece.size, Piece.raw], by simpa [Piece.raw] using hword,
      fun d ds hcons => ?_⟩
    have hd := hstops d ds hcons
    simp only [isWordChar, Bool.or_eq_false_iff] at hd
    exact hd.1
  | contraction stem s =>
    obtain ⟨hword, -⟩ := Piece.isWord_raw_first (.inr ⟨stem, s, hpiece⟩)
    have hstem := (Piece.contraction_of_first hpiece).1
    rw [hpiece] at h hwhole hword
    simp only [Piece.tokens, List.mem_cons, List.not_mem_nil, or_false] at h
    rcases h with rfl | rfl
    · refine .inr ⟨by simpa [Piece.raw] using hwhole.symm, by simp [Place.span],
        by simpa using hword.of_append hstem, fun d ds hcons => ?_⟩
      obtain ⟨rfl, -⟩ := List.cons.inj hcons
      decide
    · exact .inl rfl
  | blank d =>
    rw [hpiece] at h
    cases h
  | comment body =>
    rw [hpiece] at h
    cases h
  | symbol kind d =>
    rw [hpiece] at h
    obtain rfl := List.mem_singleton.mp h
    have hsymbol := Piece.kind_of_symbol hpiece
    rw [show kind = .word from hkind] at hsymbol
    simp at hsymbol
  | _ =>
    rw [hpiece] at h
    obtain rfl := List.mem_singleton.mp h
    cases hkind

/-- All words but the "is" of a contraction stand on the line. -/
theorem written_of_mem {place : Place} {cs : List Char} {t : Token} (h : t ∈ scanFrom place cs)
    (hkind : t.kind = .word) : t.lexeme = "is" ∨ t.Written := by
  fun_induction scanFrom place cs with
  | case1 place => cases h
  | case2 place c cs piece ih =>
    rcases List.mem_append.mp h with hfirst | hrest
    · exact written_of_piece hfirst hkind
    · exact ih hrest

/-- The token comes next in the text, which begins at the column: only blanks and comments stand
before it, so that there are blanks only up to the first parenthesis. -/
def ComesNext (u : Token) (col : Nat) (cs : List Char) : Prop :=
  ∃ gap, cs = gap ++ u.onward ∧ u.span.col = col + Text.byteSize gap ∧
    ∀ c ∈ gap.takeWhile (· ≠ '('), isBlank c = true

/-- The second token comes next behind the first one, if that is a word. -/
def Follows (t u : Token) : Prop := t.kind = .word → u.ComesNext t.span.endCol t.behind

theorem mem_of_mem_takeWhile_append {p : Char → Bool} {a b : List Char} {c : Char}
    (h : c ∈ (a ++ b).takeWhile p) : c ∈ a.takeWhile p ∨ c ∈ b.takeWhile p := by
  induction a with
  | nil => exact .inr h
  | cons d a ih =>
    by_cases hd : p d = true
    · rw [List.cons_append, List.takeWhile_cons_of_pos hd, List.mem_cons] at h
      rw [List.takeWhile_cons_of_pos hd, List.mem_cons]
      rcases h with rfl | h
      · exact .inl (.inl rfl)
      · exact (ih h).imp_left .inr
    · rw [List.cons_append, List.takeWhile_cons_of_neg hd] at h
      cases h

theorem comesNext_self {u : Token} {col : Nat} {cs : List Char} (honward : u.onward = cs)
    (hcol : u.span.col = col) : u.ComesNext col cs :=
  ⟨[], by simp [honward], by simp [hcol], by simp⟩

/-- Skipping a blank or a comment. -/
theorem ComesNext.skip {u : Token} {col : Nat} {front cs : List Char}
    (h : u.ComesNext (col + Text.byteSize front) cs)
    (hfront : ∀ c ∈ front.takeWhile (· ≠ '('), isBlank c = true) :
    u.ComesNext col (front ++ cs) := by
  obtain ⟨gap, rfl, hcol, hgap⟩ := h
  refine ⟨front ++ gap, by simp, by rw [hcol, Text.byteSize_append, Nat.add_assoc], ?_⟩
  intro c hc
  rcases mem_of_mem_takeWhile_append hc with hmem | hmem
  · exact hfront c hmem
  · exact hgap c hmem

theorem comesNext_of_piece {c : Char} {cs : List Char} {place : Place} {t : Token}
    (h : t ∈ ((Piece.first c cs).tokens place (c :: cs) (Piece.restOf c cs)).head?) :
    t.ComesNext place.col (c :: cs) := by
  cases hpiece : Piece.first c cs with
  | blank d =>
    rw [hpiece] at h
    cases h
  | comment body =>
    rw [hpiece] at h
    cases h
  | _ =>
    rw [hpiece] at h
    cases h
    exact comesNext_self rfl rfl

/-- What a piece without tokens skips. -/
theorem isBlank_of_tokens_eq_nil {c : Char} {cs onward behind : List Char} {place : Place}
    (h : (Piece.first c cs).tokens place onward behind = []) :
    ∀ d ∈ (Piece.first c cs).raw.takeWhile (· ≠ '('), isBlank d = true := by
  cases hpiece : Piece.first c cs with
  | blank d =>
    have hblank : isBlank d = true := by
      unfold Piece.first Piece.ofWord at hpiece
      grind
    intro e he
    have hmem := (List.takeWhile_sublist _).mem he
    rwa [List.mem_singleton.mp hmem]
  | comment body => simp [Piece.raw]
  | _ =>
    rw [hpiece] at h
    cases h

/-- Behind the last word of a piece stands what is left of the text. -/
theorem endCol_of_piece {c : Char} {cs : List Char} {place : Place} {t : Token}
    (h : t ∈ ((Piece.first c cs).tokens place (c :: cs) (Piece.restOf c cs)).getLast?)
    (hkind : t.kind = .word) :
    t.span.endCol = place.col + (Piece.first c cs).size ∧ t.behind = Piece.restOf c cs := by
  cases hpiece : Piece.first c cs with
  | contraction stem s =>
    have hs : s.utf8Size = 1 := by
      rcases (Piece.contraction_of_first hpiece).2 with rfl | rfl <;> rfl
    have hquote : '\''.utf8Size = 1 := rfl
    rw [hpiece] at h
    cases h
    refine ⟨?_, rfl⟩
    simp [Span.endCol, Place.span, Place.advance, Piece.size, Piece.raw, hs, hquote, Nat.add_assoc]
  | blank d =>
    rw [hpiece] at h
    cases h
  | comment body =>
    rw [hpiece] at h
    cases h
  | openComment body =>
    rw [hpiece] at h
    cases h
    cases hkind
  | openString body =>
    rw [hpiece] at h
    cases h
    cases hkind
  | _ =>
    rw [hpiece] at h
    cases h
    exact ⟨rfl, rfl⟩

theorem isChain_piece (c : Char) (cs : List Char) (place : Place) :
    ((Piece.first c cs).tokens place (c :: cs) (Piece.restOf c cs)).IsChain Follows := by
  cases Piece.first c cs with
  | contraction stem s =>
    exact List.isChain_pair.mpr fun _ => comesNext_self rfl rfl
  | blank d => exact .nil
  | comment body => exact .nil
  | _ => exact .singleton _

/-- The tokens of a text come one behind the other. -/
theorem isChain_scanFrom (place : Place) (cs : List Char) :
    (scanFrom place cs).IsChain Follows ∧
      ∀ u ∈ (scanFrom place cs).head?, u.ComesNext place.col cs := by
  fun_induction scanFrom place cs with
  | case1 place => simp
  | case2 place c cs piece ih =>
    obtain ⟨hchain, hnext⟩ := ih
    have hwhole := Piece.raw_append_restOf c cs
    constructor
    · refine List.isChain_append.mpr ⟨isChain_piece c cs place, hchain, ?_⟩
      intro t ht u hu hkind
      obtain ⟨hend, hbehind⟩ := endCol_of_piece ht hkind
      rw [hend, hbehind]
      exact hnext u hu
    · intro u hu
      cases htokens : piece.tokens place (c :: cs) (Piece.restOf c cs) with
      | nil =>
        rw [htokens, List.nil_append] at hu
        rw [← hwhole]
        exact (hnext u hu).skip (isBlank_of_tokens_eq_nil htokens)
      | cons t ts =>
        rw [htokens] at hu
        cases hu
        exact comesNext_of_piece (by simp [piece, htokens])

/-- Words that follow each other on a line, with what stands between them. If there is no comment,
the words of the text are those of the line; up to the first comment there are words and blanks. -/
theorem exists_text {first : Token} {more : List Token}
    (hwritten : ∀ t ∈ first :: more, t.kind = .word ∧ t.Written)
    (hchain : (first :: more).IsChain Follows) :
    ∃ text, first.onward = text ++ (more.getLast?.getD first).behind ∧
      (more.getLast?.getD first).span.endCol = first.span.col + Text.byteSize text ∧
        ('(' ∉ text → Text.words text = (first :: more).map (·.lexeme.toList)) ∧
          ∀ c ∈ text.takeWhile (· ≠ '('), isWordChar c = true ∨ isBlank c = true := by
  obtain ⟨hkind, hfirst⟩ := hwritten first (by simp)
  have hchars : ∀ c ∈ first.lexeme.toList.takeWhile (· ≠ '('),
      isWordChar c = true ∨ isBlank c = true :=
    fun c hc => .inl (hfirst.word.isWordChar c ((List.takeWhile_sublist _).mem hc))
  induction more generalizing first with
  | nil =>
    refine ⟨first.lexeme.toList, hfirst.onward, ?_, fun _ => Text.words_of_isWord hfirst.word,
      hchars⟩
    show first.span.col + first.span.len = _
    rw [hfirst.len]
  | cons next more ih =>
    obtain ⟨hkind', hnext⟩ := hwritten next (by simp)
    rw [List.isChain_cons_cons] at hchain
    obtain ⟨gap, hgap, hcol, hblank⟩ := hchain.1 hkind
    obtain ⟨text, honward, hend, hwords, hfront⟩ :=
      ih (fun t ht => hwritten t (List.mem_cons_of_mem _ ht)) hchain.2 hkind' hnext
        fun c hc => .inl (hnext.word.isWordChar c ((List.takeWhile_sublist _).mem hc))
    rw [List.getLast?_cons, Option.getD_some]
    refine ⟨first.lexeme.toList ++ (gap ++ text), ?_, ?_, ?_, ?_⟩
    · rw [hfirst.onward, hgap, honward]
      simp
    · rw [hend, hcol, Span.endCol, hfirst.len, Text.byteSize_append, Text.byteSize_append]
      omega
    · intro hparen
      simp only [List.mem_append, not_or] at hparen
      -- two words do not touch: the first one would go on
      have hne : gap ≠ [] := by
        rintro rfl
        have hword := hnext.word
        rw [List.nil_append, hnext.onward] at hgap
        cases hlexeme : next.lexeme.toList with
        | nil =>
          rw [hlexeme] at hword
          exact hword
        | cons d ds =>
          rw [hlexeme] at hword hgap
          have hletter := hfirst.stops d _ hgap
          rw [hword.1] at hletter
          cases hletter
      rw [Piece.takeWhile_eq_self (by simpa using hparen.2.1)] at hblank
      rw [Text.words_append hfirst.word
        (fun c hc => Text.isSpace_of_isBlank (hblank c hc)) hne, hwords hparen.2.2]
      rfl
    · intro c hc
      rcases mem_of_mem_takeWhile_append hc with hc | hc
      · exact hchars c hc
      · rcases mem_of_mem_takeWhile_append hc with hc | hc
        · exact .inr (hblank c hc)
        · exact hfront c hc

end Token

end Rockstar
