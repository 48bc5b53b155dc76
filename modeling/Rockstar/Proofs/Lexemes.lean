import Rockstar.Proofs.Phrases

/-!
# Lines of spaced words

A sentence is a row of lexemes with one space between them, but for commas, which follow the word
before them directly. The scanner finds exactly these lexemes again (`scanFrom_spaced`), and the
words of `Phrase.print` are those of `Phrase.lexemes` (`Phrase.spaced_lexemes`).
-/

namespace Rockstar

/-- A stretch of a line that is one token. -/
inductive Lexeme where
  | word (word : String)
  | numeral (numeral : String)
  | quoted (body : String)
  | comma

namespace Lexeme

/-- The characters of the lexeme. -/
def chars : Lexeme → List Char
  | .word w => w.toList
  | .numeral n => n.toList
  | .quoted body => '"' :: (body.toList ++ ['"'])
  | .comma => [',']

/-- What stands between a lexeme and the one before it. -/
def gap : Lexeme → List Char
  | .comma => []
  | _ => [' ']

/-- The kind of its token. -/
def kind : Lexeme → TokenKind
  | .word _ => .word
  | .numeral _ => .number
  | .quoted _ => .string
  | .comma => .comma

/-- The text of its token. -/
def text : Lexeme → String
  | .word w => w
  | .numeral n => n
  | .quoted body => body
  | .comma => ","

/-- The token of the lexeme at a place, with the given text behind it. -/
def token (x : Lexeme) (place : Place) (behind : List Char) : Token where
  kind := x.kind
  lexeme := x.text
  span := place.span (Text.byteSize x.chars)
  offset := place.offset
  onward := x.chars ++ behind
  behind := behind

/-- The scanner takes the lexeme for one token. -/
def Valid : Lexeme → Prop
  | .word w => IsPlainWord w
  | .numeral n => IsNumeral n
  | .quoted body => '"' ∉ body.toList ∧ '\n' ∉ body.toList
  | .comma => True

end Lexeme

/-- The lexemes of the rest of a line, each with what stands before it. -/
def spaced (xs : List Lexeme) : List Char := xs.flatMap fun x => x.gap ++ x.chars

/-- The place behind a row of lexemes. -/
def Place.past (place : Place) (xs : List Lexeme) : Place :=
  place.advance (Text.byteSize (spaced xs))

/-- The tokens of the rest of a line. -/
def layOut (place : Place) : List Lexeme → List Token
  | [] => []
  | x :: xs =>
    x.token (place.advance (Text.byteSize x.gap)) (spaced xs) :: layOut (place.past [x]) xs

theorem Place.past_append (place : Place) (xs ys : List Lexeme) :
    place.past (xs ++ ys) = (place.past xs).past ys := by
  simp [past, spaced, advance_advance]

theorem Place.past_cons (place : Place) (x : Lexeme) (xs : List Lexeme) :
    place.past (x :: xs) = (place.past [x]).past xs :=
  place.past_append [x] xs

/-! ## Scanning -/

/-- The text can follow a lexeme: it is empty or begins with a space or comma. -/
def Ends (cs : List Char) : Prop := ∀ d ds, cs = d :: ds → d = ' ' ∨ d = ','

theorem ends_spaced (xs : List Lexeme) : Ends (spaced xs) := by
  intro d ds h
  cases xs with
  | nil => cases h
  | cons x xs =>
    rw [spaced, List.flatMap_cons] at h
    cases x with
    | comma => exact .inr (List.cons.inj h).1.symm
    | _ => exact .inl (List.cons.inj h).1.symm

theorem Ends.stops {cs : List Char} (h : Ends cs) {p : Char → Bool} (hspace : p ' ' = false)
    (hcomma : p ',' = false) : Piece.Stops p cs := by
  intro d ds hcons
  rcases h d ds hcons with rfl | rfl
  · exact hspace
  · exact hcomma

/-- A letter begins a word and nothing else. -/
theorem ne_of_isLetter {c : Char} (h : Text.isLetter c = true) :
    isBlank c = false ∧ isDigit c = false := by
  constructor
  · refine Bool.eq_false_iff.mpr fun hblank => ?_
    have hchar := Text.isWordChar_of_isSpace (Text.isSpace_of_isBlank hblank)
    simp [isWordChar, h] at hchar
  · refine Bool.eq_false_iff.mpr fun hdigit => ?_
    have hletters : ∀ n ∈ List.range' 48 10, Text.Run.covers Text.letterRuns n = false := by decide
    simp only [isDigit, Bool.and_eq_true, decide_eq_true_eq] at hdigit
    have hmem : c.toNat ∈ List.range' 48 10 := by
      have hlower : '0'.toNat ≤ c.toNat := hdigit.1
      have hupper : c.toNat ≤ '9'.toNat := hdigit.2
      rw [List.mem_range'_1]
      exact ⟨hlower, Nat.lt_succ_of_le hupper⟩
    rw [Text.isLetter, hletters _ hmem] at h
    cases h

namespace Piece

theorem ofWord_of_isPlainWord {word : String} (h : IsPlainWord word) :
    ofWord word.toList = .word word.toList := by
  unfold ofWord
  split
  next s a stem heq =>
    split
    next hs =>
      -- the word would end in an apostrophe and an s
      simp only [Bool.and_eq_true, Bool.or_eq_true, decide_eq_true_eq] at hs
      obtain ⟨⟨rfl, hs⟩, -⟩ := hs
      have hsuffix : ['\'', s] <:+ word.toList := by
        refine ⟨stem.reverse, ?_⟩
        rw [← List.reverse_reverse word.toList, heq]
        simp
      rcases hs with rfl | rfl
      · exact absurd hsuffix h.2.1
      · exact absurd hsuffix h.2.2
    next => rfl
  next => rfl

theorem first_word {word : String} (h : IsPlainWord word) {rest : List Char} (hrest : Ends rest) :
    ∃ c cs, word.toList ++ rest = c :: cs ∧ first c cs = .word word.toList := by
  obtain ⟨c, cs, hcons⟩ := List.exists_cons_of_ne_nil (l := word.toList) (by
    intro hnil
    exact absurd h.1 (by simp [hnil, IsWord]))
  have hword := h.1
  rw [hcons] at hword
  obtain ⟨hblank, hdigit⟩ := ne_of_isLetter hword.1
  obtain ⟨hparen, hquote⟩ := ne_of_isWordChar (hword.isWordChar c (by simp))
  have htake := (takeWhile_of_stops hword.isWordChar (hrest.stops (by decide) (by decide))).1
  refine ⟨c, cs ++ rest, by simp [hcons], ?_⟩
  unfold first
  rw [hblank, if_neg Bool.false_ne_true, if_neg hparen, if_neg hquote, hdigit,
    if_neg Bool.false_ne_true, if_pos hword.1, ← List.cons_append, htake, ← hcons,
    ofWord_of_isPlainWord h]

theorem first_numeral {numeral : String} (h : IsNumeral numeral) {rest : List Char}
    (hrest : Ends rest) :
    ∃ c cs, numeral.toList ++ rest = c :: cs ∧ first c cs = .number numeral.toList := by
  have hstops : Stops isDigit rest := hrest.stops (by decide) (by decide)
  -- the digits end where the numeral does: no point follows
  have hpoint : ∀ ds, rest = '.' :: ds → Stops isDigit ds := by
    rintro ds rfl
    rcases hrest '.' ds rfl with hd | hd <;> exact absurd hd (by decide)
  obtain ⟨whole, hne, hwhole, hnumeral⟩ := h
  have htake : takeNumber (numeral.toList ++ rest) = numeral.toList := by
    rcases hnumeral with hnumeral | ⟨fraction, hfraction, hdigits, hnumeral⟩
    · rw [hnumeral, takeNumber_whole hwhole hstops hpoint]
    · rw [hnumeral, List.append_assoc, List.cons_append,
        takeNumber_fraction hwhole hdigits hfraction hstops]
  obtain ⟨c, ds, rfl⟩ := List.exists_cons_of_ne_nil hne
  obtain ⟨cs, hcs⟩ : ∃ cs, numeral.toList = c :: cs := by
    rcases hnumeral with hnumeral | ⟨fraction, -, -, hnumeral⟩
    · exact ⟨ds, hnumeral⟩
    · exact ⟨_, hnumeral⟩
  have hdigit := hwhole c (by simp)
  have hblank : isBlank c = false := by
    refine Bool.eq_false_iff.mpr fun hblank => ?_
    simp only [isBlank, Bool.or_eq_true, decide_eq_true_eq] at hblank
    rcases hblank with (rfl | rfl) | rfl <;> exact absurd hdigit (by decide)
  have hparen : c ≠ '(' := by
    rintro rfl
    exact absurd hdigit (by decide)
  have hquote : c ≠ '"' := by
    rintro rfl
    exact absurd hdigit (by decide)
  refine ⟨c, cs ++ rest, by simp [hcs], ?_⟩
  unfold first
  rw [hblank, if_neg Bool.false_ne_true, if_neg hparen, if_neg hquote, if_pos hdigit,
    ← List.cons_append, ← hcs, htake]

/-- What the scanner makes of a lexeme. -/
theorem first_lexeme {x : Lexeme} (h : x.Valid) {rest : List Char} (hrest : Ends rest) :
    ∃ c cs, x.chars ++ rest = c :: cs ∧ (first c cs).raw = x.chars ∧
      ∀ place, (first c cs).tokens place (c :: cs) rest = [x.token place rest] := by
  cases x with
  | word w =>
    obtain ⟨c, cs, hcons, hfirst⟩ := first_word h hrest
    refine ⟨c, cs, hcons, by rw [hfirst]; rfl, fun place => ?_⟩
    rw [hfirst, ← hcons]
    simp [tokens, Lexeme.token, Lexeme.kind, Lexeme.text, Lexeme.chars, size, raw]
  | numeral n =>
    obtain ⟨c, cs, hcons, hfirst⟩ := first_numeral h hrest
    refine ⟨c, cs, hcons, by rw [hfirst]; rfl, fun place => ?_⟩
    rw [hfirst, ← hcons]
    simp [tokens, Lexeme.token, Lexeme.kind, Lexeme.text, Lexeme.chars, size, raw]
  | quoted body =>
    have hfirst := (first_string h.1 rest).1
    refine ⟨'"', body.toList ++ '"' :: rest, by simp [Lexeme.chars], by rw [hfirst]; rfl,
      fun place => ?_⟩
    rw [hfirst]
    simp [tokens, Lexeme.token, Lexeme.kind, Lexeme.text, Lexeme.chars, size, raw]
  | comma =>
    have hsingle := first_of_single (c := ',') (by decide) (by decide) (.inr (by decide)) rest
    refine ⟨',', rest, rfl, hsingle.2, fun place => ?_⟩
    rw [hsingle.1]
    rfl

end Piece

/-- A lexeme is scanned as its token, whatever follows. -/
theorem scanFrom_lexeme {x : Lexeme} (h : x.Valid) {rest : List Char} (hrest : Ends rest)
    (place : Place) :
    scanFrom place (x.chars ++ rest) =
      x.token place rest :: scanFrom (place.advance (Text.byteSize x.chars)) rest := by
  obtain ⟨c, cs, hcons, hraw, htokens⟩ := Piece.first_lexeme h hrest
  have hrestOf : Piece.restOf c cs = rest := by
    have hwhole := Piece.raw_append_restOf c cs
    rw [hraw, ← hcons] at hwhole
    exact List.append_cancel_left hwhole
  rw [hcons, scanFrom, hrestOf, htokens, Piece.size, hraw]
  rfl

/-- The tokens of a row of lexemes are those that were laid out. -/
theorem scanFrom_spaced {xs : List Lexeme} (h : ∀ x ∈ xs, x.Valid) (place : Place) :
    scanFrom place (spaced xs) = layOut place xs := by
  induction xs generalizing place with
  | nil => simp [spaced, scanFrom, layOut]
  | cons x xs ih =>
    have hgap : ∀ cs, scanFrom place (x.gap ++ cs) =
        scanFrom (place.advance (Text.byteSize x.gap)) cs := by
      intro cs
      cases x with
      | comma => rfl
      | _ => exact scanFrom_spaces place 1 cs
    have hspaced : spaced (x :: xs) = x.gap ++ (x.chars ++ spaced xs) := by
      simp [spaced]
    have hpast : (place.advance (Text.byteSize x.gap)).advance (Text.byteSize x.chars) =
        place.past [x] := by
      rw [Place.advance_advance, Place.past, spaced, List.flatMap_singleton, Text.byteSize_append]
    rw [hspaced, hgap, scanFrom_lexeme (h x (by simp)) (ends_spaced xs), hpast,
      ih fun y hy => h y (by simp [hy])]
    rfl

/-! ## Lexemes of phrases and sentences -/

/-- The words of the operator. -/
def BinaryOp.words : BinaryOp → List String
  | .logic .or => ["or"]
  | .logic .nor => ["nor"]
  | .logic .and => ["and"]
  | .equality true => ["is"]
  | .equality false => ["ain't"]
  | .compare .less => ["is", "less", "than"]
  | .compare .lessEqual => ["is", "as", "low", "as"]
  | .compare .greater => ["is", "greater", "than"]
  | .compare .greaterEqual => ["is", "as", "high", "as"]
  | .arith .add => ["plus"]
  | .arith .subtract => ["minus"]
  | .arith .multiply => ["times"]
  | .arith .divide => ["over"]

/-- The lexemes of the phrase, in their order. -/
def Phrase.lexemes : Phrase → List Lexeme
  | .number numeral => [.numeral numeral]
  | .text body => [.quoted body]
  | .constant word _ => [.word word]
  | .name words => words.map .word
  | .binary op l r => l.lexemes ++ (op.words.map .word ++ r.lexemes)
  | .negation p => .word negationText :: p.lexemes

namespace Phrase

/-- The lexemes of the operators and operands behind the first one. -/
def stepLexemes (steps : List (BinaryOp × Phrase)) : List Lexeme :=
  steps.flatMap fun step => step.1.words.map .word ++ step.2.lexemes

theorem lexemes_eq (p : Phrase) : p.lexemes = p.seed.lexemes ++ stepLexemes p.steps := by
  induction p with
  | binary op l r ihl ihr =>
    rw [lexemes, ihl, ihr]
    simp [seed, steps, stepLexemes]
  | _ => simp [seed, steps, stepLexemes]

end Phrase

/-- A word, and the same word again behind a comma, as often as given. -/
def repeated (word : String) : Nat → List Lexeme
  | 0 => [.word word]
  | more + 1 => .word word :: .comma :: repeated word more

namespace Sentence

/-- The first word of the sentence. -/
def verb : Sentence → String
  | .put _ _ => "Put"
  | .letBe _ _ => "Let"
  | .output verb _ => verb.print
  | .step direction _ _ => direction.verb

/-- The lexemes behind the first word. -/
def lexemes : Sentence → List Lexeme
  | .put value target => value.lexemes ++ .word "into" :: target.map .word
  | .letBe target value => target.map .word ++ .word "be" :: value.lexemes
  | .output _ value => value.lexemes
  | .step direction target count => target.map .word ++ repeated direction.word (count - 1)

end Sentence

theorem spaced_append (xs ys : List Lexeme) : spaced (xs ++ ys) = spaced xs ++ spaced ys := by
  simp [spaced]

theorem spaced_cons (x : Lexeme) (xs : List Lexeme) :
    spaced (x :: xs) = x.gap ++ (x.chars ++ spaced xs) := by
  simp [spaced]

theorem spaced_words {words : List String} (h : words ≠ []) :
    spaced (words.map .word) = ' ' :: (" ".intercalate words).toList := by
  induction words with
  | nil => exact absurd rfl h
  | cons word words ih =>
    cases words with
    | nil => simp [spaced, Lexeme.gap, Lexeme.chars]
    | cons word' words =>
      rw [List.map_cons, spaced_cons, ih (by simp), String.intercalate_cons_cons]
      simp [Lexeme.gap, Lexeme.chars]

theorem BinaryOp.spaced_words (op : BinaryOp) :
    spaced (op.words.map .word) = ' ' :: op.text.toList := by
  have hwords : op.words ≠ [] ∧ " ".intercalate op.words = op.text := by
    rcases op with (_ | _ | _) | (_ | _) | (_ | _ | _ | _) | (_ | _ | _ | _) <;> decide
  rw [Rockstar.spaced_words hwords.1, hwords.2]

theorem spaced_repeated (word : String) (more : Nat) :
    spaced (repeated word more) =
      ' ' :: (", ".intercalate (List.replicate (more + 1) word)).toList := by
  induction more with
  | zero => simp [repeated, spaced, Lexeme.gap, Lexeme.chars]
  | succ more ih =>
    rw [List.replicate_succ, List.replicate_succ, String.intercalate_cons_cons,
      ← List.replicate_succ, repeated, spaced_cons, spaced_cons, ih]
    simp [Lexeme.gap, Lexeme.chars]

variable {v : Vocabulary}

/-- The printed phrase is the row of its lexemes. -/
theorem Phrase.spaced_lexemes {p : Phrase} (h : p.WellFormed v) :
    spaced p.lexemes = ' ' :: p.print.toList := by
  induction p with
  | number numeral => simp [lexemes, spaced, Lexeme.gap, Lexeme.chars, print]
  | text body => simp [lexemes, spaced, Lexeme.gap, Lexeme.chars, print]
  | constant word value => simp [lexemes, spaced, Lexeme.gap, Lexeme.chars, print]
  | name words => exact spaced_words h.1.ne_nil
  | binary op l r ihl ihr =>
    rw [lexemes, spaced_append, spaced_append, ihl h.1, BinaryOp.spaced_words, ihr h.2.1]
    simp [print]
  | negation p ih =>
    rw [lexemes, spaced_cons, ih h.1]
    simp [print, Lexeme.gap, Lexeme.chars]

/-- The printed sentence is its first word and the row of its lexemes. -/
theorem Sentence.print_eq {s : Sentence} (h : s.WellFormed v) :
    s.print.toList = s.verb.toList ++ spaced s.lexemes := by
  cases s with
  | put value target =>
    rw [lexemes, spaced_append, spaced_cons, spaced_words h.2.1.ne_nil, value.spaced_lexemes h.1]
    simp [print, verb, Lexeme.gap, Lexeme.chars]
  | letBe target value =>
    rw [lexemes, spaced_append, spaced_cons, spaced_words h.1.1.ne_nil, value.spaced_lexemes h.2]
    simp [print, verb, Lexeme.gap, Lexeme.chars]
  | output verb value =>
    rw [lexemes, value.spaced_lexemes h]
    simp [print, Sentence.verb]
  | step direction target count =>
    rw [lexemes, spaced_append, spaced_words h.1.1.ne_nil, spaced_repeated,
      Nat.sub_add_cancel h.2]
    simp [print, verb]

/-! ## The lexemes can be scanned -/

/-- The words of constants, in lower case. -/
def constantWords : List String :=
  ["true", "right", "yes", "ok"] ++ (["false", "wrong", "no", "lies"] ++
    (["null", "nothing", "nowhere", "nobody", "gone"] ++ (["mysterious"] ++
      ["empty", "silent", "silence"])))

theorem Vocabulary.isSome_constant?_iff {word : String} :
    (constant? word).isSome = true ↔ foldCase word ∈ constantWords := by
  simp only [constant?, constantWords, List.contains_iff_mem, List.mem_append,
    List.mem_singleton (b := "mysterious")]
  split_ifs <;> simp only [Option.isSome_some, Option.isSome_none, Bool.false_eq_true, *,
    true_or, or_true, or_false]

theorem Vocabulary.mem_constantWords {word : String} {value : ConstantWord}
    (h : Vocabulary.constant? word = some value) : foldCase word ∈ constantWords :=
  isSome_constant?_iff.mp (Option.isSome_of_eq_some h)

/-- A character that is a letter from a to z in lower case. -/
theorem isLetter_of_toLower {c : Char} (h : 'a' ≤ c.toLower ∧ c.toLower ≤ 'z') :
    Text.isLetter c = true := by
  have hletters : ∀ n ∈ List.range' 65 26 ++ List.range' 97 26,
      Text.Run.covers Text.letterRuns n = true := by
    decide
  refine hletters c.toNat ?_
  rw [List.mem_append, List.mem_range'_1, List.mem_range'_1]
  unfold Char.toLower at h
  split at h
  next hupper =>
    have hlower : 65 ≤ c.toNat := hupper.1
    have hupper' : c.toNat ≤ 90 := hupper.2
    omega
  next =>
    have hlower : 97 ≤ c.toNat := h.1
    have hupper : c.toNat ≤ 122 := h.2
    omega

/-- Constants are spelled with letters only. -/
theorem isPlainWord_of_constant {word : String} {value : ConstantWord}
    (h : Vocabulary.constant? word = some value) : IsPlainWord word := by
  have hfold : ∀ w ∈ constantWords, w.toList ≠ [] ∧ w.toList.all (fun d => 'a' ≤ d ∧ d ≤ 'z') := by
    decide
  obtain ⟨hne, hchars⟩ := hfold _ (Vocabulary.mem_constantWords h)
  simp only [List.all_eq_true, decide_eq_true_eq] at hchars
  rw [foldCase, String.toList_ofList] at hne hchars
  have hletters : ∀ c ∈ word.toList, Text.isLetter c = true := fun c hc =>
    isLetter_of_toLower (hchars _ (List.mem_map_of_mem hc))
  have hquote : '\'' ∉ word.toList := by
    intro hmem
    exact absurd (hletters _ hmem) (by decide)
  refine ⟨?_, ?_, ?_⟩
  · cases hword : word.toList with
    | nil => simp [hword] at hne
    | cons c cs =>
      rw [hword] at hletters
      exact ⟨hletters c (by simp), fun d hd => by simp [isWordChar, hletters d (by simp [hd])]⟩
  · exact fun hsuffix => hquote (hsuffix.subset (by simp))
  · exact fun hsuffix => hquote (hsuffix.subset (by simp))

theorem valid_words {words : List String} (h : ∀ word ∈ words, IsPlainWord word) :
    ∀ x ∈ words.map Lexeme.word, x.Valid := by
  intro x hx
  obtain ⟨word, hword, rfl⟩ := List.mem_map.mp hx
  exact h word hword

/-- Every lexeme of a phrase is scanned as one token. -/
theorem Phrase.valid_lexemes {p : Phrase} (h : p.WellFormed v) : ∀ x ∈ p.lexemes, x.Valid := by
  induction p with
  | number numeral => exact List.forall_mem_singleton.mpr h
  | text body => exact List.forall_mem_singleton.mpr h
  | constant word value => exact List.forall_mem_singleton.mpr (isPlainWord_of_constant h)
  | name words => exact valid_words h.2
  | binary op l r ihl ihr =>
    have hop : ∀ word ∈ op.words, IsPlainWord word := by
      rcases op with (_ | _ | _) | (_ | _) | (_ | _ | _ | _) | (_ | _ | _ | _) <;> decide
    intro x hx
    simp only [lexemes, List.mem_append] at hx
    rcases hx with hl | hop' | hr
    · exact ihl h.1 x hl
    · exact valid_words hop x hop'
    · exact ihr h.2.1 x hr
  | negation p ih =>
    intro x hx
    rcases List.mem_cons.mp hx with rfl | hmem
    · show IsPlainWord negationText
      decide
    · exact ih h.1 x hmem

theorem valid_repeated {word : String} (h : IsPlainWord word) (more : Nat) :
    ∀ x ∈ repeated word more, x.Valid := by
  induction more with
  | zero => exact List.forall_mem_singleton.mpr h
  | succ more ih =>
    intro x hx
    simp only [repeated, List.mem_cons] at hx
    rcases hx with rfl | rfl | hmem
    · exact h
    · trivial
    · exact ih x hmem

theorem Sentence.valid_lexemes {s : Sentence} (h : s.WellFormed v) :
    (Lexeme.word s.verb).Valid ∧ ∀ x ∈ s.lexemes, x.Valid := by
  cases s with
  | put value target =>
    refine ⟨show IsPlainWord "Put" by decide, fun x hx => ?_⟩
    simp only [lexemes, List.mem_append, List.mem_cons] at hx
    rcases hx with hvalue | rfl | htarget
    · exact value.valid_lexemes h.1 x hvalue
    · show IsPlainWord "into"
      decide
    · exact valid_words h.2.2 x htarget
  | letBe target value =>
    refine ⟨show IsPlainWord "Let" by decide, fun x hx => ?_⟩
    simp only [lexemes, List.mem_append, List.mem_cons] at hx
    rcases hx with htarget | rfl | hvalue
    · exact valid_words h.1.2 x htarget
    · show IsPlainWord "be"
      decide
    · exact value.valid_lexemes h.2 x hvalue
  | output verb value =>
    refine ⟨show IsPlainWord verb.print by cases verb <;> decide, ?_⟩
    exact value.valid_lexemes h
  | step direction target count =>
    have hword : IsPlainWord direction.verb ∧ IsPlainWord direction.word := by
      cases direction <;> decide
    refine ⟨hword.1, fun x hx => ?_⟩
    rcases List.mem_append.mp hx with htarget | hrepeated
    · exact valid_words h.1.2 x htarget
    · exact valid_repeated hword.2 _ x hrepeated

/-! ## Tokens of lexemes -/

theorem Lexeme.isWord_token (w s : String) (place : Place) (behind : List Char) :
    ((Lexeme.word w).token place behind).isWord s = (foldCase w == s) := by
  rw [Bool.eq_iff_iff, beq_iff_eq]
  unfold Token.isWord
  rw [Bool.and_eq_true, decide_eq_true_iff, decide_eq_true_iff]
  exact ⟨fun h => h.2, fun h => ⟨rfl, h⟩⟩

theorem Lexeme.isWord_of_eq {w s : String} (h : foldCase w = s) (place : Place)
    (behind : List Char) : ((Lexeme.word w).token place behind).isWord s = true := by
  rw [isWord_token]
  exact beq_iff_eq.mpr h

theorem Lexeme.isWord_of_ne {w s : String} (h : foldCase w ≠ s) (place : Place)
    (behind : List Char) : ((Lexeme.word w).token place behind).isWord s = false := by
  rw [isWord_token]
  exact beq_eq_false_iff_ne.mpr h

theorem Lexeme.isCapitalised_token (w : String) (place : Place) (behind : List Char) :
    ((Lexeme.word w).token place behind).isCapitalised = isCapitalised w := by
  have hlexeme : ((Lexeme.word w).token place behind).lexeme = w := rfl
  rw [Token.isCapitalised, isCapitalised, hlexeme]
  cases w.toList <;> rfl

theorem layOut_cons (place : Place) (x : Lexeme) (xs : List Lexeme) :
    layOut place (x :: xs) =
      x.token (place.advance (Text.byteSize x.gap)) (spaced xs) :: layOut (place.past [x]) xs := rfl

theorem length_layOut (place : Place) (xs : List Lexeme) :
    (layOut place xs).length = xs.length := by
  induction xs generalizing place with
  | nil => rfl
  | cons x xs ih => rw [layOut_cons, List.length_cons, List.length_cons, ih]

theorem drop_layOut (place : Place) (xs ys : List Lexeme) :
    (layOut place (xs ++ ys)).drop xs.length = layOut (place.past xs) ys := by
  induction xs generalizing place with
  | nil => rfl
  | cons x xs ih =>
    rw [List.cons_append, layOut_cons, List.length_cons, List.drop_succ_cons, ih,
      ← Place.past_cons]

end Rockstar
