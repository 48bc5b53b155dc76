import Rockstar.Proofs.Lexemes

/-!
# The digits of a poetic number

A poetic number is read character by character. What it amounts to can be said without a machine:
cut out the comments (`cut`), divide the rest at the first period, and count the letters of the
words on either side (`digits`). The digits make up a decimal (`decimal`), and the number is what
that decimal reads as (`number?_of_words`), so a text whose words have as many letters as a numeral
has in its digits is as good as the numeral.
-/

namespace Rockstar.Poetic

/-! ## The decimal that a text spells -/

/-- The text with a space in place of each comment. A comment goes from a parenthesis to the next
closing one, or to the end. -/
def cut : List Char → List Char
  | [] => []
  | c :: cs => if c = '(' then ' ' :: cut ((cs.dropWhile (· ≠ ')')).drop 1) else c :: cut cs
termination_by cs => cs.length
decreasing_by
  all_goals
    have := (List.dropWhile_suffix (l := cs) (· ≠ ')')).length_le
    grind

/-- A character between words. -/
def isBreak (c : Char) : Bool := Text.isSpace c || c = '.'

/-- A character that counts. -/
def isCounted (c : Char) : Bool := Text.isLetter c || c = '-'

/-- The counts of words as digits; a word of nothing that counts is none. -/
def digitsOf (counts : List Nat) : List Nat := (counts.filter (· ≠ 0)).map (· % 10)

/-- The digits that the words of a text without comments stand for. -/
def digits (text : List Char) : List Nat :=
  digitsOf ((text.splitOnP isBreak).map (·.countP isCounted))

/-- The digits before the first period. -/
def wholeDigits (text : List Char) : List Nat := digits ((cut text).takeWhile (· ≠ '.'))

/-- The digits behind the first period. -/
def fractionDigits (text : List Char) : List Nat :=
  digits (((cut text).dropWhile (· ≠ '.')).drop 1)

/-- The decimal with the given digits before and behind the point. Without digits before it, a zero
stands there, and without digits behind it there is no point. -/
def decimal (whole fraction : List Nat) : List Char :=
  let front := if whole = [] then ['0'] else whole.map Nat.digitChar
  if fraction = [] then front else front ++ '.' :: fraction.map Nat.digitChar

/-- The digits of the text are those of the numeral. -/
def Spells (text : List Char) (numeral : String) : Prop :=
  (wholeDigits text).map Nat.digitChar = numeral.toList.takeWhile (· ≠ '.') ∧
    (fractionDigits text).map Nat.digitChar = (numeral.toList.dropWhile (· ≠ '.')).drop 1

instance (text : List Char) (numeral : String) : Decidable (Spells text numeral) :=
  inferInstanceAs (Decidable (_ ∧ _))

/-! ## Cutting out comments -/

theorem paren_notMem_cut (text : List Char) : '(' ∉ cut text := by
  fun_induction cut text with
  | case1 => exact List.not_mem_nil
  | case2 cs ih => simpa using ih
  | case3 c cs hc ih => simpa [Ne.symm hc] using ih

namespace Count

/-- Whether a count is inside a comment makes no difference at the end. -/
theorem number?_endWord_inComment (n : Count) (b : Bool) :
    ({ n with inComment := b } : Count).endWord.number? = n.endWord.number? := by
  unfold endWord
  dsimp only
  split
  · rfl
  · split <;> rfl

theorem foldl_cut (text : List Char) {n : Count} (hn : n.inComment = false) :
    ((cut text).foldl push n).endWord.number? = (text.foldl push n).endWord.number? := by
  fun_induction cut text generalizing n with
  | case1 => rfl
  | case2 cs ih =>
    have hspace : n.push ' ' = n.endWord := by
      rw [push_space (by decide), hn, if_neg Bool.false_ne_true]
    rw [List.foldl_cons, hspace, ih (n.inComment_endWord.trans hn), List.foldl_cons]
    by_cases hclosed : cs.contains ')' = true
    · obtain ⟨rest, hrest⟩ := Piece.exists_dropWhile_ne_of_contains cs hclosed
      have hbody : ')' ∉ cs.takeWhile (· ≠ ')') := by
        intro hmem
        simpa using List.mem_takeWhile_imp hmem
      have hcs := List.takeWhile_append_dropWhile (p := fun x => decide (x ≠ ')')) (l := cs)
      rw [hrest] at hcs ⊢
      rw [List.drop_one, List.tail_cons, ← hcs, List.foldl_append, List.foldl_cons,
        push_comment hn hbody]
    · -- the comment goes on to the end
      have hopen : n.push '(' = { n.endWord with inComment := true } := by
        rw [push, hn, if_neg Bool.false_ne_true, if_pos rfl]
      have hnone : cs.dropWhile (· ≠ ')') = [] := by
        rw [List.dropWhile_eq_nil_iff]
        intro c hc
        simp only [List.contains_iff_mem] at hclosed
        simpa using fun heq : c = ')' => hclosed (heq ▸ hc)
      have hinside : (n.push '(').inComment = true := by rw [hopen]
      rw [hnone, foldl_inside hinside (by simpa using hclosed), hopen]
      exact (number?_endWord_inComment n.endWord true).symm
  | case3 c cs hc ih => exact ih (inComment_push hn hc)

end Count

/-- A poetic number does not change when its comments are cut out. -/
theorem number?_cut (text : List Char) : number? (cut text) = number? text :=
  Count.foldl_cut text rfl

/-! ## Counting the letters of words -/

/-- The digits of a text whose first word goes on from one with letters already counted. -/
def digitsAfter (letters : Nat) (text : List Char) : List Nat :=
  digitsOf (((text.splitOnP isBreak).map (·.countP isCounted)).modifyHead (letters + ·))

theorem digitsAfter_zero (text : List Char) : digitsAfter 0 text = digits text := by
  unfold digitsAfter digits
  cases (text.splitOnP isBreak).map (·.countP isCounted) <;> simp

/-- The digit of one word, if it is one. -/
def wordDigit (letters : Nat) : List Nat := if letters = 0 then [] else [letters % 10]

@[simp] theorem reverse_wordDigit (letters : Nat) :
    (wordDigit letters).reverse = wordDigit letters := by
  unfold wordDigit
  split <;> rfl

theorem digitsOf_cons (letters : Nat) (counts : List Nat) :
    digitsOf (letters :: counts) = wordDigit letters ++ digitsOf counts := by
  unfold digitsOf wordDigit
  by_cases h : letters = 0 <;> simp [h]

theorem digitsAfter_nil (letters : Nat) : digitsAfter letters [] = wordDigit letters := by
  show digitsOf [letters] = _
  rw [digitsOf_cons]
  exact List.append_nil _

theorem digitsAfter_break (letters : Nat) {c : Char} (h : isBreak c = true) (cs : List Char) :
    digitsAfter letters (c :: cs) = wordDigit letters ++ digits cs := by
  unfold digitsAfter
  rw [List.splitOnP_cons_eq_if_modifyHead, if_pos h]
  exact digitsOf_cons letters _

theorem digitsAfter_cons (letters : Nat) {c : Char} (h : isBreak c = false) (cs : List Char) :
    digitsAfter letters (c :: cs) =
      digitsAfter (if isCounted c then letters + 1 else letters) cs := by
  unfold digitsAfter
  rw [List.splitOnP_cons_eq_if_modifyHead, h, if_neg Bool.false_ne_true]
  obtain ⟨w, ws, hsplit⟩ := List.exists_cons_of_ne_nil (List.splitOnP_ne_nil isBreak cs)
  rw [hsplit]
  by_cases hc : isCounted c = true
  · simp [hc, Nat.add_assoc, Nat.add_comm 1]
  · simp [hc]

namespace Count

variable {n : Count}

/-- Ending a word adds its digit to the side that is being read. -/
theorem endWord_eq (n : Count) :
    n.endWord =
      { n with
        whole := if n.inFraction then n.whole else wordDigit n.letters ++ n.whole
        fraction := if n.inFraction then wordDigit n.letters ++ n.fraction else n.fraction
        letters := 0 } := by
  obtain ⟨whole, fraction, letters, inFraction, inComment⟩ := n
  unfold endWord wordDigit
  by_cases h : letters = 0 <;> cases inFraction <;> simp [h]

theorem push_break (hn : n.inComment = false) {c : Char} (h : isBreak c = true) :
    n.push c = { n.endWord with inFraction := c = '.' || n.inFraction } := by
  have hparen : c ≠ '(' := by
    rintro rfl
    exact absurd h (by decide)
  have hfraction : n.endWord.inFraction = n.inFraction := by rw [endWord_eq]
  rw [push, hn, if_neg Bool.false_ne_true, if_neg hparen]
  by_cases hpoint : c = '.'
  · simp [hpoint]
  · have hspace : Text.isSpace c = true := by simpa [isBreak, hpoint] using h
    rw [if_neg hpoint, if_pos hspace, ← hfraction]
    simp [hpoint]

theorem push_other (hn : n.inComment = false) {c : Char} (h : isBreak c = false)
    (hparen : c ≠ '(') :
    n.push c = { n with letters := if isCounted c then n.letters + 1 else n.letters } := by
  simp only [isBreak, Bool.or_eq_false_iff, decide_eq_false_iff_not] at h
  rw [push, hn, if_neg Bool.false_ne_true, if_neg hparen, if_neg h.2, h.1,
    if_neg Bool.false_ne_true]
  by_cases hc : isCounted c = true
  · have hc' : (Text.isLetter c || decide (c = '-')) = true := hc
    rw [if_pos hc', if_pos hc]
  · have hc' : ¬(Text.isLetter c || decide (c = '-')) = true := hc
    rw [if_neg hc', if_neg hc, ← hn]

/-- Behind the period all digits go to the fraction. -/
theorem foldl_fraction {text : List Char} (hparen : '(' ∉ text) (hn : n.inComment = false)
    (hfraction : n.inFraction = true) :
    (text.foldl push n).endWord.whole = n.whole ∧
      (text.foldl push n).endWord.fraction =
        (digitsAfter n.letters text).reverse ++ n.fraction := by
  induction text generalizing n with
  | nil =>
    rw [List.foldl_nil, endWord_eq, digitsAfter_nil, hfraction]
    simp
  | cons c cs ih =>
    simp only [List.mem_cons, not_or] at hparen
    rw [List.foldl_cons]
    cases hbreak : isBreak c with
    | true =>
      rw [digitsAfter_break _ hbreak, ← digitsAfter_zero, push_break hn hbreak]
      obtain ⟨hwhole, hdigits⟩ := ih hparen.2 (n := { n.endWord with
        inFraction := c = '.' || n.inFraction }) (n.inComment_endWord.trans hn)
        (by simp [hfraction])
      rw [hwhole, hdigits, endWord_eq, hfraction]
      simp
    | false =>
      rw [digitsAfter_cons _ hbreak, push_other hn hbreak (Ne.symm hparen.1)]
      exact ih hparen.2 hn hfraction

/-- Up to the period all digits go to the whole part, and then to the fraction. -/
theorem foldl_digits {text : List Char} (hparen : '(' ∉ text) (hn : n.inComment = false)
    (hfraction : n.inFraction = false) :
    (text.foldl push n).endWord.whole =
        (digitsAfter n.letters (text.takeWhile (· ≠ '.'))).reverse ++ n.whole ∧
      (text.foldl push n).endWord.fraction =
        (digits ((text.dropWhile (· ≠ '.')).drop 1)).reverse ++ n.fraction := by
  induction text generalizing n with
  | nil =>
    have hnone : digits [] = [] := by rw [← digitsAfter_zero, digitsAfter_nil]; rfl
    rw [List.foldl_nil, List.takeWhile_nil, List.dropWhile_nil, List.drop_nil, hnone, endWord_eq,
      digitsAfter_nil, hfraction]
    simp
  | cons c cs ih =>
    simp only [List.mem_cons, not_or] at hparen
    rw [List.foldl_cons]
    by_cases hpoint : c = '.'
    · -- the period ends the word before it, and with it the whole part
      subst hpoint
      rw [List.takeWhile_cons_of_neg (by simp), List.dropWhile_cons_of_neg (by simp),
        List.drop_one, List.tail_cons, push_break hn (by decide), digitsAfter_nil,
        ← digitsAfter_zero]
      obtain ⟨hwhole, hdigits⟩ := foldl_fraction (n := { n.endWord with
        inFraction := '.' = '.' || n.inFraction }) hparen.2 (n.inComment_endWord.trans hn) rfl
      rw [hwhole, hdigits, endWord_eq, hfraction]
      simp
    · rw [List.takeWhile_cons_of_pos (by simpa using hpoint),
        List.dropWhile_cons_of_pos (by simpa using hpoint)]
      cases hbreak : isBreak c with
      | true =>
        rw [digitsAfter_break _ hbreak, ← digitsAfter_zero, push_break hn hbreak]
        obtain ⟨hwhole, hdigits⟩ := ih hparen.2 (n := { n.endWord with
          inFraction := c = '.' || n.inFraction }) (n.inComment_endWord.trans hn)
          (by simp [hpoint, hfraction])
        rw [hwhole, hdigits, endWord_eq, hfraction]
        simp
      | false =>
        rw [digitsAfter_cons _ hbreak, push_other hn hbreak (Ne.symm hparen.1)]
        exact ih hparen.2 hn hfraction

end Count

/-- The digits that are read are those of the words. -/
theorem number?_eq_read (text : List Char) :
    number? text =
      if wholeDigits text = [] ∧ fractionDigits text = [] then none
      else some (Decimal.read (wholeDigits text) (fractionDigits text)) := by
  obtain ⟨hwhole, hfraction⟩ :=
    Count.foldl_digits (n := .start) (paren_notMem_cut text) rfl rfl
  have hletters : Count.start.letters = 0 := rfl
  have hempty : Count.start.whole = [] ∧ Count.start.fraction = [] := ⟨rfl, rfl⟩
  rw [hletters, digitsAfter_zero, hempty.1, List.append_nil] at hwhole
  rw [hempty.2, List.append_nil] at hfraction
  rw [← number?_cut, number?, Count.number?, hwhole, hfraction, List.reverse_reverse,
    List.reverse_reverse]
  simp [wholeDigits, fractionDigits]

/-! ## Decimals -/

theorem lt_ten_of_mem_digits {text : List Char} {d : Nat} (h : d ∈ digits text) : d < 10 := by
  obtain ⟨k, -, rfl⟩ := List.mem_map.mp h
  exact Nat.mod_lt k (by decide)

theorem digitChar_of_lt_ten {d : Nat} (h : d < 10) :
    Decimal.digitValue d.digitChar = d ∧ d.digitChar ≠ '.' := by
  have hall : ∀ d < 10, Decimal.digitValue d.digitChar = d ∧ d.digitChar ≠ '.' := by decide
  exact hall d h

theorem map_digitValue {ds : List Nat} (h : ∀ d ∈ ds, d < 10) :
    (ds.map Nat.digitChar).map Decimal.digitValue = ds := by
  rw [List.map_map]
  exact (List.map_congr_left fun d hd => (digitChar_of_lt_ten (h d hd)).1).trans (List.map_id ds)

theorem point_notMem {ds : List Nat} (h : ∀ d ∈ ds, d < 10) : '.' ∉ ds.map Nat.digitChar := by
  intro hmem
  obtain ⟨d, hd, hpoint⟩ := List.mem_map.mp hmem
  exact (digitChar_of_lt_ten (h d hd)).2 hpoint

theorem readText_of_point_notMem {front : List Char} (h : '.' ∉ front) (fraction : List Char) :
    Decimal.readText front = Decimal.read (front.map Decimal.digitValue) [] ∧
      Decimal.readText (front ++ '.' :: fraction) =
        Decimal.read (front.map Decimal.digitValue) (fraction.map Decimal.digitValue) := by
  have hall : ∀ c ∈ front, decide (c ≠ '.') = true := by
    intro c hc
    simpa using fun heq : c = '.' => h (heq ▸ hc)
  unfold Decimal.readText
  constructor
  · rw [List.takeWhile_eq_self_iff.mpr hall, List.dropWhile_eq_nil_iff.mpr hall]
    rfl
  · rw [List.takeWhile_append_of_pos hall, List.dropWhile_append_of_pos hall,
      List.takeWhile_cons_of_neg (by simp), List.dropWhile_cons_of_neg (by simp),
      List.append_nil]
    rfl

/-- The decimal with the given digits reads as the number with these digits. -/
theorem readText_decimal {whole fraction : List Nat} (hwhole : ∀ d ∈ whole, d < 10)
    (hfraction : ∀ d ∈ fraction, d < 10) :
    Decimal.readText (decimal whole fraction) = Decimal.read whole fraction := by
  -- a zero in front changes nothing
  have hzero : Decimal.read [0] fraction = Decimal.read [] fraction := by
    simp [Decimal.read, Decimal.ofDigits]
  have hfront : ∃ front, (if whole = [] then ['0'] else whole.map Nat.digitChar) = front ∧
      '.' ∉ front ∧ Decimal.read (front.map Decimal.digitValue) fraction =
        Decimal.read whole fraction := by
    by_cases hnil : whole = []
    · subst hnil
      exact ⟨['0'], if_pos rfl, by decide, hzero⟩
    · exact ⟨_, if_neg hnil, point_notMem hwhole, by rw [map_digitValue hwhole]⟩
  obtain ⟨front, heq, hpoint, hread⟩ := hfront
  obtain ⟨hplain, hpointed⟩ := readText_of_point_notMem hpoint (fraction.map Nat.digitChar)
  unfold decimal
  rw [heq, ← hread]
  dsimp only
  split
  next hnil =>
    subst hnil
    exact hplain
  next => rw [hpointed, map_digitValue hfraction]

/-- The decimal of a text that has the digits of a numeral is the numeral. -/
theorem decimal_of_spells {text : List Char} {numeral : String} (hnumeral : IsNumeral numeral)
    (h : Spells text numeral) :
    wholeDigits text ≠ [] ∧
      decimal (wholeDigits text) (fractionDigits text) = numeral.toList := by
  obtain ⟨front, hne, hdigits, hcases⟩ := hnumeral
  obtain ⟨hwhole, hfraction⟩ := h
  have hall : ∀ c ∈ front, decide (c ≠ '.') = true := by
    intro c hc
    have hdigit := hdigits c hc
    simp only [decide_eq_true_eq]
    rintro rfl
    exact absurd hdigit (by decide)
  rcases hcases with hcs | ⟨back, hback, -, hcs⟩
  · rw [hcs, List.takeWhile_eq_self_iff.mpr hall] at hwhole
    rw [hcs, List.dropWhile_eq_nil_iff.mpr hall, List.drop_nil, List.map_eq_nil_iff] at hfraction
    have hnonempty : wholeDigits text ≠ [] := fun hnil => hne (by rw [← hwhole, hnil]; rfl)
    refine ⟨hnonempty, ?_⟩
    unfold decimal
    rw [if_neg hnonempty, if_pos hfraction, hwhole, hcs]
  · rw [hcs, List.takeWhile_append_of_pos hall, List.takeWhile_cons_of_neg (by simp),
      List.append_nil] at hwhole
    rw [hcs, List.dropWhile_append_of_pos hall, List.dropWhile_cons_of_neg (by simp),
      List.drop_one, List.tail_cons] at hfraction
    have hnonempty : wholeDigits text ≠ [] := fun hnil => hne (by rw [← hwhole, hnil]; rfl)
    have hnonempty' : fractionDigits text ≠ [] := fun hnil =>
      hback (by rw [← hfraction, hnil]; rfl)
    refine ⟨hnonempty, ?_⟩
    unfold decimal
    rw [if_neg hnonempty, if_neg hnonempty', hwhole, hfraction, hcs]

/-- A poetic number is the decimal that its words spell. With the comments cut out, the letters and
hyphens of each word between white space and periods are counted, words without any are left out,
and the counts modulo ten are the digits, those up to the first period before the point and the
others behind it. There is no number exactly where there is no digit. So a text with the digits of a
numeral gives the number that is read from the numeral itself. -/
theorem number?_of_words (text : List Char) :
    (number? text =
      if wholeDigits text = [] ∧ fractionDigits text = [] then none
      else some (Decimal.readText (decimal (wholeDigits text) (fractionDigits text)))) ∧
    ∀ numeral, IsNumeral numeral → Spells text numeral → ∀ place,
      (scanFrom place numeral.toList).map Token.literal? = [(number? text).map .number] := by
  have hread : Decimal.readText (decimal (wholeDigits text) (fractionDigits text)) =
      Decimal.read (wholeDigits text) (fractionDigits text) :=
    readText_decimal (fun _ => lt_ten_of_mem_digits) fun _ => lt_ten_of_mem_digits
  have hnumber := number?_eq_read text
  rw [← hread] at hnumber
  refine ⟨hnumber, fun numeral hnumeral hspells place => ?_⟩
  obtain ⟨hne, hdecimal⟩ := decimal_of_spells hnumeral hspells
  have hends : Ends [] := by
    rintro d ds ⟨⟩
  have hscan := scanFrom_lexeme (x := .numeral numeral) hnumeral hends place
  rw [List.append_nil] at hscan
  rw [hnumber, if_neg fun h => hne h.1, hdecimal,
    show numeral.toList = (Lexeme.numeral numeral).chars from rfl, hscan, scanFrom]
  rfl

/-- Three letters, and behind the period one, four and eleven; the comment and what stands in it do
not count. -/
theorem number?_of_words_ice :
    IsNumeral "3.141" ∧ Spells "ice. A (well. long) life, unfulfilled!".toList "3.141" ∧
      (scanFrom ⟨1, 6, 5⟩ "3.141".toList).map Token.literal? =
        [(number? "ice. A (well. long) life, unfulfilled!".toList).map .number] := by
  have hnumeral : IsNumeral "3.141" :=
    ⟨['3'], by decide, List.all_eq_true.mp (by decide),
      .inr ⟨['1', '4', '1'], by decide, List.all_eq_true.mp (by decide), by decide⟩⟩
  have hspells : Spells "ice. A (well. long) life, unfulfilled!".toList "3.141" := by
    decide +kernel
  exact ⟨hnumeral, hspells, (number?_of_words _).2 _ hnumeral hspells _⟩

end Rockstar.Poetic
