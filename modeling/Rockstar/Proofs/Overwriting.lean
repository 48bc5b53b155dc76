import Mathlib.Data.List.TakeWhile
import Rockstar.Proofs.SourceOrder

/-!
# Overwriting comments

`overwrite` puts spaces in the place of the closed comments of a text, one for each byte. This
moves nothing: the text keeps its size (`Overwrites.byteSize_eq`), and the scanner finds the same
tokens at the same places (`scanFrom_overwrite`). What differs is the text of the line that a token
carries along, from which references and poetic values are cut.
-/

namespace Rockstar

/-- The text with its closed comments overwritten by spaces. A string is passed over, an
unterminated string or comment takes the rest of the text, and the last `keep` characters stay as
they are. -/
def overwrite (keep : Nat) : List Char → List Char
  | [] => []
  | c :: cs =>
    if cs.length < keep then c :: cs
    else if c = '(' then
      let body := cs.takeWhile (· ≠ ')')
      if cs.contains ')' then
        List.replicate (Text.byteSize body + 2) ' ' ++ overwrite keep (cs.drop (body.length + 1))
      else c :: cs
    else if c = '"' then
      let body := cs.takeWhile (· ≠ '"')
      if cs.contains '"' then
        '"' :: (body ++ '"' :: overwrite keep (cs.drop (body.length + 1)))
      else c :: cs
    else c :: overwrite keep cs
termination_by cs => cs.length
decreasing_by all_goals simp only [List.length_cons, List.length_drop]; omega

/-! ## Step by step -/

section Step

variable {keep : Nat} {c q : Char} {cs body rest : List Char}

theorem overwrite_of_length_le (h : cs.length ≤ keep) : overwrite keep cs = cs := by
  cases cs with
  | nil => rw [overwrite]
  | cons c cs =>
    rw [overwrite, if_pos]
    exact h

/-- A text with a delimiter, cut at the first one. -/
theorem exists_append_of_contains (h : cs.contains q = true) :
    ∃ body rest, q ∉ body ∧ cs = body ++ q :: rest := by
  obtain ⟨rest, hrest⟩ := Piece.delimited_append h
  refine ⟨cs.takeWhile (· ≠ q), rest, ?_, by simpa using hrest.symm⟩
  intro hmem
  simpa using List.mem_takeWhile_imp hmem

theorem takeWhile_delimited (hbody : q ∉ body) :
    (body ++ q :: rest).takeWhile (· ≠ q) = body := by
  rw [List.takeWhile_append_of_pos]
  · simp
  · intro d hd
    exact decide_eq_true fun heq => hbody (heq ▸ hd)

theorem overwrite_comment (hbody : ')' ∉ body) (hkeep : keep ≤ (body ++ ')' :: rest).length) :
    overwrite keep ('(' :: (body ++ ')' :: rest)) =
      List.replicate (Text.byteSize body + 2) ' ' ++ overwrite keep rest := by
  rw [overwrite, if_neg (Nat.not_lt.mpr hkeep), if_pos rfl, takeWhile_delimited hbody]
  simp

theorem overwrite_string (hbody : '"' ∉ body) :
    overwrite keep ('"' :: (body ++ '"' :: rest)) = '"' :: (body ++ '"' :: overwrite keep rest) := by
  by_cases hkeep : (body ++ '"' :: rest).length < keep
  · have hrest : rest.length ≤ keep := by
      simp only [List.length_append, List.length_cons] at hkeep
      omega
    rw [overwrite, if_pos hkeep, overwrite_of_length_le hrest]
  · rw [overwrite, if_neg hkeep, if_neg (by decide), if_pos rfl, takeWhile_delimited hbody]
    simp

theorem overwrite_openComment (h : ')' ∉ cs) : overwrite keep ('(' :: cs) = '(' :: cs := by
  rw [overwrite]
  simp [h]

theorem overwrite_openString (h : '"' ∉ cs) : overwrite keep ('"' :: cs) = '"' :: cs := by
  rw [overwrite]
  simp [h]

theorem overwrite_cons_of_ne (hparen : c ≠ '(') (hquote : c ≠ '"') :
    overwrite keep (c :: cs) = c :: overwrite keep cs := by
  by_cases hkeep : cs.length < keep
  · rw [overwrite, if_pos hkeep, overwrite_of_length_le (Nat.le_of_lt hkeep)]
  · rw [overwrite, if_neg hkeep, if_neg hparen, if_neg hquote]

theorem overwrite_append_of_ne (front : List Char) (h : ∀ d ∈ front, d ≠ '(' ∧ d ≠ '"') :
    overwrite keep (front ++ cs) = front ++ overwrite keep cs := by
  induction front with
  | nil => rfl
  | cons d front ih =>
    obtain ⟨hparen, hquote⟩ := h d (by simp)
    rw [List.cons_append, overwrite_cons_of_ne hparen hquote, ih fun e he => h e (by simp [he]),
      List.cons_append]

end Step

/-- The steps by which comments are overwritten: what `overwrite` does, without saying when it
stops. -/
inductive Overwrites : List Char → List Char → Prop where
  | done (cs : List Char) : Overwrites cs cs
  | comment {body cs cs' : List Char} : ')' ∉ body → Overwrites cs cs' →
      Overwrites ('(' :: (body ++ ')' :: cs)) (List.replicate (Text.byteSize body + 2) ' ' ++ cs')
  | string {body cs cs' : List Char} : '"' ∉ body → Overwrites cs cs' →
      Overwrites ('"' :: (body ++ '"' :: cs)) ('"' :: (body ++ '"' :: cs'))
  | other {c : Char} {cs cs' : List Char} : c ≠ '(' → c ≠ '"' → Overwrites cs cs' →
      Overwrites (c :: cs) (c :: cs')

/-- Induction over a text by its comments and strings. -/
@[elab_as_elim]
theorem comment_induction {motive : List Char → Prop} (nil : motive [])
    (comment : ∀ body rest, ')' ∉ body → motive rest → motive ('(' :: (body ++ ')' :: rest)))
    (openComment : ∀ cs, ')' ∉ cs → motive ('(' :: cs))
    (string : ∀ body rest, '"' ∉ body → motive rest → motive ('"' :: (body ++ '"' :: rest)))
    (openString : ∀ cs, '"' ∉ cs → motive ('"' :: cs))
    (other : ∀ c cs, c ≠ '(' → c ≠ '"' → motive cs → motive (c :: cs)) (cs : List Char) :
    motive cs := by
  induction hn : cs.length using Nat.strongRecOn generalizing cs with
  | ind n ih =>
    subst hn
    cases cs with
    | nil => exact nil
    | cons c cs =>
      -- what follows a delimited stretch is shorter than the text
      have hshorter : ∀ (q : Char) (body rest : List Char), cs = body ++ q :: rest →
          rest.length < (c :: cs).length := by
        rintro q body rest rfl
        simp only [List.length_cons, List.length_append]
        omega
      by_cases hparen : c = '('
      · subst hparen
        by_cases hclosed : cs.contains ')' = true
        · obtain ⟨body, rest, hbody, hcs⟩ := exists_append_of_contains hclosed
          have hrest := ih _ (hshorter _ _ _ hcs) rest rfl
          subst hcs
          exact comment body rest hbody hrest
        · exact openComment cs (by simpa using hclosed)
      · by_cases hquote : c = '"'
        · subst hquote
          by_cases hclosed : cs.contains '"' = true
          · obtain ⟨body, rest, hbody, hcs⟩ := exists_append_of_contains hclosed
            have hrest := ih _ (hshorter _ _ _ hcs) rest rfl
            subst hcs
            exact string body rest hbody hrest
          · exact openString cs (by simpa using hclosed)
        · exact other c cs hparen hquote (ih _ (Nat.lt_succ_self _) cs rfl)

theorem overwrites_overwrite (keep : Nat) (cs : List Char) :
    Overwrites cs (overwrite keep cs) := by
  induction cs using comment_induction with
  | nil =>
    rw [overwrite]
    exact .done []
  | comment body rest hbody ih =>
    by_cases hkeep : keep ≤ (body ++ ')' :: rest).length
    · rw [overwrite_comment hbody hkeep]
      exact .comment hbody ih
    · have hshort : ('(' :: (body ++ ')' :: rest)).length ≤ keep := Nat.lt_of_not_le hkeep
      rw [overwrite_of_length_le hshort]
      exact .done _
  | openComment cs hopen =>
    rw [overwrite_openComment hopen]
    exact .done _
  | string body rest hbody ih =>
    rw [overwrite_string hbody]
    exact .string hbody ih
  | openString cs hopen =>
    rw [overwrite_openString hopen]
    exact .done _
  | other c cs hparen hquote ih =>
    rw [overwrite_cons_of_ne hparen hquote]
    exact .other hparen hquote ih

/-! ## What is kept of the text -/

theorem Text.byteSize_replicate_space (n : Nat) : byteSize (List.replicate n ' ') = n := by
  induction n with
  | zero => rfl
  | succ n ih =>
    have hspace : ' '.utf8Size = 1 := by decide
    rw [List.replicate_succ, byteSize_cons, ih, hspace]
    omega

theorem Overwrites.byteSize_eq {cs cs' : List Char} (h : Overwrites cs cs') :
    Text.byteSize cs' = Text.byteSize cs := by
  have hparens : '('.utf8Size = 1 ∧ ')'.utf8Size = 1 := by decide
  induction h with
  | done cs => rfl
  | comment _ _ ih =>
    simp only [Text.byteSize_append, Text.byteSize_cons, Text.byteSize_replicate_space, ih, hparens]
    omega
  | string _ _ ih => simp only [Text.byteSize_append, Text.byteSize_cons, ih]
  | other _ _ _ ih => simp only [Text.byteSize_cons, ih]

/-- Overwriting breaks no line. -/
theorem Overwrites.newline_not_mem {cs cs' : List Char} (h : Overwrites cs cs')
    (hline : '\n' ∉ cs) : '\n' ∉ cs' := by
  induction h with
  | done cs => exact hline
  | comment _ _ ih =>
    have hrest := ih (by simp_all)
    simp_all
  | string _ _ ih =>
    have hrest := ih (by simp_all)
    simp_all
  | other _ _ _ ih =>
    have hrest := ih (by simp_all)
    simp_all

theorem Text.takeBytes_zero (cs : List Char) : takeBytes 0 cs = [] := by
  simpa using takeBytes_byteSize_append [] cs

/-- Two texts of which every beginning without a parenthesis is the same. -/
def SameBeginnings (cs cs' : List Char) : Prop :=
  ∀ n, '(' ∉ Text.takeBytes n cs → Text.takeBytes n cs' = Text.takeBytes n cs

theorem SameBeginnings.cons {cs cs' : List Char} (h : SameBeginnings cs cs') (c : Char) :
    SameBeginnings (c :: cs) (c :: cs') := by
  intro n hn
  rw [Text.takeBytes] at hn ⊢
  split at hn
  next hsize =>
    rw [Text.takeBytes, if_pos hsize, if_pos hsize, h _ fun hmem => hn (List.mem_cons_of_mem _ hmem)]
  next hsize => rw [Text.takeBytes, if_neg hsize, if_neg hsize]

theorem SameBeginnings.append {cs cs' : List Char} (h : SameBeginnings cs cs')
    (front : List Char) : SameBeginnings (front ++ cs) (front ++ cs') := by
  induction front with
  | nil => exact h
  | cons c front ih => exact ih.cons c

/-- A stretch without a parenthesis has no comment in it, and is found unchanged. -/
theorem Overwrites.sameBeginnings {cs cs' : List Char} (h : Overwrites cs cs') :
    SameBeginnings cs cs' := by
  induction h with
  | done cs => exact fun _ _ => rfl
  | comment _ _ _ =>
    intro n hn
    cases n with
    | zero => rw [Text.takeBytes_zero, Text.takeBytes_zero]
    | succ n =>
      have hparen : '('.utf8Size ≤ n + 1 := by
        rw [show '('.utf8Size = 1 by decide]
        omega
      rw [Text.takeBytes, if_pos hparen] at hn
      simp at hn
  | string _ _ ih => exact ((ih.cons _).append _).cons _
  | other _ _ _ ih => exact ih.cons _

/-- The first character stays, or is a space in the place of a comment. -/
theorem Overwrites.head {cs ds' : List Char} {d' : Char} (h : Overwrites cs (d' :: ds')) :
    (∃ ds, cs = d' :: ds ∧ (d' ≠ '"' → Overwrites ds ds')) ∨ d' = ' ' := by
  generalize hfull : d' :: ds' = full at h
  cases h with
  | done cs => exact .inl ⟨ds', hfull.symm, fun _ => .done ds'⟩
  | comment _ _ =>
    rw [List.replicate_succ, List.cons_append] at hfull
    exact .inr (List.cons.inj hfull).1
  | string _ _ =>
    obtain ⟨rfl, -⟩ := List.cons.inj hfull
    exact .inl ⟨_, rfl, fun hne => absurd rfl hne⟩
  | other _ _ hrest =>
    obtain ⟨rfl, rfl⟩ := List.cons.inj hfull
    exact .inl ⟨_, rfl, fun _ => hrest⟩

/-! ## Pieces -/

/-- The token with the comments of the line that it carries along overwritten. -/
def Token.overwrite (keep : Nat) (t : Token) : Token :=
  { t with onward := Rockstar.overwrite keep t.onward, behind := Rockstar.overwrite keep t.behind }

namespace Piece

variable {keep : Nat} {c : Char} {cs : List Char}

theorem ne_of_isWordChar {d : Char} (h : isWordChar d = true) : d ≠ '(' ∧ d ≠ '"' := by
  constructor
  · rintro rfl
    exact absurd h (by decide)
  · rintro rfl
    exact absurd h (by decide)

/-! Where a word or number ends, and that it ends there as well once the comments behind it are
overwritten. -/

/-- The text does not begin with a character of the class. -/
def Stops (p : Char → Bool) (cs : List Char) : Prop := ∀ d ds, cs = d :: ds → p d = false

theorem stops_dropWhile (p : Char → Bool) (cs : List Char) : Stops p (cs.dropWhile p) := by
  intro d ds hcons
  have hhead := List.head?_dropWhile_not p cs
  rw [hcons] at hhead
  exact hhead

theorem takeWhile_of_stops {p : Char → Bool} {front rest : List Char}
    (hfront : ∀ d ∈ front, p d = true) (hrest : Stops p rest) :
    (front ++ rest).takeWhile p = front ∧ (front ++ rest).dropWhile p = rest := by
  rw [List.takeWhile_append_of_pos hfront, List.dropWhile_append_of_pos hfront]
  cases rest with
  | nil => simp
  | cons d ds => simp [hrest d ds rfl]

theorem Stops.overwrites {p : Char → Bool} (hspace : p ' ' = false) {rest rest' : List Char}
    (h : Stops p rest) (hrest : Overwrites rest rest') : Stops p rest' := by
  rintro d ds rfl
  rcases hrest.head with ⟨_, rfl, -⟩ | rfl
  · exact h d _ rfl
  · exact hspace

theorem takeNumber_whole {whole rest : List Char} (hwhole : ∀ d ∈ whole, isDigit d = true)
    (hrest : Stops isDigit rest) (hpoint : ∀ ds, rest = '.' :: ds → Stops isDigit ds) :
    takeNumber (whole ++ rest) = whole := by
  obtain ⟨htake, hdrop⟩ := takeWhile_of_stops hwhole hrest
  unfold takeNumber
  rw [htake, hdrop]
  dsimp only
  split
  next d ds => rw [if_neg (by simp [hpoint _ rfl d ds rfl])]
  next => rfl

theorem takeNumber_fraction {whole fraction rest : List Char}
    (hwhole : ∀ d ∈ whole, isDigit d = true) (hfraction : ∀ d ∈ fraction, isDigit d = true)
    (hne : fraction ≠ []) (hrest : Stops isDigit rest) :
    takeNumber (whole ++ '.' :: (fraction ++ rest)) = whole ++ '.' :: fraction := by
  have hpoint : Stops isDigit ('.' :: (fraction ++ rest)) := by
    rintro d ds hcons
    obtain ⟨rfl, -⟩ := List.cons.inj hcons
    decide
  obtain ⟨htake, hdrop⟩ := takeWhile_of_stops hwhole hpoint
  obtain ⟨d, fraction, rfl⟩ := List.exists_cons_of_ne_nil hne
  unfold takeNumber
  rw [htake, hdrop]
  show (if isDigit d = true then whole ++ '.' :: (d :: fraction ++ rest).takeWhile isDigit
    else whole) = _
  rw [if_pos (hfraction d (by simp)), (takeWhile_of_stops hfraction hrest).1]

/-- A number ends at the same place when comments behind it are overwritten. -/
theorem takeNumber_overwrites {cs rest rest' : List Char} (hcs : takeNumber cs ++ rest = cs)
    (hrest : Overwrites rest rest') : takeNumber (takeNumber cs ++ rest') = takeNumber cs := by
  have hsplit := List.takeWhile_append_dropWhile (p := isDigit) (l := cs)
  have hwhole : ∀ d ∈ cs.takeWhile isDigit, isDigit d = true := fun d => List.mem_takeWhile_imp
  have hstop := stops_dropWhile isDigit cs
  by_cases hpoint : ∃ d ds, cs.dropWhile isDigit = '.' :: d :: ds ∧ isDigit d = true
  · -- with a fraction, the number ends where the digits behind the point end
    obtain ⟨d, ds, hdrop, hd⟩ := hpoint
    have hnumber : takeNumber cs = cs.takeWhile isDigit ++ '.' :: (d :: ds).takeWhile isDigit := by
      unfold takeNumber
      rw [hdrop]
      exact if_pos hd
    have hfraction := List.takeWhile_append_dropWhile (p := isDigit) (l := d :: ds)
    have hparts : cs = cs.takeWhile isDigit ++
        '.' :: ((d :: ds).takeWhile isDigit ++ (d :: ds).dropWhile isDigit) := by
      rw [hfraction, ← hdrop, hsplit]
    have htail : rest = (d :: ds).dropWhile isDigit := by
      rw [hnumber, List.append_assoc, List.cons_append] at hcs
      have hbehind := List.append_cancel_left (hcs.trans hparts)
      exact List.append_cancel_left (List.cons.inj hbehind).2
    rw [hnumber, List.append_assoc, List.cons_append]
    refine takeNumber_fraction hwhole (fun e => List.mem_takeWhile_imp) (by simp [hd]) ?_
    exact (htail ▸ stops_dropWhile isDigit (d :: ds)).overwrites (by decide) hrest
  · -- without one, no digit can come to stand behind a point: a space is none
    have hnumber : takeNumber cs = cs.takeWhile isDigit := by
      unfold takeNumber
      dsimp only
      split
      next d ds hdrop => exact if_neg fun hd => hpoint ⟨d, ds, hdrop, hd⟩
      next => rfl
    have htail : rest = cs.dropWhile isDigit := by
      rw [hnumber] at hcs
      exact List.append_cancel_left (hcs.trans hsplit.symm)
    rw [hnumber]
    refine takeNumber_whole hwhole ((htail ▸ hstop).overwrites (by decide) hrest) ?_
    rintro ds' rfl
    rcases hrest.head with ⟨ds, hds, hrest⟩ | hspace
    · refine Stops.overwrites (by decide) ?_ (hrest (by decide))
      rintro d more rfl
      exact Bool.eq_false_iff.mpr fun hd => hpoint ⟨d, more, htail ▸ hds, hd⟩
    · exact absurd hspace (by decide)

/-- What `first` makes of a character that stands alone does not depend on what follows. -/
theorem first_of_single (hparen : c ≠ '(') (hquote : c ≠ '"')
    (h : isBlank c = true ∨ isDigit c = false ∧ Text.isLetter c = false) (cs : List Char) :
    first c cs = first c [] ∧ (first c cs).raw = [c] := by
  unfold first
  rw [if_neg hparen, if_neg hquote, if_neg hparen, if_neg hquote]
  rcases h with hblank | ⟨hdigit, hletter⟩
  · rw [if_pos hblank, if_pos hblank]
    exact ⟨rfl, rfl⟩
  · rw [hdigit, hletter]
    refine ⟨rfl, ?_⟩
    split
    · rfl
    · rw [if_neg Bool.false_ne_true, if_neg Bool.false_ne_true]
      split <;> rfl

/-- Overwriting behind a piece without parentheses and quotes leaves the piece as it is. -/
theorem first_overwrite_of_ne (front : List Char) {rest : List Char}
    (hfirst : (first c (front ++ rest)).raw = c :: front)
    (hfront : ∀ d ∈ c :: front, d ≠ '(' ∧ d ≠ '"')
    (hsame : first c (front ++ overwrite keep rest) = first c (front ++ rest)) :
    ∃ cs', overwrite keep (c :: (front ++ rest)) = c :: cs' ∧
      first c cs' = first c (front ++ rest) ∧
        restOf c cs' = overwrite keep (restOf c (front ++ rest)) := by
  refine ⟨front ++ overwrite keep rest, ?_, hsame, ?_⟩
  · rw [← List.cons_append, overwrite_append_of_ne _ hfront, List.cons_append]
  · simp [restOf, hsame, hfirst]

theorem first_openComment (h : ')' ∉ cs) :
    first '(' cs = .openComment cs ∧ restOf '(' cs = [] := by
  have hfirst : first '(' cs = .openComment cs := by
    have hbody : cs.takeWhile (· ≠ ')') = cs := takeWhile_eq_self (by simpa using h)
    unfold first
    rw [if_neg (by decide), if_pos rfl, hbody]
    simp [h]
  exact ⟨hfirst, by simp [restOf, hfirst, raw]⟩

theorem first_comment {body : List Char} (h : ')' ∉ body) (rest : List Char) :
    first '(' (body ++ ')' :: rest) = .comment body ∧ restOf '(' (body ++ ')' :: rest) = rest := by
  have hfirst : first '(' (body ++ ')' :: rest) = .comment body := by
    unfold first
    rw [if_neg (by decide), if_pos rfl, takeWhile_delimited h]
    simp
  exact ⟨hfirst, by simp [restOf, hfirst, raw]⟩

theorem first_openString (h : '"' ∉ cs) :
    first '"' cs = .openString cs ∧ restOf '"' cs = [] := by
  have hfirst : first '"' cs = .openString cs := by
    have hbody : cs.takeWhile (· ≠ '"') = cs := takeWhile_eq_self (by simpa using h)
    unfold first
    rw [if_neg (by decide), if_neg (by decide), if_pos rfl, hbody]
    simp [h]
  exact ⟨hfirst, by simp [restOf, hfirst, raw]⟩

theorem first_string {body : List Char} (h : '"' ∉ body) (rest : List Char) :
    first '"' (body ++ '"' :: rest) = .string body ∧ restOf '"' (body ++ '"' :: rest) = rest := by
  have hfirst : first '"' (body ++ '"' :: rest) = .string body := by
    unfold first
    rw [if_neg (by decide), if_neg (by decide), if_pos rfl, takeWhile_delimited h]
    simp
  exact ⟨hfirst, by simp [restOf, hfirst, raw]⟩

theorem ne_of_mem_takeNumber {d : Char} (h : d ∈ takeNumber cs) : d ≠ '(' ∧ d ≠ '"' := by
  have hdigit : isDigit d = true ∨ d = '.' := by
    unfold takeNumber at h
    dsimp only at h
    split at h
    next e ds =>
      split at h
      · rcases List.mem_append.mp h with hwhole | hfraction
        · exact .inl (List.mem_takeWhile_imp hwhole)
        · rcases List.mem_cons.mp hfraction with rfl | hmem
          · exact .inr rfl
          · exact .inl (List.mem_takeWhile_imp hmem)
      · exact .inl (List.mem_takeWhile_imp h)
    next => exact .inl (List.mem_takeWhile_imp h)
  constructor
  · rintro rfl
    exact absurd hdigit (by decide)
  · rintro rfl
    exact absurd hdigit (by decide)

theorem first_overwrite_number (hblank : isBlank c = false) (hparen : c ≠ '(') (hquote : c ≠ '"')
    (hdigit : isDigit c = true) :
    ∃ cs', overwrite keep (c :: cs) = c :: cs' ∧ first c cs' = first c cs ∧
      restOf c cs' = overwrite keep (restOf c cs) := by
  have hnumber : ∀ ds, first c ds = .number (takeNumber (c :: ds)) := by
    intro ds
    unfold first
    rw [hblank, if_neg Bool.false_ne_true, if_neg hparen, if_neg hquote, if_pos hdigit]
  obtain ⟨rest, hrest⟩ := takeNumber_append (c :: cs)
  obtain ⟨d, front, hfront⟩ := List.exists_cons_of_ne_nil (takeNumber_ne_nil cs hdigit)
  have hcs : d = c ∧ front ++ rest = cs := by
    rw [hfront] at hrest
    exact List.cons.inj hrest
  obtain ⟨rfl, rfl⟩ := hcs
  refine first_overwrite_of_ne front ?_ ?_ ?_
  · rw [hnumber]
    exact hfront
  · intro e he
    rw [← hfront] at he
    exact ne_of_mem_takeNumber he
  · have hsame := takeNumber_overwrites hrest (overwrites_overwrite keep rest)
    rw [hfront] at hsame
    rw [hnumber, hnumber, hfront]
    exact congrArg Piece.number hsame

theorem first_overwrite_word (hblank : isBlank c = false) (hparen : c ≠ '(') (hquote : c ≠ '"')
    (hdigit : isDigit c = false) (hletter : Text.isLetter c = true) :
    ∃ cs', overwrite keep (c :: cs) = c :: cs' ∧ first c cs' = first c cs ∧
      restOf c cs' = overwrite keep (restOf c cs) := by
  have hword : ∀ ds, first c ds = ofWord ((c :: ds).takeWhile isWordChar) := by
    intro ds
    unfold first
    rw [hblank, if_neg Bool.false_ne_true, if_neg hparen, if_neg hquote, hdigit,
      if_neg Bool.false_ne_true, if_pos hletter]
  have hchar : isWordChar c = true := by simp [isWordChar, hletter]
  have hsplit := List.takeWhile_append_dropWhile (p := isWordChar) (l := cs)
  have hfront : ∀ d ∈ c :: cs.takeWhile isWordChar, isWordChar d = true := by
    intro d hd
    rcases List.mem_cons.mp hd with rfl | hmem
    · exact hchar
    · exact List.mem_takeWhile_imp hmem
  have hstop := stops_dropWhile isWordChar cs
  have hstop' := hstop.overwrites (by decide) (overwrites_overwrite keep _)
  have htake := (takeWhile_of_stops hfront hstop).1
  have htake' := (takeWhile_of_stops hfront hstop').1
  revert hsplit hfront htake htake'
  generalize cs.takeWhile isWordChar = front
  generalize cs.dropWhile isWordChar = rest
  rintro rfl hfront htake htake'
  rw [List.cons_append] at htake htake'
  refine first_overwrite_of_ne front ?_ (fun d hd => ne_of_isWordChar (hfront d hd)) ?_
  · rw [hword, htake, raw_ofWord]
  · rw [hword, hword, htake, htake']

theorem first_overwrite_single (hparen : c ≠ '(') (hquote : c ≠ '"')
    (h : isBlank c = true ∨ isDigit c = false ∧ Text.isLetter c = false) :
    ∃ cs', overwrite keep (c :: cs) = c :: cs' ∧ first c cs' = first c cs ∧
      restOf c cs' = overwrite keep (restOf c cs) := by
  obtain ⟨hfirst, hraw⟩ := first_of_single hparen hquote h cs
  refine first_overwrite_of_ne [] hraw (by simp [hparen, hquote]) ?_
  exact (first_of_single hparen hquote h _).1.trans hfirst.symm

/-- The first piece of a text and what is left, once comments are overwritten; but for a comment
at the front, which is no piece any more. -/
theorem first_overwrite (h : c = '(' → ')' ∈ cs → cs.length < keep) :
    ∃ cs', overwrite keep (c :: cs) = c :: cs' ∧ first c cs' = first c cs ∧
      restOf c cs' = overwrite keep (restOf c cs) := by
  by_cases hshort : cs.length < keep
  · -- within what is kept nothing changes
    have htail := length_restOf_le c cs
    have hwhole : (c :: cs).length ≤ keep := hshort
    refine ⟨cs, overwrite_of_length_le hwhole, rfl, ?_⟩
    rw [overwrite_of_length_le (by omega)]
  by_cases hparen : c = '('
  · subst hparen
    by_cases hclosed : ')' ∈ cs
    · exact absurd (h rfl hclosed) hshort
    · -- an open comment takes all of the text
      refine ⟨cs, overwrite_openComment hclosed, rfl, ?_⟩
      rw [(first_openComment hclosed).2, overwrite]
  by_cases hquote : c = '"'
  · subst hquote
    by_cases hclosed : '"' ∈ cs
    · obtain ⟨body, rest, hbody, rfl⟩ := exists_append_of_contains (by simpa using hclosed)
      obtain ⟨hfirst, hrest⟩ := first_string hbody rest
      obtain ⟨hfirst', hrest'⟩ := first_string hbody (overwrite keep rest)
      exact ⟨_, overwrite_string hbody, hfirst'.trans hfirst.symm, by rw [hrest, hrest']⟩
    · refine ⟨cs, overwrite_openString hclosed, rfl, ?_⟩
      rw [(first_openString hclosed).2, overwrite]
  by_cases hblank : isBlank c = true
  · exact first_overwrite_single hparen hquote (.inl hblank)
  · rw [Bool.not_eq_true] at hblank
    cases hdigit : isDigit c with
    | true => exact first_overwrite_number hblank hparen hquote hdigit
    | false =>
      cases hletter : Text.isLetter c with
      | true => exact first_overwrite_word hblank hparen hquote hdigit hletter
      | false => exact first_overwrite_single hparen hquote (.inr ⟨hdigit, hletter⟩)

/-- The tokens of a piece carry along what is overwritten, and are the same otherwise. -/
theorem tokens_overwrite {p : Piece}
    (hs : ∀ stem s, p = .contraction stem s → s ≠ '(' ∧ s ≠ '"') (place : Place)
    (onward behind : List Char) :
    p.tokens place (overwrite keep onward) (overwrite keep behind) =
      (p.tokens place onward behind).map (Token.overwrite keep) := by
  cases p with
  | contraction stem s =>
    obtain ⟨hparen, hquote⟩ := hs stem s rfl
    have hrest : overwrite keep ('\'' :: s :: behind) = '\'' :: s :: overwrite keep behind := by
      rw [overwrite_cons_of_ne (by decide) (by decide), overwrite_cons_of_ne hparen hquote]
    simp only [tokens, List.map_cons, List.map_nil, Token.overwrite, hrest]
  | _ => rfl

end Piece

/-! ## Scanning -/

theorem scanFrom_spaces (place : Place) (n : Nat) (cs : List Char) :
    scanFrom place (List.replicate n ' ' ++ cs) = scanFrom (place.advance n) cs := by
  induction n generalizing place with
  | zero => rfl
  | succ n ih =>
    obtain ⟨hfirst, hrest⟩ : Piece.first ' ' (List.replicate n ' ' ++ cs) = .blank ' ' ∧
        Piece.restOf ' ' (List.replicate n ' ' ++ cs) = List.replicate n ' ' ++ cs := ⟨rfl, rfl⟩
    have hplace : (place.advance (Piece.size (.blank ' '))).advance n = place.advance (n + 1) := by
      simp [Place.advance, Piece.size, Piece.raw, show ' '.utf8Size = 1 by decide]
      omega
    rw [List.replicate_succ, List.cons_append, scanFrom, hfirst, hrest, ih, hplace]
    rfl

/-- Overwriting comments moves no token. -/
theorem scanFrom_overwrite (keep : Nat) (place : Place) (cs : List Char) :
    scanFrom place (overwrite keep cs) = (scanFrom place cs).map (Token.overwrite keep) := by
  fun_induction scanFrom place cs with
  | case1 place => rw [overwrite, scanFrom, List.map_nil]
  | case2 place c cs piece ih =>
    by_cases hcomment : c = '(' ∧ ')' ∈ cs ∧ keep ≤ cs.length
    · -- a comment gives no token, and neither do the spaces in its place
      obtain ⟨rfl, hclosed, hkeep⟩ := hcomment
      obtain ⟨body, rest, hbody, rfl⟩ := exists_append_of_contains (by simpa using hclosed)
      obtain ⟨hfirst, hrest⟩ := Piece.first_comment hbody rest
      have hsize : (Piece.comment body).size = Text.byteSize body + 2 := by
        simp [Piece.size, Piece.raw, show '('.utf8Size = 1 by decide,
          show ')'.utf8Size = 1 by decide]
        omega
      rw [hrest] at ih ⊢
      rw [overwrite_comment hbody hkeep, scanFrom_spaces, ← hsize, ← hfirst, ih]
      simp only [piece, hfirst, Piece.tokens, List.nil_append]
    · -- any other piece is found again, with the same end
      have hopen : c = '(' → ')' ∈ cs → cs.length < keep := fun hparen hclosed =>
        Nat.lt_of_not_le fun hkeep => hcomment ⟨hparen, hclosed, hkeep⟩
      have hs : ∀ stem s, piece = .contraction stem s → s ≠ '(' ∧ s ≠ '"' := by
        intro stem s hpiece
        rcases (Piece.contraction_of_first hpiece).2 with rfl | rfl <;> decide
      obtain ⟨cs', hcs', hfirst, hrest⟩ := Piece.first_overwrite hopen
      rw [List.map_append, ← ih, ← Piece.tokens_overwrite hs, hcs', scanFrom]
      simp only [hfirst, hrest, piece]

end Rockstar
