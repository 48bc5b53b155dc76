import Rockstar.Proofs.Overwriting

/-!
# Poetic numbers without comments

A poetic number has a rule of its own for what a comment is: it knows no strings, so a parenthesis
inside a string opens a stretch that is passed over. Where there is no string, overwriting the
comments leaves the number as it is (`number?_overwrite_of_no_quote`). In general, a text that
spells no number spells none without its comments (`number?_overwrite_eq_none`).
-/

namespace Rockstar

/-! ## White space around a poetic number -/

theorem Text.ne_of_isSpace {c : Char} (h : isSpace c = true) :
    c ≠ '(' ∧ c ≠ ')' ∧ c ≠ '"' ∧ c ≠ '.' := by
  refine ⟨?_, ?_, ?_, ?_⟩
  all_goals
    rintro rfl
    exact absurd h (by decide)

/-- The text with what was trimmed. -/
theorem Text.exists_append_trim (cs : List Char) :
    ∃ front back, (∀ c ∈ front, isSpace c = true) ∧ (∀ c ∈ back, isSpace c = true) ∧
      cs = front ++ (trim cs ++ back) := by
  refine ⟨cs.takeWhile isSpace, ((cs.dropWhile isSpace).reverse.takeWhile isSpace).reverse, ?_, ?_, ?_⟩
  · exact fun c hc => List.mem_takeWhile_imp hc
  · exact fun c hc => List.mem_takeWhile_imp (List.mem_reverse.mp hc)
  · unfold trim
    rw [← List.reverse_append, List.takeWhile_append_dropWhile, List.reverse_reverse,
      List.takeWhile_append_dropWhile]

namespace Poetic.Count

theorem endWord_endWord (n : Count) : n.endWord.endWord = n.endWord := by
  unfold endWord
  split
  · rfl
  · split <;> rfl

theorem push_space {c : Char} (h : Text.isSpace c = true) (n : Count) :
    n.push c = if n.inComment then n else n.endWord := by
  obtain ⟨hopen, hclose, -, hpoint⟩ := Text.ne_of_isSpace h
  unfold push
  split
  next hcomment =>
    cases n
    simp_all
  next => rfl

theorem inComment_endWord (n : Count) : n.endWord.inComment = n.inComment := by
  unfold endWord
  split
  · rfl
  · split <;> rfl

theorem foldl_spaces {cs : List Char} (h : ∀ c ∈ cs, Text.isSpace c = true) (n : Count) :
    (cs.foldl push n).endWord = n.endWord := by
  induction cs generalizing n with
  | nil => rfl
  | cons c cs ih =>
    rw [List.foldl_cons, ih (fun d hd => h d (by simp [hd])), push_space (h c (by simp))]
    split
    · rfl
    · exact endWord_endWord n

end Poetic.Count

theorem overwrite_append_spaces (cs : List Char) {back : List Char}
    (h : ∀ c ∈ back, Text.isSpace c = true) :
    overwrite 0 (cs ++ back) = overwrite 0 cs ++ back := by
  have hne : ∀ c ∈ back, c ≠ '(' ∧ c ≠ '"' := fun c hc =>
    ⟨(Text.ne_of_isSpace (h c hc)).1, (Text.ne_of_isSpace (h c hc)).2.2.1⟩
  induction cs using comment_induction with
  | nil =>
    have hback : overwrite 0 (back ++ []) = back ++ overwrite 0 [] :=
      overwrite_append_of_ne back hne
    rw [overwrite] at hback
    rw [List.nil_append, overwrite, List.nil_append]
    simpa using hback
  | comment body rest hbody ih =>
    rw [List.cons_append, List.append_assoc, List.cons_append,
      overwrite_comment hbody (Nat.zero_le _), overwrite_comment hbody (Nat.zero_le _), ih,
      List.append_assoc]
  | openComment cs hopen =>
    have hback : ')' ∉ cs ++ back := by
      intro hmem
      rcases List.mem_append.mp hmem with hcs | hback
      · exact hopen hcs
      · exact (Text.ne_of_isSpace (h _ hback)).2.1 rfl
    rw [List.cons_append, overwrite_openComment hopen, overwrite_openComment hback,
      List.cons_append]
  | string body rest hbody ih =>
    rw [List.cons_append, List.append_assoc, List.cons_append, overwrite_string hbody,
      overwrite_string hbody, ih]
    simp
  | openString cs hopen =>
    have hback : '"' ∉ cs ++ back := by
      intro hmem
      rcases List.mem_append.mp hmem with hcs | hback
      · exact hopen hcs
      · exact (hne _ hback).2 rfl
    rw [List.cons_append, overwrite_openString hopen, overwrite_openString hback,
      List.cons_append]
  | other c cs hparen hquote ih =>
    rw [List.cons_append, overwrite_cons_of_ne hparen hquote, overwrite_cons_of_ne hparen hquote,
      ih, List.cons_append]

namespace Poetic

theorem number?_append_spaces (cs : List Char) {back : List Char}
    (h : ∀ c ∈ back, Text.isSpace c = true) : number? (cs ++ back) = number? cs := by
  unfold number?
  rw [List.foldl_append, Count.foldl_spaces h]

theorem number?_spaces_append (cs : List Char) {front : List Char}
    (h : ∀ c ∈ front, Text.isSpace c = true) : number? (front ++ cs) = number? cs := by
  unfold number?
  rw [List.foldl_append]
  have hstart : front.foldl Count.push .start = .start := by
    induction front with
    | nil => rfl
    | cons c front ih =>
      rw [List.foldl_cons, Count.push_space (h c (by simp))]
      exact ih fun d hd => h d (by simp [hd])
  rw [hstart]

/-- White space around a text does not count. -/
theorem number?_overwrite_trim (cs : List Char) :
    number? (overwrite 0 (Text.trim cs)) = number? (overwrite 0 cs) := by
  obtain ⟨front, back, hfront, hback, hcs⟩ := Text.exists_append_trim cs
  have hne : ∀ c ∈ front, c ≠ '(' ∧ c ≠ '"' := fun c hc =>
    ⟨(Text.ne_of_isSpace (hfront c hc)).1, (Text.ne_of_isSpace (hfront c hc)).2.2.1⟩
  calc number? (overwrite 0 (Text.trim cs))
      = number? (overwrite 0 (front ++ (Text.trim cs ++ back))) := by
        rw [overwrite_append_of_ne front hne, number?_spaces_append _ hfront,
          overwrite_append_spaces _ hback, number?_append_spaces _ hback]
    _ = number? (overwrite 0 cs) := by rw [← hcs]

/-! ## Numbers that stay -/

namespace Count

/-- Something has been read that will be a digit. -/
def Started (n : Count) : Prop := n.whole ≠ [] ∨ n.fraction ≠ [] ∨ n.letters ≠ 0

theorem number?_endWord_eq_none (n : Count) : n.endWord.number? = none ↔ ¬n.Started := by
  unfold endWord Started number?
  by_cases hletters : n.letters = 0
  · rw [if_pos hletters]
    simp [hletters]
  · rw [if_neg hletters]
    split
    · simp [hletters]
    · simp [hletters]

theorem started_endWord (n : Count) : n.endWord.Started ↔ n.Started := by
  rw [← not_iff_not, ← number?_endWord_eq_none, ← number?_endWord_eq_none, endWord_endWord]

theorem Started.push {n : Count} (h : n.Started) (c : Char) : (n.push c).Started := by
  unfold Count.push
  split
  · exact h
  · split
    · exact n.started_endWord.mpr h
    · split
      · exact n.started_endWord.mpr h
      · split
        · exact n.started_endWord.mpr h
        · split
          · exact .inr (.inr (Nat.succ_ne_zero _))
          · exact h

theorem Started.foldl {n : Count} (h : n.Started) (cs : List Char) :
    (cs.foldl Count.push n).Started := by
  induction cs generalizing n with
  | nil => exact h
  | cons c cs ih => exact ih (h.push c)

/-- A closing parenthesis ends every comment. -/
theorem ne_of_inComment_push {n : Count} {c : Char} (h : (n.push c).inComment = true) :
    c ≠ ')' := by
  rintro rfl
  unfold push at h
  split at h
  · simp at h
  next hopen =>
    rw [if_neg (by decide), if_neg (by decide), if_neg (by decide), if_neg (by decide)] at h
    exact hopen h

/-- The first count has read something, or the second one has not and is inside a comment whenever
the first one is. -/
def Shadows (n n' : Count) : Prop :=
  n.Started ∨ ¬n'.Started ∧ (n.inComment = true → n'.inComment = true)

theorem Shadows.push {n n' : Count} (h : n.Shadows n') (c : Char) :
    (n.push c).Shadows (n'.push c) := by
  rcases h with hstarted | ⟨hempty, hinside⟩
  · exact .inl (hstarted.push c)
  · by_cases hcomment : n'.inComment = true
    · -- what closes the comment of the second count leaves the first one outside, too
      refine .inr ?_
      have hpush : n'.push c = { n' with inComment := c ≠ ')' } := by
        rw [Count.push, if_pos hcomment]
      rw [hpush]
      exact ⟨hempty, fun hc => decide_eq_true (ne_of_inComment_push hc)⟩
    · -- both are outside a comment, and a letter starts the first one
      have houtside : ¬n.inComment = true := fun hin => hcomment (hinside hin)
      have hempty' : ¬n'.endWord.Started := fun hs => hempty (n'.started_endWord.mp hs)
      have houtside' : ¬n.endWord.inComment = true := by rwa [inComment_endWord]
      unfold Count.push
      rw [if_neg hcomment, if_neg houtside]
      by_cases hopen : c = '('
      · rw [if_pos hopen, if_pos hopen]
        exact .inr ⟨hempty', fun _ => rfl⟩
      · rw [if_neg hopen, if_neg hopen]
        by_cases hpoint : c = '.'
        · rw [if_pos hpoint, if_pos hpoint]
          exact .inr ⟨hempty', fun hin => absurd hin houtside'⟩
        · rw [if_neg hpoint, if_neg hpoint]
          by_cases hspace : Text.isSpace c = true
          · rw [if_pos hspace, if_pos hspace]
            exact .inr ⟨hempty', fun hin => absurd hin houtside'⟩
          · rw [if_neg hspace, if_neg hspace]
            split
            · exact .inl (.inr (.inr (Nat.succ_ne_zero _)))
            · exact .inr ⟨hempty, hinside⟩

theorem Shadows.foldl {n n' : Count} (h : n.Shadows n') (cs : List Char) :
    (cs.foldl Count.push n).Shadows (cs.foldl Count.push n') := by
  induction cs generalizing n n' with
  | nil => exact h
  | cons c cs ih => exact ih (h.push c)

/-- Spaces do no more than the comment in whose place they stand. -/
theorem Shadows.comment {n n' : Count} (h : n.Shadows n') (body : List Char) (k : Nat) :
    ((body.foldl Count.push (n.push '(')).push ')').Shadows
      ((List.replicate k ' ').foldl Count.push n') := by
  rcases h with hstarted | ⟨hempty, -⟩
  · exact .inl (((hstarted.push '(').foldl body).push ')')
  · refine .inr ⟨fun hstarted => hempty ?_, fun hin => absurd rfl (ne_of_inComment_push hin)⟩
    have hspaces : ∀ c ∈ List.replicate k ' ', Text.isSpace c = true := by
      intro c hc
      rw [List.eq_of_mem_replicate hc]
      decide
    rw [← started_endWord, foldl_spaces hspaces, started_endWord] at hstarted
    exact hstarted

end Count

theorem shadows_of_overwrites {cs cs' : List Char} (h : Overwrites cs cs') {n n' : Count}
    (hn : n.Shadows n') : (cs.foldl Count.push n).Shadows (cs'.foldl Count.push n') := by
  induction h generalizing n n' with
  | done cs => exact hn.foldl cs
  | comment _ _ ih =>
    simp only [List.foldl_cons, List.foldl_append]
    exact ih (hn.comment _ _)
  | string _ _ ih =>
    simp only [List.foldl_cons, List.foldl_append]
    exact ih (((hn.push _).foldl _).push _)
  | other _ _ _ ih => exact ih (hn.push _)

/-- A text that spells no number spells none without its comments. -/
theorem number?_overwrite_eq_none {cs : List Char} (keep : Nat) (h : number? cs = none) :
    number? (overwrite keep cs) = none := by
  have hstart : Count.start.Shadows .start := .inr ⟨by simp [Count.Started, Count.start], id⟩
  have hshadows := shadows_of_overwrites (overwrites_overwrite keep cs) hstart
  -- there is no number exactly where nothing has been read
  unfold number? at h ⊢
  rw [Count.number?_endWord_eq_none] at h ⊢
  exact (hshadows.resolve_left h).1

/-! Without strings, the two rules for comments are the same. -/

namespace Count

theorem foldl_inside {n : Count} (hn : n.inComment = true) {body : List Char} (h : ')' ∉ body) :
    body.foldl push n = n := by
  induction body with
  | nil => rfl
  | cons c body ih =>
    simp only [List.mem_cons, not_or] at h
    have hpush : n.push c = n := by
      rw [push, if_pos hn]
      cases n
      simp_all [Ne.symm h.1]
    rw [List.foldl_cons, hpush, ih h.2]

theorem push_comment {n : Count} (hn : n.inComment = false) {body : List Char}
    (h : ')' ∉ body) : (body.foldl push (n.push '(')).push ')' = n.endWord := by
  have hopen : n.push '(' = { n.endWord with inComment := true } := by
    rw [push, hn, if_neg Bool.false_ne_true, if_pos rfl]
  rw [hopen, foldl_inside rfl h, push, if_pos rfl]
  have hend := n.inComment_endWord.trans hn
  revert hend
  generalize n.endWord = m
  intro hend
  cases m
  simp_all

theorem foldl_spaces_succ {n : Count} (hn : n.inComment = false) (k : Nat) :
    (List.replicate (k + 1) ' ').foldl push n = n.endWord := by
  induction k generalizing n with
  | zero =>
    rw [List.replicate_succ, List.foldl_cons, push_space (by decide), hn]
    rfl
  | succ k ih =>
    rw [List.replicate_succ, List.foldl_cons, push_space (by decide), hn,
      if_neg Bool.false_ne_true, ih (n.inComment_endWord.trans hn), endWord_endWord]

theorem inComment_push {n : Count} (hn : n.inComment = false) {c : Char} (h : c ≠ '(') :
    (n.push c).inComment = false := by
  rw [push, hn, if_neg Bool.false_ne_true, if_neg h]
  split
  · exact n.inComment_endWord.trans hn
  · split
    · exact n.inComment_endWord.trans hn
    · split
      · rfl
      · exact hn

end Count

theorem foldl_overwrites_of_no_quote {cs cs' : List Char} (h : Overwrites cs cs')
    (hquote : '"' ∉ cs) {n : Count} (hn : n.inComment = false) :
    cs'.foldl Count.push n = cs.foldl Count.push n := by
  induction h generalizing n with
  | done cs => rfl
  | comment hbody _ ih =>
    have hrest := ih (by simp_all) (n.inComment_endWord.trans hn)
    simp only [List.foldl_cons, List.foldl_append]
    rw [Count.push_comment hn hbody, Count.foldl_spaces_succ hn, hrest]
  | string _ _ _ => simp at hquote
  | other hparen _ _ ih =>
    simp only [List.mem_cons, not_or] at hquote
    exact ih hquote.2 (Count.inComment_push hn hparen)

/-- A poetic number without strings in it is the same without its comments. -/
theorem number?_overwrite_of_no_quote {cs : List Char} (keep : Nat) (h : '"' ∉ cs) :
    number? (overwrite keep cs) = number? cs := by
  unfold number?
  rw [foldl_overwrites_of_no_quote (overwrites_overwrite keep cs) h rfl]

end Poetic

end Rockstar
