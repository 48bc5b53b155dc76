import Rockstar.Proofs.Faults
import Rockstar.Proofs.Partition
import Rockstar.Stream.Parse

/-!
# The stream is read as its lines are

The token stream goes on behind the end of a line, and the readers of it stop there all the same.
`On` says where a position stands: before the tokens that are left of a line, and before the token
that ends it. `Follows` compares a reader of the stream with the reader of lines: from such a
position both give the same value, or the same error, and leave the same tokens of the line. It is
proved reader by reader. What a reader sees of the next line, when it looks ahead, makes no
difference to it (`On.operator?`), and what it cuts from the source is the text that the tokens
carry along.
-/

namespace Rockstar

theorem Line.isWord_stop (l : Line) {word : String} : ¬l.stop.isWord word = true := by
  obtain ⟨number, start, text, isLast⟩ := l
  cases isLast <;> exact Bool.false_ne_true

theorem Line.kind_stop_ne_word (l : Line) : l.stop.kind ≠ .word := by
  obtain ⟨number, start, text, isLast⟩ := l
  cases isLast <;> exact TokenKind.noConfusion

theorem Reader.failAt_cons (r : Reader) (u : Token) (ts : List Token)
    (cause : Token → ParseCause) :
    r.failAt (u :: ts) cause = ⟨(u.fault?.map .ofScan).getD ⟨cause u, u.span⟩, ts⟩ := by
  unfold failAt Token.fault?
  cases hkind : u.kind <;> simp [hkind]

theorem Reader.width_le_of_comparison? {ts : List Token} {op : BinaryOp} {width : Nat}
    (h : comparison? ts = some (op, width)) : width ≤ ts.length := by
  unfold comparison? at h
  split at h <;> (repeat' split at h) <;> cases h <;> simp

/-- An operator lies on the line as a whole. -/
theorem Reader.width_le_of_operator? {ts : List Token} {op : BinaryOp} {width : Nat}
    (h : operator? ts = some (op, width)) : width ≤ ts.length := by
  unfold operator? at h
  cases ts with
  | nil => cases h
  | cons u ts =>
    cases hkind : u.kind <;> simp only [hkind, reduceCtorEq, Option.some.injEq, Prod.mk.injEq] at h
    case word =>
      split at h
      · split at h
        next op' width' hcomparison =>
          cases h
          have := width_le_of_comparison? hcomparison
          rw [List.length_cons]
          omega
        next => cases h; simp
      · obtain ⟨o, -, ho⟩ := Option.map_eq_some_iff.mp h
        cases ho
        simp
    all_goals simp [← h.2]

theorem Reader.operator?_stop (l : Line) (ts : List Token) : operator? (l.stop :: ts) = none := by
  cases hop : operator? (l.stop :: ts) with
  | none => rfl
  | some found =>
    have hends := (width_of_operator? hop).2
    rw [l.endsLine_stop] at hends
    cases hends

theorem Reader.operator?_congr (a : Token) {ts ts' : List Token}
    (h : comparison? ts = comparison? ts') : operator? (a :: ts) = operator? (a :: ts') := by
  unfold operator?
  dsimp only
  rw [h]

namespace TokenStream

/-! ## Positions on a line -/

section Positions

variable {t : TokenStream} {l : Line} {more ts : List Token} {u : Token} {s : Cursor}

/-- The position stands before the tokens `ts` of a line, which is followed by `more`; no error of
the scanner from here on is settled. -/
structure On (t : TokenStream) (l : Line) (more ts : List Token) (s : Cursor) : Prop where
  ahead : t.tokens.drop s.pos = ts ++ l.stop :: more
  faults : ∀ i, s.pos ≤ i → s.faults i = t.tokens[i]?.bind Token.fault?
  suffix : ts <:+ l.tokens

/-- An error was met on the line, and the error of the scanner at its place is settled if there was
one. The tokens behind that place are `rest`. -/
def Stuck (t : TokenStream) (l : Line) (more rest : List Token) (s : Cursor) : Prop :=
  ∃ ts s₀, t.On l more ts s₀ ∧ s = s₀.settle ∧ rest = ts.drop 1

theorem tokenAt_of_ahead {xs : List Token} (h : t.tokens.drop s.pos = xs) {n : Nat}
    (hn : xs[n]? = some u) : t.tokenAt (s.pos + n) = u := by
  rw [tokenAt, ← List.getElem?_drop, h, hn, Option.getD_some]

namespace On

theorem tokenAt_stop (h : t.On l more [] s) : t.tokenAt s.pos = l.stop :=
  tokenAt_of_ahead h.ahead (n := 0) rfl

theorem tokenAt_head (h : t.On l more (u :: ts) s) : t.tokenAt s.pos = u :=
  tokenAt_of_ahead h.ahead (n := 0) rfl

theorem mem (h : t.On l more (u :: ts) s) : u ∈ l.tokens := h.suffix.subset List.mem_cons_self

/-- No token that is left ends the line. -/
theorem endsLine (h : t.On l more ts s) (hu : u ∈ ts) : u.kind.endsLine = false :=
  Line.endsLine_tokens (h.suffix.subset hu)

theorem not_endsLine (h : t.On l more (u :: ts) s) : ¬u.kind.endsLine = true := by
  rw [h.endsLine List.mem_cons_self]
  exact Bool.false_ne_true

theorem kind_ne_endOfSource (h : t.On l more ts s) (hu : u ∈ ts) : u.kind ≠ .endOfSource := by
  intro hkind
  have hends := h.endsLine hu
  rw [hkind] at hends
  cases hends

theorem faults_stop (h : t.On l more [] s) : s.faults s.pos = none := by
  have hstop : t.tokens[s.pos]? = some l.stop := by
    rw [← Nat.add_zero s.pos, ← List.getElem?_drop, h.ahead]
    rfl
  rw [h.faults _ (Nat.le_refl _), hstop, Option.bind_some]
  obtain ⟨number, start, text, isLast⟩ := l
  cases isLast <;> rfl

theorem faults_head (h : t.On l more (u :: ts) s) : s.faults s.pos = u.fault? := by
  have hhead : t.tokens[s.pos]? = some u := by
    rw [← Nat.add_zero s.pos, ← List.getElem?_drop, h.ahead]
    rfl
  rw [h.faults _ (Nat.le_refl _), hhead, Option.bind_some]

/-- Passing tokens of the line. -/
theorem skip (h : t.On l more ts s) {n : Nat} (hn : n ≤ ts.length) :
    t.On l more (ts.drop n) (s.skip n) where
  ahead := by
    rw [Cursor.pos_skip, ← List.drop_drop, h.ahead, List.drop_append_of_le_length hn]
  faults i hi := h.faults i (Nat.le_trans (Nat.le_add_right _ _) hi)
  suffix := (List.drop_suffix n ts).trans h.suffix

theorem skip_one (h : t.On l more (u :: ts) s) : t.On l more ts (s.skip 1) :=
  h.skip (Nat.succ_le_succ (Nat.zero_le _))

/-- At a token that is no fault nothing is left to settle. -/
theorem stuck (h : t.On l more ts s) (hnone : s.faults s.pos = none) :
    t.Stuck l more (ts.drop 1) s :=
  ⟨ts, s, h, (Cursor.settle_of_eq_none hnone).symm, rfl⟩

/-- Behind a token whose error is settled all errors are still open. -/
theorem settle_skip (h : t.On l more (u :: ts) s) : t.On l more ts (s.settle.skip 1) where
  ahead := h.skip_one.ahead
  faults i hi := by
    rw [Cursor.pos_skip, Cursor.pos_settle] at hi
    rw [Cursor.faults_skip, Cursor.faults_settle, if_neg (Nat.ne_of_gt hi)]
    exact h.faults i (Nat.le_of_succ_le hi)
  suffix := h.skip_one.suffix

end On

end Positions

/-! ## Two readers compared -/

section Compared

variable {α β : Type} {t : TokenStream} {l : Line} {more ts : List Token} {u : Token} {s : Cursor}

/-- What comes of a line, and what comes of the stream. -/
inductive Agree (t : TokenStream) (l : Line) (more : List Token) :
    Except Failure (α × List Token) → Except ParseError α × Cursor → Prop
  | ok {a : α} {ts : List Token} {s : Cursor} : t.On l more ts s →
      Agree t l more (.ok (a, ts)) (.ok a, s)
  | error {f : Failure} {s : Cursor} : t.Stuck l more f.rest s →
      Agree t l more (.error f) (.error f.error, s)

/-- Wherever it stands on the line, the reader of the stream does what the reader of lines does. -/
def Follows (t : TokenStream) (l : Line) (more : List Token) (f : StreamM α)
    (g : List Token → Except Failure (α × List Token)) : Prop :=
  ∀ ts s, t.On l more ts s → t.Agree l more (g ts) (f.run s)

/-- The stream is read on where the line is. -/
theorem Agree.of_ok {a : α} {outcome : Except ParseError α × Cursor}
    (h : t.Agree l more (.ok (a, ts)) outcome) :
    ∃ s', outcome = (.ok a, s') ∧ t.On l more ts s' := by
  cases h with
  | ok hon => exact ⟨_, rfl, hon⟩

theorem Agree.of_error {f : Failure} {outcome : Except ParseError α × Cursor}
    (h : t.Agree l more (.error f) outcome) :
    ∃ s', outcome = (.error f.error, s') ∧ t.Stuck l more f.rest s' := by
  cases h with
  | error hstuck => exact ⟨_, rfl, hstuck⟩

theorem Agree.bind {f : StreamM α} {result : Except Failure (α × List Token)}
    (hf : t.Agree l more result (f.run s)) {f' : α → StreamM β}
    {g : α × List Token → Except Failure (β × List Token)}
    (hf' : ∀ a, t.Follows l more (f' a) fun ts => g (a, ts)) :
    t.Agree l more (result >>= g) ((f >>= f').run s) := by
  rw [StreamM.run_bind]
  cases result with
  | ok found =>
    obtain ⟨s', hrun, hon⟩ := hf.of_ok
    rw [hrun]
    exact hf' _ _ _ hon
  | error failure =>
    obtain ⟨s', hrun, hstuck⟩ := hf.of_error
    rw [hrun]
    exact .error hstuck

theorem Follows.bind {f : StreamM α} {g : List Token → Except Failure (α × List Token)}
    (hf : t.Follows l more f g) {f' : α → StreamM β}
    {g' : α × List Token → Except Failure (β × List Token)}
    (hf' : ∀ a, t.Follows l more (f' a) fun ts => g' (a, ts)) :
    t.Follows l more (f >>= f') fun ts => g ts >>= g' :=
  fun ts s hon => (hf ts s hon).bind hf'

theorem follows_pure (a : α) : t.Follows l more (pure a) fun ts => .ok (a, ts) :=
  fun _ _ hon => .ok hon

/-- What was read is turned into something else, on the line and in the stream. -/
theorem Agree.map {f : StreamM α} {result : Except Failure (α × List Token)}
    (hf : t.Agree l more result (f.run s)) (g : α → β) :
    t.Agree l more
      (match result with
        | .ok (a, rest) => .ok (g a, rest)
        | .error failure => .error failure)
      ((f >>= fun a => pure (g a)).run s) := by
  have hmap := hf.bind (g := fun p => .ok (g p.1, p.2)) fun a => follows_pure (g a)
  cases result <;> exact hmap

end Compared

/-! ## Steps -/

section Steps

variable {α β : Type} {t : TokenStream} {l : Line} {more ts : List Token} {u : Token} {s : Cursor}

theorem run_peek_bind (n : Nat) (f : Token → StreamM β) :
    (t.peek n >>= f).run s = (f (t.tokenAt (s.pos + n))).run s := rfl

/-- Passing a token of the line. -/
theorem On.run_advance (h : t.On l more (u :: ts) s) : t.advance.run s = (.ok u, s.skip 1) := by
  rw [TokenStream.run_advance, TokenStream.next, h.tokenAt_head,
    if_neg (h.kind_ne_endOfSource List.mem_cons_self)]

theorem On.run_advance_bind (h : t.On l more (u :: ts) s) (f : Token → StreamM β) :
    (t.advance >>= f).run s = (f u).run (s.skip 1) := by
  rw [StreamM.run_bind, h.run_advance]

/-- Passing tokens of a sort that does not end lines. -/
theorem On.run_passWhile (h : t.On l more ts s) {p : Token → Bool} (hstop : p l.stop = false) :
    (t.passWhile p).run s = (.ok (ts.takeWhile p), s.skip (ts.takeWhile p).length) := by
  have hpassed : (t.tokens.drop s.pos).takeWhile p = ts.takeWhile p := by
    rw [h.ahead, List.takeWhile_append]
    split
    next hall =>
      rw [List.takeWhile_cons_of_neg (by rw [hstop]; exact Bool.false_ne_true), List.append_nil]
      exact ((List.takeWhile_sublist p).eq_of_length hall).symm
    next => rfl
  rw [TokenStream.run_passWhile, hpassed]

/-- The reader of a line that knows its end. -/
abbrev readerOf (t : TokenStream) (l : Line) : Reader := ⟨t.vocabulary, l.stop⟩

/-- A fault goes before any other cause, on the line and in the stream. The two causes need to be
the same at the next token only. -/
theorem On.errorHere (h : t.On l more ts s) {cause cause' : Token → ParseCause}
    (hcause : cause' (ts.headD l.stop) = cause (ts.headD l.stop)) :
    t.Agree l more (.error ((t.readerOf l).failAt ts cause') : Except Failure (α × List Token))
      ((t.errorHere cause : StreamM α).run s) := by
  cases ts with
  | nil =>
    replace hcause : cause' l.stop = cause l.stop := hcause
    have hrun : (t.errorHere cause : StreamM α).run s =
        (.error ⟨cause l.stop, l.stop.span⟩, s) := by
      simp only [StreamM.run, TokenStream.errorHere, h.faults_stop, h.tokenAt_stop, Step.outcome]
    rw [hrun, Reader.failAt, hcause]
    exact .error (h.stuck h.faults_stop)
  | cons u ts =>
    replace hcause : cause' u = cause u := hcause
    have hhead := h.faults_head
    rw [Reader.failAt_cons, hcause]
    cases hfault : u.fault? with
    | none =>
      rw [hfault] at hhead
      have hrun : (t.errorHere cause : StreamM α).run s = (.error ⟨cause u, u.span⟩, s) := by
        simp only [StreamM.run, TokenStream.errorHere, hhead, h.tokenAt_head, Step.outcome]
      rw [hrun]
      exact .error (h.stuck hhead)
    | some e =>
      rw [hfault] at hhead
      have hrun : (t.errorHere cause : StreamM α).run s = (.error (.ofScan e), s.settle) := by
        simp only [StreamM.run, TokenStream.errorHere, hhead, Step.outcome]
      rw [hrun]
      exact .error ⟨_, s, h, rfl, rfl⟩

theorem follows_word (word : String) :
    t.Follows l more (t.word word) ((t.readerOf l).word word) := by
  intro ts s hon
  rw [TokenStream.word, run_peek_bind, Nat.add_zero]
  cases ts with
  | nil =>
    rw [hon.tokenAt_stop, if_neg l.isWord_stop]
    exact hon.errorHere rfl
  | cons u ts =>
    rw [hon.tokenAt_head, Reader.word]
    split
    · rw [hon.run_advance]
      exact .ok hon.skip_one
    · exact hon.errorHere rfl

end Steps

/-! ## Variables -/

section Variables

variable {t : TokenStream} {l : Line} {more ts : List Token} {s : Cursor}

/-- The text that is cut from the source is the text that the tokens carry along. -/
theorem reference_eq (hl : l ∈ Line.split t.source) (first : Token) (words : List Token)
    (hsub : (first :: words).Sublist l.tokens) (hwords : ∀ u ∈ first :: words, u.kind = .word) :
    t.reference first (words.getLast?.getD first) =
      Reader.reference first (words.getLast?.getD first) := by
  rw [reference, between?_of_words hl hsub hwords, Option.getD_some, String.ofList_toList]
  rfl

theorem kind_of_continuesName {u : Token} (h : t.continuesName u = true) : u.kind = .word := by
  simp only [continuesName, Bool.and_eq_true, decide_eq_true_eq] at h
  exact h.1

theorem continuesName_stop : t.continuesName l.stop = false := by
  simp [continuesName, l.kind_stop_ne_word]

theorem On.run_commonName (hl : l ∈ Line.split t.source) {first next : Token} {rest : List Token}
    (h : t.On l more (first :: next :: rest) s) (hfirst : first.kind = .word)
    (hnext : t.continuesName next = true) :
    (t.commonName first).run (s.skip 1) =
      (.ok (Reader.reference first next), (s.skip 1).skip 1) := by
  have hwords : ∀ u ∈ [first, next], u.kind = .word := by
    simpa using ⟨hfirst, kind_of_continuesName hnext⟩
  have hsub : [first, next].Sublist l.tokens :=
    (List.prefix_append [first, next] rest).sublist.trans h.suffix.sublist
  have hpair : t.reference first next = Reader.reference first next :=
    reference_eq hl first [next] hsub hwords
  rw [commonName, run_peek_bind, Nat.add_zero, h.skip_one.tokenAt_head, if_pos hnext,
    h.skip_one.run_advance_bind, hpair, StreamM.run_pure]

theorem On.run_properName (hl : l ∈ Line.split t.source) {first : Token} {rest : List Token}
    (h : t.On l more (first :: rest) s) (hfirst : first.kind = .word) :
    let words := rest.takeWhile fun u => u.isCapitalised && t.continuesName u
    (t.properName first).run (s.skip 1) =
      (.ok (Reader.reference first (words.getLast?.getD first)),
        (s.skip 1).skip words.length) := by
  intro words
  have hstop : (l.stop.isCapitalised && t.continuesName l.stop) = false := by
    rw [continuesName_stop, Bool.and_false]
  have hwords : ∀ u ∈ first :: words, u.kind = .word := by
    refine List.forall_mem_cons.mpr ⟨hfirst, fun u hu => ?_⟩
    have hboth := List.mem_takeWhile_imp hu
    exact kind_of_continuesName (Bool.and_eq_true_iff.mp hboth).2
  have hsub : (first :: words).Sublist l.tokens :=
    ((List.takeWhile_prefix _).sublist.cons_cons first).trans h.suffix.sublist
  rw [properName, StreamM.run_bind, h.skip_one.run_passWhile hstop,
    ← reference_eq hl first words hsub hwords]
  rfl

theorem follows_variableRef (hl : l ∈ Line.split t.source) :
    t.Follows l more t.variableRef (t.readerOf l).variableRef := by
  intro ts s hon
  rw [TokenStream.variableRef, run_peek_bind, Nat.add_zero]
  unfold Reader.variableRef
  cases ts with
  | nil =>
    rw [hon.tokenAt_stop, if_pos (by simp [l.kind_stop_ne_word])]
    exact hon.errorHere (if_pos l.endsLine_stop).symm
  | cons first rest =>
    rw [hon.tokenAt_head]
    dsimp only
    split
    next =>
      refine hon.errorHere ?_
      rw [List.headD_cons, if_neg hon.not_endsLine]
    next hword =>
      have hfirst : first.kind = .word := by
        by_contra hkind
        exact hword (by simp [hkind])
      have hself : t.reference first first = Reader.reference first first :=
        reference_eq hl first [] (List.singleton_sublist.mpr hon.mem) (by simpa using hfirst)
      have hon' := hon.skip_one
      rw [hon.run_advance_bind]
      by_cases hpronoun : t.vocabulary.isPronoun first.lexeme = true
      · rw [if_pos hpronoun, if_pos hpronoun, ← hself]
        exact .ok hon'
      by_cases hdeterminer : t.vocabulary.isDeterminer first.lexeme = true
      · rw [if_neg hpronoun, if_neg hpronoun, if_pos hdeterminer, if_pos hdeterminer]
        cases rest with
        | nil =>
          rw [commonName, run_peek_bind, Nat.add_zero, hon'.tokenAt_stop, continuesName_stop]
          exact hon'.errorHere rfl
        | cons next rest =>
          dsimp only
          split
          next hnext =>
            rw [hon.run_commonName hl hfirst hnext]
            exact .ok hon'.skip_one
          next hnext =>
            rw [commonName, run_peek_bind, Nat.add_zero, hon'.tokenAt_head]
            rw [if_neg (c := t.continuesName next = true) hnext]
            exact hon'.errorHere rfl
      rw [if_neg hpronoun, if_neg hpronoun, if_neg hdeterminer, if_neg hdeterminer]
      by_cases hcapital : first.isCapitalised = true
      · rw [if_pos hcapital, if_pos hcapital, hon.run_properName hl hfirst]
        exact .ok (hon'.skip (List.takeWhile_prefix _).length_le)
      · rw [if_neg hcapital, if_neg hcapital, ← hself]
        exact .ok hon'

end Variables

/-! ## Expressions -/

section Expressions

variable {t : TokenStream} {l : Line} {more ts : List Token} {s : Cursor}

/-- The operator is found on the line. A look over its end finds the token that ends it, which is no
word, and so it does not matter what stands behind. -/
theorem On.operator? (h : t.On l more ts s) : t.operator? s = Reader.operator? ts := by
  have hahead : ∀ n u, (ts ++ l.stop :: more)[n]? = some u → t.tokenAt (s.pos + n) = u :=
    fun n u => tokenAt_of_ahead h.ahead
  have hstop : ∀ word, l.stop.isWord word = false := fun word => by simpa using l.isWord_stop
  unfold TokenStream.operator?
  match ts with
  | [] =>
    rw [h.tokenAt_stop]
    exact Reader.operator?_stop l _
  | [a] =>
    rw [h.tokenAt_head, hahead 1 l.stop rfl]
    refine Reader.operator?_congr a ?_
    simp [Reader.comparison?, Token.isWordIn, hstop]
  | [a, b] =>
    rw [h.tokenAt_head, hahead 1 b rfl, hahead 2 l.stop rfl]
    refine Reader.operator?_congr a ?_
    simp [Reader.comparison?, Token.isWordIn, hstop]
  | [a, b, c] =>
    rw [h.tokenAt_head, hahead 1 b rfl, hahead 2 c rfl, hahead 3 l.stop rfl]
    refine Reader.operator?_congr a ?_
    simp [Reader.comparison?, Token.isWordIn, hstop]
  | a :: b :: c :: d :: rest =>
    rw [h.tokenAt_head, hahead 1 b rfl, hahead 2 c rfl, hahead 3 d rfl]
    exact Reader.operator?_congr a rfl

theorem literal?_stop : l.stop.literal? = none := by
  obtain ⟨number, start, text, isLast⟩ := l
  cases isLast <;> rfl

theorem follows_operand (hl : l ∈ Line.split t.source) :
    t.Follows l more t.operand (t.readerOf l).operand := by
  intro ts
  induction ts with
  | nil =>
    intro s hon
    rw [run_operand, hon.tokenAt_stop]
    dsimp only
    rw [literal?_stop, if_neg l.isWord_stop, if_neg (by simp [l.kind_stop_ne_word])]
    exact hon.errorHere (if_pos l.endsLine_stop).symm
  | cons first rest ih =>
    intro s hon
    rw [run_operand, Reader.operand, hon.tokenAt_head]
    dsimp only
    cases hliteral : first.literal? with
    | some value =>
      dsimp only
      rw [hon.run_advance_bind]
      exact .ok hon.skip_one
    | none =>
      dsimp only
      by_cases hnot : first.isWord "not" = true
      · rw [if_pos hnot, if_pos hnot]
        have hrest := (ih _ hon.skip_one).map (Expr.negation first.span)
        generalize (t.readerOf l).operand rest = result at hrest ⊢
        cases result <;> exact hrest
      rw [if_neg hnot, if_neg hnot]
      split
      · have href := (follows_variableRef hl _ _ hon).map Expr.variable
        generalize (t.readerOf l).variableRef (first :: rest) = result at href ⊢
        cases result <;> exact href
      · refine hon.errorHere ?_
        rw [List.headD_cons, if_neg hon.not_endsLine]

theorem follows_continueExpr (hl : l ∈ Line.split t.source) (tree : Expr) :
    t.Follows l more (t.continueExpr tree) ((t.readerOf l).continueExpr tree) := by
  intro ts s hon
  fun_induction (t.readerOf l).continueExpr tree ts generalizing s with
  | case1 tree ts hop =>
    rw [run_continueExpr, hon.operator?, hop]
    exact .ok hon
  | case2 tree ts op width hop right rest hoperand ih =>
    have hright := follows_operand hl _ _ (hon.skip (Reader.width_le_of_operator? hop))
    rw [hoperand] at hright
    obtain ⟨s', hrun, hon'⟩ := hright.of_ok
    rw [run_continueExpr, hon.operator?, hop]
    dsimp only
    rw [StreamM.run_bind, hrun]
    exact ih _ hon'
  | case3 tree ts op width hop f hoperand =>
    have hright := follows_operand hl _ _ (hon.skip (Reader.width_le_of_operator? hop))
    rw [hoperand] at hright
    obtain ⟨s', hrun, hstuck⟩ := hright.of_error
    rw [run_continueExpr, hon.operator?, hop]
    dsimp only
    rw [StreamM.run_bind, hrun]
    exact .error hstuck

theorem follows_expr (hl : l ∈ Line.split t.source) :
    t.Follows l more t.expr (t.readerOf l).expr := by
  intro ts s hon
  have hwhole := (follows_operand hl _ _ hon).bind
    (g := fun p => (t.readerOf l).continueExpr p.1 p.2) (follows_continueExpr hl)
  rw [Reader.expr]
  generalize (t.readerOf l).operand ts = result at hwhole ⊢
  cases result <;> exact hwhole

end Expressions

end TokenStream

end Rockstar
