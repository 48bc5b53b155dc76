import Rockstar.Proofs.Uncommented

/-!
# Lines that read alike

A reader sees of a token its kind and its words, and where it stands; it looks a word up in the
vocabulary; and it cuts references and poetic values out of the line. Two readers whose tokens agree
in all of this (`Reader.Likeness`) take the same steps, whatever else the tokens carry along. They
read the same statement, or both fail, for the same reason and on the same line
(`Reader.Likeness.statement`). The place of a failure may differ by its column where the line ends.

From lines this passes to sources: if their lines read alike one by one, so do they (`parse_alike`).
-/

namespace Rockstar

/-- The same error on the same line, perhaps at another column. -/
structure ParseError.Alike (e e' : ParseError) : Prop where
  cause : e'.cause = e.cause
  line : e'.span.line = e.span.line

theorem ParseError.Alike.refl (e : ParseError) : e.Alike e := ⟨rfl, rfl⟩

/-! ## Tokens -/

/-- Two tokens of one kind and with the same words. -/
structure Token.Like (t t' : Token) : Prop where
  kind : t'.kind = t.kind
  lexeme : t'.lexeme = t.lexeme

namespace Token.Like

variable {t t' : Token} (h : t.Like t')
include h

theorem isWord (word : String) : t'.isWord word = t.isWord word := by
  rw [Token.isWord, Token.isWord, h.kind, h.lexeme]

theorem isWordIn (words : List String) : t'.isWordIn words = t.isWordIn words := by
  rw [Token.isWordIn, Token.isWordIn, funext h.isWord]

theorem isCapitalised : t'.isCapitalised = t.isCapitalised := by
  rw [Token.isCapitalised, Token.isCapitalised, h.lexeme]

theorem literal? : t'.literal? = t.literal? := by
  rw [Token.literal?, Token.literal?, h.kind, h.lexeme]

theorem describe : t'.describe = t.describe := by
  rw [Token.describe, Token.describe, h.kind, h.lexeme]

theorem fault? : t'.fault? = t.fault? := by
  rw [Token.fault?, Token.fault?, h.kind]

theorem missing (expected : String) : Reader.missing expected t' = Reader.missing expected t := by
  rw [Reader.missing, Reader.missing, h.kind, h.describe]

end Token.Like

theorem Token.kind_of_isWordIn {t : Token} {words : List String} (h : t.isWordIn words = true) :
    t.kind = .word := by
  obtain ⟨word, -, hword⟩ := List.any_eq_true.mp h
  simp only [isWord, Bool.and_eq_true, decide_eq_true_eq] at hword
  exact hword.1

/-- Tokens that are related mean the same to both readers: to the first one, those of its line, and
to the second one, those of another. -/
structure Reader.Likeness (T : Token → Token → Prop) (r r' : Reader) : Prop where
  stop : r.stop.Like r'.stop
  stopLine : r'.stop.span.line = r.stop.span.line
  like : ∀ {t t'}, T t t' → t.Like t'
  span : ∀ {t t'}, T t t' → t'.span = t.span
  keyword : ∀ {t t'}, T t t' → t.kind = .word →
    r'.vocabulary.isKeyword t.lexeme = r.vocabulary.isKeyword t.lexeme
  pronoun : ∀ {t t'}, T t t' → t.kind = .word →
    r'.vocabulary.isPronoun t.lexeme = r.vocabulary.isPronoun t.lexeme
  determiner : ∀ {t t'}, T t t' → t.kind = .word →
    r'.vocabulary.isDeterminer t.lexeme = r.vocabulary.isDeterminer t.lexeme
  reference : ∀ {t t' u u'}, T t t' → T u u' → t.kind = .word → u.kind = .word →
    Reader.reference t' u' = Reader.reference t u
  number : ∀ {t t'}, T t t' → t.kind = .word →
    Poetic.number? t'.behind = Poetic.number? t.behind
  text : ∀ {t t'}, T t t' → t.kind = .word → Text.trim t'.behind = Text.trim t.behind
  speech : ∀ {t t'}, T t t' → t.kind = .word → Poetic.string t'.behind = Poetic.string t.behind

section Lists

variable {α : Type} {R : α → α → Prop} {as bs : List α} {p q : α → Bool}

theorem forall₂_takeWhile (h : List.Forall₂ R as bs) (hpq : ∀ a b, R a b → q b = p a) :
    List.Forall₂ R (as.takeWhile p) (bs.takeWhile q) := by
  induction h with
  | nil => exact .nil
  | @cons a b as bs hab _ ih =>
    rw [List.takeWhile_cons, List.takeWhile_cons, hpq a b hab]
    split
    · exact .cons hab ih
    · exact .nil

theorem forall₂_dropWhile (h : List.Forall₂ R as bs) (hpq : ∀ a b, R a b → q b = p a) :
    List.Forall₂ R (as.dropWhile p) (bs.dropWhile q) := by
  induction h with
  | nil => exact .nil
  | @cons a b as bs hab hrest ih =>
    rw [List.dropWhile_cons, List.dropWhile_cons, hpq a b hab]
    split
    · exact ih
    · exact .cons hab hrest

theorem rel_getLast?_getD (h : List.Forall₂ R as bs) {a b : α} (hab : R a b) :
    R (as.getLast?.getD a) (bs.getLast?.getD b) := by
  induction h generalizing a b with
  | nil => exact hab
  | @cons c d as bs hcd hrest ih =>
    rw [List.getLast?_cons, List.getLast?_cons]
    exact ih hcd

theorem all_eq_of_forall₂ (h : List.Forall₂ R as bs) (hpq : ∀ a b, R a b → q b = p a) :
    bs.all q = as.all p := by
  induction h with
  | nil => rfl
  | @cons a b as bs hab _ ih => rw [List.all_cons, List.all_cons, hpq a b hab, ih]

end Lists

/-! ## Readers -/

/-- What two readers make of tokens that are alike: related results, or the same error on the same
line, with tokens behind it that are alike. -/
inductive Alike (T : Token → Token → Prop) {α : Type} (R : α → α → Prop) :
    Except Failure (α × List Token) → Except Failure (α × List Token) → Prop where
  | ok {a a' : α} {rest rest' : List Token} : R a a' → List.Forall₂ T rest rest' →
      Alike T R (.ok (a, rest)) (.ok (a', rest'))
  | error {e e' : ParseError} {rest rest' : List Token} : e.Alike e' → List.Forall₂ T rest rest' →
      Alike T R (.error ⟨e, rest⟩) (.error ⟨e', rest'⟩)

namespace Alike

variable {T : Token → Token → Prop} {α β : Type} {R : α → α → Prop} {S : β → β → Prop}

theorem bind {x x' : Except Failure (α × List Token)}
    {g g' : α × List Token → Except Failure (β × List Token)} (h : Alike T R x x')
    (hg : ∀ a a' rest rest', R a a' → List.Forall₂ T rest rest' →
      Alike T S (g (a, rest)) (g' (a', rest'))) : Alike T S (x >>= g) (x' >>= g') := by
  cases h with
  | ok ha hrest => exact hg _ _ _ _ ha hrest
  | error he hrest => exact .error he hrest

/-- A choice that falls on the same side. -/
theorem ite {c c' : Prop} [Decidable c] [Decidable c'] (hc : c' ↔ c)
    {x x' y y' : Except Failure (α × List Token)} (hx : c → Alike T R x x')
    (hy : ¬c → Alike T R y y') : Alike T R (if c then x else y) (if c' then x' else y') := by
  by_cases h : c
  · rw [if_pos h, if_pos (hc.mpr h)]
    exact hx h
  · rw [if_neg h, if_neg (mt hc.mp h)]
    exact hy h

end Alike

namespace Reader.Likeness

variable {T : Token → Token → Prop} {r r' : Reader} (h : Likeness T r r') {t t' : Token}
  {ts ts' : List Token}
include h

theorem isReserved (ht : T t t') (hword : t.kind = .word) :
    r'.vocabulary.isReserved t.lexeme = r.vocabulary.isReserved t.lexeme := by
  rw [Vocabulary.isReserved, Vocabulary.isReserved, h.keyword ht hword, h.pronoun ht hword,
    h.determiner ht hword]

theorem continuesName (ht : T t t') : r'.continuesName t' = r.continuesName t := by
  unfold Reader.continuesName
  rw [(h.like ht).kind, (h.like ht).lexeme]
  by_cases hword : t.kind = .word
  · rw [h.isReserved ht hword]
  · simp [hword]

theorem failAt {α : Type} {R : α → α → Prop} (hts : List.Forall₂ T ts ts')
    {cause : Token → ParseCause} (hcause : ∀ t t', t.Like t' → cause t' = cause t) :
    Alike T R (.error (r.failAt ts cause)) (.error (r'.failAt ts' cause)) := by
  cases hts with
  | nil => exact .error ⟨hcause _ _ h.stop, h.stopLine⟩ .nil
  | @cons t t' rest rest' ht hrest =>
    unfold Reader.failAt
    dsimp only
    rw [(h.like ht).kind, hcause t t' (h.like ht), h.span ht]
    split
    · exact .error (.refl _) hrest
    · exact .error (.refl _) hrest

theorem word (word : String) (hts : List.Forall₂ T ts ts') :
    Alike T (fun _ _ => True) (r.word word ts) (r'.word word ts') := by
  have hfail : Alike T (fun (_ _ : Token) => True)
      (.error (r.failAt ts (missing s!"'{word}'")))
      (.error (r'.failAt ts' (missing s!"'{word}'"))) :=
    h.failAt hts fun _ _ hlike => hlike.missing _
  cases hts with
  | nil => exact hfail
  | cons ht hrest =>
    exact .ite (by rw [(h.like ht).isWord]) (fun _ => .ok trivial hrest) fun _ => hfail

theorem variableRef (hts : List.Forall₂ T ts ts') :
    Alike T Eq (r.variableRef ts) (r'.variableRef ts') := by
  have hfail : ∀ {us us' : List Token}, List.Forall₂ T us us' →
      Alike T (@Eq Variable) (.error (r.failAt us fun t => .expectedVariable t.describe))
        (.error (r'.failAt us' fun t => .expectedVariable t.describe)) := fun hus =>
    h.failAt hus fun _ _ hlike => by rw [hlike.describe]
  cases hts with
  | nil => exact h.failAt .nil fun _ _ _ => rfl
  | @cons first first' rest rest' hfirst hrest =>
    have hlike := h.like hfirst
    unfold Reader.variableRef
    dsimp only
    by_cases hword : first.kind = .word
    · rw [hlike.kind, hlike.lexeme, h.keyword hfirst hword, h.pronoun hfirst hword,
        h.determiner hfirst hword, hlike.isCapitalised]
      have hself := h.reference hfirst hfirst hword hword
      refine .ite Iff.rfl (fun _ => hfail (.cons hfirst hrest)) fun _ => ?_
      refine .ite Iff.rfl (fun _ => .ok hself.symm hrest) fun _ => ?_
      refine .ite Iff.rfl (fun _ => ?_) fun _ => .ite Iff.rfl (fun _ => ?_) fun _ =>
        .ok hself.symm hrest
      · cases hrest with
        | nil => exact hfail .nil
        | @cons next next' rest rest' hnext hrest =>
          refine .ite (by rw [h.continuesName hnext]) (fun hname => .ok ?_ hrest) fun _ =>
            hfail (.cons hnext hrest)
          have hnextWord : next.kind = .word := by
            simp only [Reader.continuesName, Bool.and_eq_true, decide_eq_true_eq] at hname
            exact hname.1
          exact (h.reference hfirst hnext hword hnextWord).symm
      · -- the words of the name are alike, so its last ones are
        have hmore : List.Forall₂ T
            (rest.takeWhile fun t => t.isCapitalised && r.continuesName t)
            (rest'.takeWhile fun t => t.isCapitalised && r'.continuesName t) :=
          forall₂_takeWhile hrest fun t t' ht => by
            rw [(h.like ht).isCapitalised, h.continuesName ht]
        have hlast : ((rest.takeWhile fun t => t.isCapitalised && r.continuesName t).getLast?.getD
            first).kind = .word := by
          cases hlast : (rest.takeWhile fun t => t.isCapitalised && r.continuesName t).getLast? with
          | none => exact hword
          | some last =>
            have hname := List.mem_takeWhile_imp (List.mem_of_getLast? hlast)
            simp only [Reader.continuesName, Bool.and_eq_true, decide_eq_true_eq] at hname
            exact hname.2.1
        rw [hmore.length_eq]
        exact .ok (h.reference hfirst (rel_getLast?_getD hmore hfirst) hword hlast).symm
          (List.forall₂_drop _ hrest)
    · have hnone : (decide (first.kind ≠ .word) || r.vocabulary.isKeyword first.lexeme) = true := by
        simp [hword]
      have hnone' : (decide (first'.kind ≠ .word) || r'.vocabulary.isKeyword first'.lexeme) =
          true := by
        simp [hlike.kind, hword]
      rw [if_pos hnone, if_pos hnone']
      exact hfail (.cons hfirst hrest)

theorem comparison? (hts : List.Forall₂ T ts ts') :
    Reader.comparison? ts' = Reader.comparison? ts := by
  cases hts with
  | nil => rfl
  | cons ha hrest =>
    cases hrest with
    | nil => simp only [Reader.comparison?, (h.like ha).isWord]
    | cons hb hrest =>
      cases hrest with
      | nil =>
        simp only [Reader.comparison?, (h.like ha).isWord, (h.like ha).isWordIn,
          (h.like hb).isWord]
      | cons hc hrest =>
        simp only [Reader.comparison?, (h.like ha).isWord, (h.like ha).isWordIn,
          (h.like hb).isWord, (h.like hb).isWordIn, (h.like hc).isWord]

theorem operator? (hts : List.Forall₂ T ts ts') : Reader.operator? ts' = Reader.operator? ts := by
  cases hts with
  | nil => rfl
  | cons ht hrest =>
    simp only [Reader.operator?, (h.like ht).kind, (h.like ht).isWord, (h.like ht).lexeme,
      h.comparison? hrest]

theorem operand (hts : List.Forall₂ T ts ts') :
    Alike T Eq (r.operand ts) (r'.operand ts') := by
  induction hts with
  | nil => exact h.failAt .nil fun _ _ _ => rfl
  | @cons t t' rest rest' ht hrest ih =>
    have hlike := h.like ht
    rw [Reader.operand, Reader.operand, hlike.literal?]
    cases t.literal? with
    | some value => exact .ok (by rw [h.span ht]) hrest
    | none =>
      refine .ite (by rw [hlike.isWord]) (fun _ => ?_) fun _ => .ite ?_ (fun _ => ?_) fun _ =>
        h.failAt (.cons ht hrest) fun _ _ hlike => by rw [hlike.describe]
      · revert ih
        generalize r.operand rest = x
        generalize r'.operand rest' = x'
        intro ih
        cases ih with
        | ok he hrest => exact .ok (by rw [he, h.span ht]) hrest
        | error he hrest => exact .error he hrest
      · rw [hlike.kind, hlike.lexeme]
        by_cases hword : t.kind = .word
        · rw [h.keyword ht hword]
        · simp [hword]
      · have hvariable := h.variableRef (.cons ht hrest)
        revert hvariable
        generalize r.variableRef (t :: rest) = x
        generalize r'.variableRef (t' :: rest') = x'
        intro hvariable
        cases hvariable with
        | ok hv hrest => exact .ok (by rw [hv]) hrest
        | error he hrest => exact .error he hrest

theorem continueExpr (tree : Expr) (hts : List.Forall₂ T ts ts') :
    Alike T Eq (r.continueExpr tree ts) (r'.continueExpr tree ts') := by
  fun_induction r.continueExpr tree ts generalizing ts' with
  | case1 tree ts hop =>
    rw [Reader.continueExpr.eq_def r' tree, h.operator? hts, hop]
    exact .ok rfl hts
  | case2 tree ts op width hop right rest hoperand ih =>
    -- the operator is the same for both readers, and so is the width of its words
    have hright := h.operand (List.forall₂_drop width hts)
    rw [hoperand] at hright
    rw [Reader.continueExpr.eq_def r' tree, h.operator? hts, hop]
    dsimp only
    split
    next right' rest' hoperand' =>
      rw [hoperand'] at hright
      cases hright with
      | ok hsame hrest =>
        rw [← hsame]
        exact ih hrest
    next f hoperand' =>
      rw [hoperand'] at hright
      cases hright
  | case3 tree ts op width hop f hoperand =>
    have hright := h.operand (List.forall₂_drop width hts)
    rw [hoperand] at hright
    rw [Reader.continueExpr.eq_def r' tree, h.operator? hts, hop]
    dsimp only
    split
    next right' rest' hoperand' =>
      rw [hoperand'] at hright
      cases hright
    next f' hoperand' =>
      rw [hoperand'] at hright
      cases hright with
      | error he hrest => exact .error he hrest

theorem expr (hts : List.Forall₂ T ts ts') : Alike T Eq (r.expr ts) (r'.expr ts') := by
  have hfirst := h.operand hts
  unfold Reader.expr
  revert hfirst
  generalize r.operand ts = x
  generalize r'.operand ts' = x'
  intro hfirst
  cases hfirst with
  | ok he hrest =>
    rw [← he]
    exact h.continueExpr _ hrest
  | error he hrest => exact .error he hrest

/-! ## Statements -/

theorem putStatement (start : Span) (hts : List.Forall₂ T ts ts') :
    Alike T Eq (r.putStatement start ts) (r'.putStatement start ts') := by
  refine .bind (h.expr hts) fun value value' ts ts' hvalue hts => ?_
  refine .bind (h.word "into" hts) fun _ _ ts ts' _ hts => ?_
  refine .bind (h.variableRef hts) fun target target' ts ts' htarget hts => ?_
  exact .ok (by rw [hvalue, htarget]) hts

theorem letStatement (start : Span) (hts : List.Forall₂ T ts ts') :
    Alike T Eq (r.letStatement start ts) (r'.letStatement start ts') := by
  refine .bind (h.variableRef hts) fun target target' ts ts' htarget hts => ?_
  refine .bind (h.word "be" hts) fun _ _ ts ts' _ hts => ?_
  refine .bind (h.expr hts) fun value value' ts ts' hvalue hts => ?_
  exact .ok (by rw [hvalue, htarget]) hts

theorem outputStatement (verb : Verb) (start : Span) (hts : List.Forall₂ T ts ts') :
    Alike T Eq (r.outputStatement verb start ts) (r'.outputStatement verb start ts') := by
  refine .bind (h.expr hts) fun value value' ts ts' hvalue hts => ?_
  exact .ok (by rw [hvalue]) hts

theorem countSteps (word : String) (count : Nat) (last : Span) (hts : List.Forall₂ T ts ts') :
    (Reader.countSteps word count last ts').1 = (Reader.countSteps word count last ts).1 ∧
      (Reader.countSteps word count last ts').2.1 = (Reader.countSteps word count last ts).2.1 ∧
      List.Forall₂ T (Reader.countSteps word count last ts).2.2
        (Reader.countSteps word count last ts').2.2 := by
  induction hts generalizing count last with
  | nil => exact ⟨rfl, rfl, .nil⟩
  | @cons t t' ts ts' ht hts ih =>
    have hhead : ts'.head?.any (·.isWord word) = ts.head?.any (·.isWord word) := by
      cases hts with
      | nil => rfl
      | cons hu _ => exact (h.like hu).isWord word
    rw [Reader.countSteps, Reader.countSteps, hhead, (h.like ht).isWord, (h.like ht).kind,
      h.span ht]
    split
    · exact ih _ _
    · split
      · exact ih _ _
      · exact ⟨rfl, rfl, .cons ht hts⟩

theorem stepStatement (direction : Direction) (start : Span) (hts : List.Forall₂ T ts ts') :
    Alike T Eq (r.stepStatement direction start ts) (r'.stepStatement direction start ts') := by
  refine .bind (h.variableRef hts) fun target target' ts ts' htarget hts => ?_
  subst htarget
  obtain ⟨hcount, hlast, hrest⟩ := h.countSteps direction.word 0 target.span hts
  dsimp only
  rw [hcount, hlast]
  refine .ite Iff.rfl (fun _ => ?_) fun _ => .ok rfl hrest
  exact h.failAt hts fun _ _ hlike => hlike.missing _

theorem spanTo (ht : T t t') (hts : List.Forall₂ T ts ts') :
    Reader.spanTo t' ts' = Reader.spanTo t ts := by
  cases hts with
  | nil => exact h.span ht
  | cons hu hus =>
    have hlast := h.span (rel_getLast?_getD hus hu)
    simp only [Reader.spanTo, List.getLast?_cons]
    rw [h.span ht, hlast]

theorem isValue (hverb : T t t') (hword : t.kind = .word) (hts : List.Forall₂ T ts ts') :
    Alike T Eq (r.isValue t ts) (r'.isValue t' ts') := by
  cases hts with
  | nil => exact h.failAt .nil fun _ _ _ => rfl
  | @cons first first' rest rest' hfirst hrest =>
    have halone : rest'.all (·.kind.isTrailing) = rest.all (·.kind.isTrailing) :=
      all_eq_of_forall₂ hrest fun _ _ ht => by rw [(h.like ht).kind]
    unfold Reader.isValue
    dsimp only
    rw [(h.like hfirst).kind, (h.like hfirst).literal?, h.span hfirst, halone,
      h.spanTo hfirst hrest, h.number hverb hword, h.text hverb hword]
    split
    · exact .error (.refl _) hrest
    · split
      · exact .ok rfl hrest
      · split
        · exact .ok rfl .nil
        · exact .error (.refl _) .nil

theorem spokenValue (hverb : T t t') (hword : t.kind = .word) (hts : List.Forall₂ T ts ts') :
    Reader.spokenValue t' ts' = Reader.spokenValue t ts := by
  unfold Reader.spokenValue
  rw [h.spanTo hverb hts, h.speech hverb hword]

theorem nameStatement (hts : List.Forall₂ T ts ts') :
    Alike T Eq (r.nameStatement ts) (r'.nameStatement ts') := by
  refine .bind (h.variableRef hts) fun target target' ts ts' htarget hts => ?_
  subst htarget
  have hwrong : Alike T (@Eq Statement)
      (.error (r.failAt ts fun t => .expectedToken "'is' or 'says'" t.describe))
      (.error (r'.failAt ts' fun t => .expectedToken "'is' or 'says'" t.describe)) :=
    h.failAt hts fun _ _ hlike => by rw [hlike.describe]
  cases hts with
  | nil => exact hwrong
  | @cons verb verb' rest rest' hverb hrest =>
    have hlike := h.like hverb
    refine .ite (by rw [hlike.isWordIn]) (fun his => ?_) fun _ =>
      .ite (by rw [hlike.isWordIn]) (fun hsays => ?_) fun _ => hwrong
    · refine .bind (h.isValue hverb (Token.kind_of_isWordIn his) hrest)
        fun value value' rest rest' hvalue hrest => ?_
      exact .ok (by rw [hvalue]) hrest
    · exact .ok (by rw [h.spokenValue hverb (Token.kind_of_isWordIn hsays) hrest]) .nil

/-- Both readers read the same statement, or fail for the same reason. -/
theorem statement (hts : List.Forall₂ T ts ts') :
    Alike T Eq (r.statement ts) (r'.statement ts') := by
  have hunknown : Alike T (@Eq Statement)
      (.error (r.failAt ts fun t => .expectedStatement t.describe))
      (.error (r'.failAt ts' fun t => .expectedStatement t.describe)) :=
    h.failAt hts fun _ _ hlike => by rw [hlike.describe]
  have hname := h.nameStatement hts
  cases hts with
  | nil => exact hunknown
  | @cons t t' rest rest' ht hrest =>
    have hlike := h.like ht
    unfold Reader.statement
    dsimp only
    refine .ite (by rw [hlike.kind]) (fun _ => hunknown) fun hword => ?_
    replace hword : t.kind = .word := by simpa using hword
    rw [h.span ht, hlike.lexeme, h.keyword ht hword]
    refine .ite (by rw [hlike.isWord]) (fun _ => h.putStatement t.span hrest) fun _ => ?_
    refine .ite (by rw [hlike.isWord]) (fun _ => h.letStatement t.span hrest) fun _ => ?_
    cases Verb.ofWord? t.lexeme with
    | some verb => exact h.outputStatement verb t.span hrest
    | none =>
      refine .ite (by rw [hlike.isWord]) (fun _ => h.stepStatement .up t.span hrest) fun _ => ?_
      refine .ite (by rw [hlike.isWord]) (fun _ => h.stepStatement .down t.span hrest) fun _ => ?_
      exact .ite Iff.rfl (fun _ => hunknown) fun _ => hname

end Reader.Likeness

/-! ## Lines and sources -/

/-- What two lines are read as, if they read alike. -/
inductive ReadAlike : Option (Except (List ParseError) Statement) →
    Option (Except (List ParseError) Statement) → Prop where
  | blank : ReadAlike none none
  | ok (stmt : Statement) : ReadAlike (some (.ok stmt)) (some (.ok stmt))
  | error {es es' : List ParseError} : List.Forall₂ ParseError.Alike es es' →
      ReadAlike (some (.error es)) (some (.error es'))

namespace Reader.Likeness

variable {T : Token → Token → Prop} {r r' : Reader} (h : Likeness T r r')
include h

/-- The errors of a line: the first one, and the faults behind it. -/
theorem errors {α : Type} {R : α → α → Prop} {f f' : Failure}
    (hf : Alike T R (.error f) (.error f')) :
    List.Forall₂ ParseError.Alike
      (f.error :: (f.rest.filterMap Token.fault?).map ParseError.ofScan)
      (f'.error :: (f'.rest.filterMap Token.fault?).map ParseError.ofScan) := by
  cases hf with
  | @error e e' rest rest' he hrest =>
    have hfaults : rest'.filterMap Token.fault? = rest.filterMap Token.fault? := by
      induction hrest with
      | nil => rfl
      | cons ht _ ih => rw [List.filterMap_cons, List.filterMap_cons, (h.like ht).fault?, ih]
    dsimp only
    rw [hfaults]
    exact .cons he (List.forall₂_same.mpr fun e _ => .refl e)

end Reader.Likeness

/-- Lines with tokens that are alike read alike. -/
theorem Line.readAlike {T : Token → Token → Prop} {v v' : Vocabulary} {l l' : Line}
    (h : Reader.Likeness T ⟨v, l.stop⟩ ⟨v', l'.stop⟩)
    (htokens : List.Forall₂ T l.tokens l'.tokens) :
    ReadAlike (l.statement? v) (l'.statement? v') := by
  unfold statement?
  revert htokens
  generalize l.tokens = ts
  generalize l'.tokens = ts'
  intro htokens
  have hread := h.statement htokens
  cases htokens with
  | nil => exact .blank
  | cons ht hts =>
    dsimp only [Reader.wholeLine]
    revert hread
    generalize Reader.statement _ _ = x
    generalize Reader.statement _ _ = x'
    intro hread
    cases hread with
    | error he hrest => exact .error (h.errors (.error (R := @Eq Statement) he hrest))
    | @ok stmt stmt' rest rest' hsame hrest =>
      subst hsame
      have hdrop : List.Forall₂ T (rest.dropWhile (·.kind.isTrailing))
          (rest'.dropWhile (·.kind.isTrailing)) :=
        forall₂_dropWhile hrest fun _ _ ht => by rw [(h.like ht).kind]
      simp only [bind, Except.bind]
      revert hdrop
      generalize rest.dropWhile _ = left
      generalize rest'.dropWhile _ = left'
      intro hdrop
      cases hdrop with
      | nil => exact .ok stmt
      | cons hu hus =>
        -- something is left over on both lines
        exact .error (h.errors (R := @Eq Statement) (h.failAt (.cons hu hus)
          fun _ _ hlike => by rw [hlike.describe]))

section Sources

variable {v v' : Vocabulary}

theorem alike_lines {lines lines' : List Line}
    (h : List.Forall₂ (fun l l' => ReadAlike (l.statement? v) (l'.statement? v')) lines lines') :
    List.Forall₂ ParseError.Alike (errorsOf v lines) (errorsOf v' lines') ∧
      statementsOf v' lines' = statementsOf v lines := by
  induction h with
  | nil => exact ⟨.nil, rfl⟩
  | @cons l l' lines lines' hline _ ih =>
    obtain ⟨herrors, hstmts⟩ := ih
    rw [errorsOf_cons, errorsOf_cons, statementsOf_cons, statementsOf_cons, hstmts]
    revert hline
    generalize l.statement? v = x
    generalize l'.statement? v' = x'
    intro hline
    cases hline with
    | blank => exact ⟨herrors, rfl⟩
    | ok stmt => exact ⟨herrors, rfl⟩
    | error hes => exact ⟨List.rel_append hes herrors, rfl⟩

/-- Sources whose lines read alike are the same program, or have the same errors on the same
lines. -/
theorem parse_alike {source source' : List Char}
    (h : List.Forall₂ (fun l l' => ReadAlike (l.statement? v) (l'.statement? v'))
      (Line.split source) (Line.split source')) :
    (∃ program, parse v source = .ok program ∧ parse v' source' = .ok program) ∨
      ∃ es es', parse v source = .error es ∧ parse v' source' = .error es' ∧
        List.Forall₂ ParseError.Alike es es' := by
  obtain ⟨herrors, hstmts⟩ := alike_lines h
  rw [parse_eq, parse_eq, isEmpty_of_forall₂ herrors, hstmts]
  by_cases hnone : (errorsOf v (Line.split source)).isEmpty = true
  · rw [if_pos hnone, if_pos hnone]
    exact .inl ⟨_, rfl, rfl⟩
  · rw [if_neg hnone, if_neg hnone]
    exact .inr ⟨_, _, rfl, rfl, herrors⟩

end Sources

end Rockstar
