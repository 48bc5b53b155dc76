import Rockstar.Proofs.LineByLine
import Rockstar.Proofs.Precedence

/-!
# Faults that readers meet

Reading a line goes from token to token, and the token at which it fails is the place of its error.
A fault of the scanner at that token is the error itself, and the faults behind it are left to be
reported. `Reader.Accounts` says this of every reader: no fault is passed over in silence. The one
exception are the tokens behind the verb of a line that begins with a variable (`Reader.assigned`),
for which the raw text of the line is read instead.
-/

namespace Rockstar

/-! ## Tokens that are faults -/

namespace Token

theorem fault?_of_word {t : Token} (h : t.kind = .word) : t.fault? = none := by
  simp [fault?, h]

theorem fault?_of_isWord {t : Token} {word : String} (h : t.isWord word = true) :
    t.fault? = none := by
  obtain ⟨hkind, -⟩ : t.kind = .word ∧ foldCase t.lexeme = word := by simpa [isWord] using h
  exact fault?_of_word hkind

theorem fault?_of_isWordIn {t : Token} {words : List String} (h : t.isWordIn words = true) :
    t.fault? = none := by
  obtain ⟨word, -, hword⟩ := List.any_eq_true.mp h
  exact fault?_of_isWord hword

theorem fault?_of_literal {t : Token} {v : Value} (h : t.literal? = some v) : t.fault? = none := by
  unfold literal? at h
  unfold fault?
  split at h <;> simp_all

theorem fault?_of_isTrailing {t : Token} (h : t.kind.isTrailing = true) : t.fault? = none := by
  unfold fault?
  cases hkind : t.kind <;> simp_all [TokenKind.isTrailing]

theorem fault?_eq_some_iff {t : Token} {e : ScanError} : t.fault? = some e ↔ t.kind = .fault e := by
  unfold fault?
  cases t.kind <;> simp

theorem fault?_eq_none {t : Token} (h : ∀ e, t.kind ≠ .fault e) : t.fault? = none := by
  cases hfault : t.fault? with
  | none => rfl
  | some e => exact absurd (fault?_eq_some_iff.mp hfault) (h e)

end Token

theorem BinaryOp.Spelled.fault? {op : BinaryOp} {ts : List Token} (h : op.Spelled ts) :
    ∀ t ∈ ts, t.fault? = none := by
  cases h with
  | @symbol t hsymbol =>
    intro u hu
    obtain rfl := List.mem_singleton.mp hu
    refine Token.fault?_eq_none fun e he => ?_
    rw [he] at hsymbol
    unfold BinaryOp.symbol? at hsymbol
    split at hsymbol <;> cases hsymbol
  | words hmem hspelled =>
    clear hmem
    induction hspelled with
    | nil =>
      intro t ht
      cases ht
    | cons hword _ ih => exact List.forall_mem_cons.mpr ⟨Token.fault?_of_isWord hword, ih⟩

/-! ## What becomes of faults -/

/-- The error stands at the token: it is the fault of the token, if that is one. -/
def ParseError.At (e : ParseError) (t : Token) : Prop :=
  match t.fault? with
  | some s => e = .ofScan s
  | none => e.cause.kind ≠ .scan ∧ e.span.line = t.span.line ∧ e.span.col = t.span.col

theorem ParseError.at_of_fault {t : Token} {s : ScanError} (h : t.fault? = some s) :
    (ParseError.ofScan s).At t := by
  simp only [At, h]

theorem ParseError.at_of_sound {t : Token} {e : ParseError} (h : t.fault? = none)
    (hkind : e.cause.kind ≠ .scan) (hline : e.span.line = t.span.line)
    (hcol : e.span.col = t.span.col) : e.At t := by
  unfold At
  rw [h]
  exact ⟨hkind, hline, hcol⟩

/-- A failure of reading these tokens. Its error stands at one of them, or where the line ends, and
what is left stands behind it. Every fault is the error or is left, but for those of the tokens in
`literal`. -/
structure Failure.Accounts (stop : Token) (ts literal : List Token) (f : Failure) : Prop where
  place : (∃ front t back, ts = front ++ t :: back ∧ f.error.At t ∧ f.rest <:+ back) ∨
    f.error.cause.kind ≠ .scan ∧ f.error.span = stop.span ∧ f.rest = []
  kept : ∀ t ∈ ts, ∀ e, t.fault? = some e → t ∈ literal ∨ f.error = .ofScan e ∨ t ∈ f.rest

namespace Reader

variable {α β : Type} {r : Reader} {ts rest front literal : List Token}

/-- What comes of reading these tokens accounts for their faults: those that were passed over are
among the tokens in `literal`. -/
def Accounts (r : Reader) (ts literal : List Token) : Except Failure (α × List Token) → Prop
  | .ok (_, rest) => ∃ front, ts = front ++ rest ∧ ∀ t ∈ front, t.fault? = none ∨ t ∈ literal
  | .error f => f.Accounts r.stop ts literal

theorem accounts_ok (front : List Token) (a : α) (h : ∀ t ∈ front, t.fault? = none) :
    r.Accounts (front ++ rest) literal (.ok (a, rest)) :=
  ⟨front, rfl, fun t ht => .inl (h t ht)⟩

/-- Tokens may stand in front that are no faults or belong to the literal. -/
theorem Accounts.append {x : Except Failure (α × List Token)} (h : r.Accounts ts literal x)
    (hfront : ∀ t ∈ front, t.fault? = none ∨ t ∈ literal) :
    r.Accounts (front ++ ts) literal x := by
  cases x with
  | ok result =>
    obtain ⟨more, rfl, hmore⟩ := h
    exact ⟨front ++ more, by rw [List.append_assoc],
      fun t ht => (List.mem_append.mp ht).elim (hfront t) (hmore t)⟩
  | error f =>
    obtain ⟨hplace, hkept⟩ := h
    refine ⟨hplace.imp_left ?_, fun t ht e he => ?_⟩
    · rintro ⟨before, t, back, rfl, hat, hrest⟩
      exact ⟨front ++ before, t, back, by rw [List.append_assoc], hat, hrest⟩
    · rcases List.mem_append.mp ht with hold | hnew
      · refine .inl ((hfront t hold).resolve_left fun hnone => ?_)
        rw [hnone] at he
        cases he
      · exact hkept t hnew e he

theorem Accounts.cons {x : Except Failure (α × List Token)} {t : Token}
    (h : r.Accounts ts literal x) (ht : t.fault? = none) : r.Accounts (t :: ts) literal x := by
  have hfront : ∀ u ∈ [t], u.fault? = none ∨ u ∈ literal := by
    intro u hu
    rw [List.mem_singleton.mp hu]
    exact .inl ht
  exact h.append hfront

theorem Accounts.mono {x : Except Failure (α × List Token)} (h : r.Accounts ts [] x) :
    r.Accounts ts literal x := by
  cases x with
  | ok result =>
    obtain ⟨front, hts, hfront⟩ := h
    exact ⟨front, hts, fun t ht => .inl ((hfront t ht).resolve_right List.not_mem_nil)⟩
  | error f =>
    exact ⟨h.place, fun t ht e he => .inr ((h.kept t ht e he).resolve_left List.not_mem_nil)⟩

/-- Reading goes on with what is left. -/
theorem Accounts.bind {x : Except Failure (α × List Token)}
    {g : α × List Token → Except Failure (β × List Token)} (hx : r.Accounts ts literal x)
    (hg : ∀ a rest, x = .ok (a, rest) → r.Accounts rest literal (g (a, rest))) :
    r.Accounts ts literal (x >>= g) := by
  cases x with
  | error f => exact hx
  | ok result =>
    obtain ⟨front, rfl, hfront⟩ := hx
    exact (hg result.1 result.2 rfl).append hfront

/-- Only the tokens that are left matter. -/
theorem Accounts.map {x : Except Failure (α × List Token)} (h : r.Accounts ts literal x)
    (g : α → β) : r.Accounts ts literal (x.map fun a => (g a.1, a.2)) := by
  cases x with
  | ok result => exact h
  | error f => exact h

/-! ## Readers of parts -/

/-- A fault goes before any other cause. -/
theorem accounts_failAt (r : Reader) (ts : List Token) {cause : Token → ParseCause}
    (hcause : ∀ t, (cause t).kind ≠ .scan) :
    r.Accounts ts literal (.error (r.failAt ts cause) : Except Failure (α × List Token)) := by
  cases ts with
  | nil => exact ⟨.inr ⟨hcause _, rfl, rfl⟩, by simp⟩
  | cons t rest =>
    unfold failAt
    dsimp only
    split
    next e he =>
      have hfault := Token.fault?_eq_some_iff.mpr he
      have hat := ParseError.at_of_fault hfault
      refine ⟨.inl ⟨[], t, rest, rfl, hat, List.suffix_rfl⟩, fun u hu e' he' => ?_⟩
      rcases List.mem_cons.mp hu with rfl | hrest
      · rw [hfault] at he'
        cases he'
        exact .inr (.inl rfl)
      · exact .inr (.inr hrest)
    next hkind =>
      have hfault := Token.fault?_eq_none fun e he => hkind e he
      refine ⟨.inl ⟨[], t, rest, rfl, ?_, List.suffix_rfl⟩, fun u hu e' he' => ?_⟩
      · exact ParseError.at_of_sound hfault (hcause t) rfl rfl
      · rcases List.mem_cons.mp hu with rfl | hrest
        · rw [hfault] at he'
          cases he'
        · exact .inr (.inr hrest)

theorem kind_missing (expected : String) (t : Token) : (missing expected t).kind ≠ .scan := by
  unfold missing
  split <;> rintro ⟨⟩

theorem accounts_word (r : Reader) (w : String) (ts : List Token) :
    r.Accounts ts [] (r.word w ts) := by
  unfold word
  split
  next t rest =>
    split
    next hword => exact accounts_ok [t] t (by simp [Token.fault?_of_isWord hword])
    next => exact accounts_failAt r _ (kind_missing _)
  next => exact accounts_failAt r _ (kind_missing _)

theorem fault?_of_continuesName {t : Token} (h : r.continuesName t = true) : t.fault? = none := by
  unfold continuesName at h
  simp only [Bool.and_eq_true, decide_eq_true_eq] at h
  exact Token.fault?_of_word h.1

theorem accounts_variableRef (r : Reader) (ts : List Token) :
    r.Accounts ts [] (r.variableRef ts) := by
  cases ts with
  | nil => exact accounts_failAt r [] (by rintro _ ⟨⟩)
  | cons first rest =>
    unfold variableRef
    dsimp only
    split
    next => exact accounts_failAt r _ (by rintro _ ⟨⟩)
    next hname =>
      have hfirst : first.fault? = none := by
        refine Token.fault?_of_word ?_
        simp only [Bool.or_eq_true, decide_eq_true_eq, not_or, not_not] at hname
        exact hname.1
      split
      next => exact accounts_ok [first] _ (by simpa using hfirst)
      next =>
        split
        next =>
          refine Accounts.cons ?_ hfirst
          split
          next next rest' =>
            split
            next hnext =>
              exact accounts_ok [next] _ (by simpa using fault?_of_continuesName hnext)
            next => exact accounts_failAt r _ (by rintro _ ⟨⟩)
          next => exact accounts_failAt r _ (by rintro _ ⟨⟩)
        next =>
          split
          next =>
            -- all capitalised words that follow are words
            refine Accounts.cons ?_ hfirst
            have hmore := List.takeWhile_prefix (l := rest)
              (fun t => t.isCapitalised && r.continuesName t)
            have hwords : ∀ t ∈ rest.takeWhile (fun t => t.isCapitalised && r.continuesName t),
                t.fault? = none := by
              intro t ht
              have hcontinues := List.mem_takeWhile_imp ht
              rw [Bool.and_eq_true] at hcontinues
              exact fault?_of_continuesName hcontinues.2
            revert hmore hwords
            generalize rest.takeWhile (fun t => t.isCapitalised && r.continuesName t) = more
            intro hmore hwords
            obtain ⟨behind, rfl⟩ := hmore
            rw [List.drop_left]
            exact accounts_ok _ _ hwords
          next => exact accounts_ok [first] _ (by simpa using hfirst)

/-! ## Expressions -/

theorem accounts_operand (r : Reader) (ts : List Token) : r.Accounts ts [] (r.operand ts) := by
  induction ts with
  | nil => exact accounts_failAt r [] (by rintro _ ⟨⟩)
  | cons t rest ih =>
    rw [operand]
    split
    next v hv =>
      exact accounts_ok [t] _ (by simpa using Token.fault?_of_literal hv)
    next =>
      split
      next hnot =>
        have h := (ih.map (Expr.negation t.span)).cons (Token.fault?_of_isWord hnot)
        generalize r.operand rest = x at h ⊢
        cases x <;> exact h
      next =>
        split
        next =>
          have h := (accounts_variableRef r (t :: rest)).map Expr.variable
          generalize r.variableRef (t :: rest) = x at h ⊢
          cases x <;> exact h
        next => exact accounts_failAt r _ (by rintro _ ⟨⟩)

theorem accounts_continueExpr (r : Reader) (tree : Expr) (ts : List Token) :
    r.Accounts ts [] (r.continueExpr tree ts) := by
  fun_induction continueExpr r tree ts with
  | case1 tree ts hnone => exact accounts_ok [] tree (by simp)
  | case2 tree ts op width hop right rest hoperand ih =>
    have hspelled := (operator?_eq_some hop).1.fault?
    have hright := accounts_operand r (ts.drop width)
    rw [hoperand] at hright
    obtain ⟨front, hdrop, hfront⟩ := hright
    have hts : ts = ts.take width ++ (front ++ rest) := by rw [← hdrop, List.take_append_drop]
    rw [hts]
    exact (ih.append hfront).append fun t ht => .inl (hspelled t ht)
  | case3 tree ts op width hop f hoperand =>
    have hspelled := (operator?_eq_some hop).1.fault?
    have hright := accounts_operand r (ts.drop width)
    rw [hoperand] at hright
    have h := hright.append fun t ht => .inl (hspelled t ht)
    rwa [List.take_append_drop] at h

theorem accounts_expr (r : Reader) (ts : List Token) : r.Accounts ts [] (r.expr ts) := by
  have hfirst := accounts_operand r ts
  unfold expr
  split
  next first rest hoperand =>
    rw [hoperand] at hfirst
    obtain ⟨front, rfl, hfront⟩ := hfirst
    exact (accounts_continueExpr r first rest).append hfront
  next f hoperand =>
    rw [hoperand] at hfirst
    exact hfirst

/-! ## Statements that begin with a word of their own -/

theorem accounts_put (r : Reader) (start : Span) (ts : List Token) :
    r.Accounts ts [] (r.putStatement start ts) :=
  (accounts_expr r ts).bind fun _ ts₁ _ =>
    (accounts_word r "into" ts₁).bind fun _ ts₂ _ =>
      (accounts_variableRef r ts₂).bind fun _ _ _ => accounts_ok [] _ (by simp)

theorem accounts_let (r : Reader) (start : Span) (ts : List Token) :
    r.Accounts ts [] (r.letStatement start ts) :=
  (accounts_variableRef r ts).bind fun _ ts₁ _ =>
    (accounts_word r "be" ts₁).bind fun _ ts₂ _ =>
      (accounts_expr r ts₂).bind fun _ _ _ => accounts_ok [] _ (by simp)

theorem accounts_output (r : Reader) (verb : Verb) (start : Span) (ts : List Token) :
    r.Accounts ts [] (r.outputStatement verb start ts) :=
  (accounts_expr r ts).bind fun _ _ _ => accounts_ok [] _ (by simp)

theorem append_countSteps (word : String) (count : Nat) (last : Span) (ts : List Token) :
    ∃ front, ts = front ++ (countSteps word count last ts).2.2 ∧
      ∀ t ∈ front, t.fault? = none := by
  fun_induction countSteps word count last ts with
  | case1 count last => exact ⟨[], rfl, by simp⟩
  | case2 count last t ts hword ih =>
    obtain ⟨front, hts, hfront⟩ := ih
    exact ⟨t :: front, by rw [List.cons_append, ← hts],
      List.forall_mem_cons.mpr ⟨Token.fault?_of_isWord hword, hfront⟩⟩
  | case3 count last t ts hword hcomma ih =>
    obtain ⟨front, hts, hfront⟩ := ih
    simp only [Bool.and_eq_true, decide_eq_true_eq] at hcomma
    refine ⟨t :: front, by rw [List.cons_append, ← hts], List.forall_mem_cons.mpr ⟨?_, hfront⟩⟩
    exact Token.fault?_of_isTrailing (by rw [hcomma.1.2]; rfl)
  | case4 count last t ts hword hcomma => exact ⟨[], rfl, by simp⟩

theorem accounts_step (r : Reader) (direction : Direction) (start : Span) (ts : List Token) :
    r.Accounts ts [] (r.stepStatement direction start ts) := by
  refine (accounts_variableRef r ts).bind fun target ts₁ _ => ?_
  obtain ⟨front, hts, hfront⟩ := append_countSteps direction.word 0 target.span ts₁
  dsimp only
  split
  next => exact accounts_failAt r _ (kind_missing _)
  next => exact ⟨front, hts, fun t ht => .inl (hfront t ht)⟩

end Reader

/-! ## Statements that begin with a variable -/

namespace Reader

/-- Whether a line that begins with the token assigns to the variable it begins with. -/
def startsName (r : Reader) (t : Token) : Bool :=
  t.kind = .word && !t.isWordIn ["put", "let", "build", "knock"] &&
    (Verb.ofWord? t.lexeme).isNone && !r.vocabulary.isKeyword t.lexeme

/-- The tokens behind the verb of a line that begins with a variable: what is assigned to it. -/
def assigned (r : Reader) (ts : List Token) : List Token :=
  if ts.head?.any r.startsName then
    match r.variableRef ts with
    | .ok (_, verb :: rest) =>
      if verb.isWordIn ["is", "are", "was", "were", "says", "said"] then rest else []
    | _ => []
  else []

variable {r : Reader} {line : Nat} {ts rest : List Token}

theorem startsName_iff {t : Token} :
    r.startsName t = true ↔ t.kind = .word ∧ t.isWord "put" = false ∧ t.isWord "let" = false ∧
      Verb.ofWord? t.lexeme = none ∧ t.isWord "build" = false ∧ t.isWord "knock" = false ∧
      r.vocabulary.isKeyword t.lexeme = false := by
  simp only [startsName, Token.isWordIn, List.any_cons, List.any_nil, Bool.or_false,
    Bool.and_eq_true, Bool.not_eq_true', Bool.or_eq_false_iff, decide_eq_true_eq,
    Option.isNone_iff_eq_none]
  constructor
  · rintro ⟨⟨⟨hkind, hput, hlet, hbuild, hknock⟩, hverb⟩, hkeyword⟩
    exact ⟨hkind, hput, hlet, hverb, hbuild, hknock, hkeyword⟩
  · rintro ⟨hkind, hput, hlet, hverb, hbuild, hknock, hkeyword⟩
    exact ⟨⟨⟨hkind, hput, hlet, hbuild, hknock⟩, hverb⟩, hkeyword⟩

/-- Where a verb follows the variable, all that stands behind it is assigned. -/
theorem assigned_eq {t verb : Token} {target : Variable} (ht : r.startsName t = true)
    (href : r.variableRef (t :: ts) = .ok (target, verb :: rest))
    (hverb : verb.isWordIn ["is", "are", "was", "were"] = true ∨
      verb.isWordIn ["says", "said"] = true) : r.assigned (t :: ts) = rest := by
  have hword : verb.isWordIn ["is", "are", "was", "were", "says", "said"] = true := by
    rw [← Bool.or_eq_true, Token.isWordIn, Token.isWordIn, ← List.any_append] at hverb
    exact hverb
  unfold assigned
  rw [if_pos (by simpa using ht), href]
  exact if_pos hword

/-- The value takes the rest of the line, and its error stands at the first token of it. -/
theorem accounts_isValue (verb : Token) (horder : InOrder line ts) :
    r.Accounts ts ts (r.isValue verb ts) := by
  unfold isValue
  split
  next => exact accounts_failAt r [] (by rintro _ ⟨⟩)
  next first rest =>
    split
    next e he =>
      have hat := ParseError.at_of_fault (Token.fault?_eq_some_iff.mpr he)
      exact ⟨.inl ⟨[], first, rest, rfl, hat, List.suffix_rfl⟩, fun t ht _ _ => .inl ht⟩
    next hkind =>
      have hfault := Token.fault?_eq_none fun e he => hkind e he
      dsimp only
      split
      next => exact accounts_ok [first] _ (by simpa using hfault)
      next =>
        split
        next => exact ⟨first :: rest, by simp, fun t ht => .inr ht⟩
        next =>
          obtain ⟨hline, hcol⟩ := span_spanTo horder
          have hfirst := horder.onLine first List.mem_cons_self
          refine ⟨.inl ⟨[], first, rest, rfl, ?_, List.nil_suffix⟩, fun t ht _ _ => .inl ht⟩
          exact ParseError.at_of_sound hfault (by rintro ⟨⟩) (hline.trans hfirst.symm) hcol

theorem accounts_name {t : Token} (ht : r.startsName t = true) (horder : InOrder line (t :: ts)) :
    r.Accounts (t :: ts) (r.assigned (t :: ts)) (r.nameStatement (t :: ts)) := by
  refine (accounts_variableRef r (t :: ts)).mono.bind fun target ts₁ href => ?_
  cases ts₁ with
  | nil => exact accounts_failAt r [] (by rintro _ ⟨⟩)
  | cons verb rest =>
    dsimp only
    split
    next his =>
      rw [assigned_eq ht href (.inl his)]
      obtain ⟨first, more, last, hts, -, -⟩ := variableRef_ok href
      have hsuffix : rest <:+ t :: ts := ⟨first :: more ++ [verb], by rw [hts]; simp⟩
      refine Accounts.cons ?_ (Token.fault?_of_isWordIn his)
      exact (accounts_isValue verb (horder.of_sublist hsuffix.sublist)).bind fun _ _ _ =>
        accounts_ok [] _ (by simp)
    next =>
      split
      next hsays =>
        rw [assigned_eq ht href (.inr hsays)]
        refine Accounts.cons ?_ (Token.fault?_of_isWordIn hsays)
        exact ⟨rest, by simp, fun t ht => .inr ht⟩
      next => exact accounts_failAt r _ (by rintro _ ⟨⟩)

/-! ## Whole lines -/

/-- A statement accounts for all faults but those of what is assigned. -/
theorem accounts_statement (horder : InOrder line ts) :
    r.Accounts ts (r.assigned ts) (r.statement ts) := by
  cases ts with
  | nil => exact accounts_failAt r [] (by rintro _ ⟨⟩)
  | cons t tail =>
    unfold statement
    dsimp only
    split
    next => exact accounts_failAt r _ (by rintro _ ⟨⟩)
    next hkind =>
      have hword : t.kind = .word := not_not.mp hkind
      have hfault := Token.fault?_of_word hword
      split
      next => exact (accounts_put r t.span tail).mono.cons hfault
      next hput =>
        split
        next => exact (accounts_let r t.span tail).mono.cons hfault
        next hlet =>
          split
          next verb _ => exact (accounts_output r verb t.span tail).mono.cons hfault
          next hverb =>
            split
            next => exact (accounts_step r .up t.span tail).mono.cons hfault
            next hbuild =>
              split
              next => exact (accounts_step r .down t.span tail).mono.cons hfault
              next hknock =>
                split
                next => exact accounts_failAt r _ (by rintro _ ⟨⟩)
                next hkeyword =>
                  refine accounts_name (startsName_iff.mpr ?_) horder
                  simp only [Bool.not_eq_true] at hput hlet hbuild hknock hkeyword
                  exact ⟨hword, hput, hlet, hverb, hbuild, hknock, hkeyword⟩

/-- So does a statement that takes the whole line. -/
theorem accounts_wholeLine (horder : InOrder line ts) :
    r.Accounts ts (r.assigned ts) ((r.wholeLine ts).map fun stmt => (stmt, [])) := by
  have hstatement := accounts_statement (r := r) horder
  unfold wholeLine
  cases hread : r.statement ts with
  | error f =>
    rw [hread] at hstatement
    exact hstatement
  | ok result =>
    obtain ⟨stmt, rest⟩ := result
    rw [hread] at hstatement
    obtain ⟨front, rfl, hfront⟩ := hstatement
    refine Accounts.append ?_ hfront
    -- punctuation at the end of the line is no fault
    have hmarks : ∀ t ∈ rest.takeWhile (fun t => t.kind.isTrailing), t.fault? = none := by
      intro t ht
      have htrailing := List.mem_takeWhile_imp ht
      exact Token.fault?_of_isTrailing htrailing
    have hsplit := List.takeWhile_append_dropWhile (p := fun t : Token => t.kind.isTrailing)
      (l := rest)
    simp only [bind, Except.bind]
    revert hmarks hsplit
    generalize rest.takeWhile (fun t => t.kind.isTrailing) = marks
    generalize rest.dropWhile (fun t => t.kind.isTrailing) = back
    rintro hmarks rfl
    refine Accounts.append ?_ fun t ht => .inl (hmarks t ht)
    cases back with
    | nil => exact accounts_ok [] stmt (by simp)
    | cons t back => exact accounts_failAt r _ (by rintro _ ⟨⟩)

end Reader

end Rockstar
