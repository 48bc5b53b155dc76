import Mathlib.Data.List.Forall2
import Rockstar.Proofs.SourceOrder

/-!
# References and what they refer to

A name refers to itself, in its canonical form; a pronoun to the name that stands closest before it
in the source (`referent?`). Compilation does not search the source: it remembers the name that was
met last. Where references are met in the order of the source, both come to the same
(`resolve_eq_referent?`).

Two programs are alike when they differ in the texts of references alone (`Statement.Alike`). If in
addition every reference keeps its referent, then the references of both, met one by one, stand for
the same names (`sameNames_of_referents`).
-/

namespace Rockstar

/-! ## Referents -/

/-- Whether the reference is a name: of a known shape, and no pronoun. -/
def Variable.isName (v : Vocabulary) (ref : Variable) : Bool :=
  match Name.shape? v ref.text with
  | none => false
  | some .pronoun => false
  | some _ => true

/-- The closest of the names that stand before a reference. -/
def antecedent? (v : Vocabulary) (refs : List Variable) (ref : Variable) : Option Variable :=
  let names := refs.filter fun a => a.isName v && a.Precedes ref
  names.find? fun a => names.all fun b => !decide (a.Precedes b)

/-- The canonical name that a reference of a program refers to; `refs` are all references of the
program. -/
def referent? (v : Vocabulary) (refs : List Variable) (ref : Variable) : Option String :=
  match Name.shape? v ref.text with
  | none => none
  | some .pronoun => (antecedent? v refs ref).map (Name.canonical ·.text)
  | some _ => some (Name.canonical ref.text)

/-- The name that a reference stands for when `last` is the name that was met last. -/
def Variable.resolve (v : Vocabulary) (last : Option String) (ref : Variable) : Option String :=
  match Name.shape? v ref.text with
  | none => none
  | some .pronoun => last
  | some _ => some (Name.canonical ref.text)

/-- The name that was met last, after one more reference. -/
def Variable.next (v : Vocabulary) (last : Option String) (ref : Variable) : Option String :=
  if ref.isName v then some (Name.canonical ref.text) else last

theorem Variable.Precedes.asymm {a b : Variable} (h : a.Precedes b) : ¬b.Precedes a := by
  unfold Variable.Precedes at h ⊢
  omega

theorem Variable.Precedes.irrefl (a : Variable) : ¬a.Precedes a := fun h => h.asymm h

/-- The last reference of a list that is in order is the only one that precedes no other. -/
theorem find?_last_of_pairwise {refs : List Variable} (h : refs.Pairwise Variable.Precedes) :
    refs.find? (fun a => refs.all fun b => !decide (a.Precedes b)) = refs.getLast? := by
  rcases List.eq_nil_or_concat refs with rfl | ⟨init, last, rfl⟩
  · rfl
  · rw [List.concat_eq_append, List.pairwise_append] at h
    rw [List.concat_eq_append, List.getLast?_concat, List.find?_append]
    have hinit : init.find?
        (fun a => (init ++ [last]).all fun b => !decide (a.Precedes b)) = none := by
      rw [List.find?_eq_none]
      intro a ha hall
      have hlast := List.all_eq_true.mp hall last (by simp)
      simp [h.2.2 a ha last (by simp)] at hlast
    have hlast : (init ++ [last]).all (fun b => !decide (last.Precedes b)) = true := by
      rw [List.all_eq_true]
      intro b hb
      rcases List.mem_append.mp hb with hmem | hmem
      · simp [(h.2.2 b hmem last (by simp)).asymm]
      · simp [List.mem_singleton.mp hmem, Variable.Precedes.irrefl]
    rw [hinit, Option.none_or, List.find?_cons, hlast]

/-- In a list that is in order, the closest name before a reference is the last name among those
that come first. -/
theorem antecedent?_of_pairwise {v : Vocabulary} {before after : List Variable} {ref : Variable}
    (h : (before ++ ref :: after).Pairwise Variable.Precedes) :
    antecedent? v (before ++ ref :: after) ref = (before.filter (·.isName v)).getLast? := by
  rw [List.pairwise_append, List.pairwise_cons] at h
  obtain ⟨hbefore, ⟨hafter, -⟩, hcross⟩ := h
  have hnames : (before ++ ref :: after).filter (fun a => a.isName v && a.Precedes ref) =
      before.filter (·.isName v) := by
    have hfirst : before.filter (fun a => a.isName v && a.Precedes ref) =
        before.filter (·.isName v) :=
      List.filter_congr fun a ha => by simp [hcross a ha ref (by simp)]
    -- neither the reference itself nor a later one goes before it
    have hrest : (ref :: after).filter (fun a => a.isName v && a.Precedes ref) = [] := by
      rw [List.filter_eq_nil_iff]
      intro a ha hprecedes
      have hprecedes : a.Precedes ref := by simpa using (Bool.and_eq_true_iff.mp hprecedes).2
      rcases List.mem_cons.mp ha with rfl | hmem
      · exact Variable.Precedes.irrefl _ hprecedes
      · exact (hafter a hmem).asymm hprecedes
    rw [List.filter_append, hfirst, hrest, List.append_nil]
  unfold antecedent?
  rw [hnames]
  exact find?_last_of_pairwise (hbefore.sublist List.filter_sublist)

/-- The name that was met last in a list of references. -/
def lastName (v : Vocabulary) (refs : List Variable) : Option String :=
  (refs.filter (·.isName v)).getLast?.map (Name.canonical ·.text)

theorem lastName_append (v : Vocabulary) (refs : List Variable) (ref : Variable) :
    lastName v (refs ++ [ref]) = ref.next v (lastName v refs) := by
  unfold lastName Variable.next
  by_cases hname : ref.isName v = true
  · rw [List.filter_append, if_pos hname, List.filter_cons_of_pos hname]
    simp
  · rw [List.filter_append, if_neg hname, List.filter_cons_of_neg hname]
    simp

/-- What is remembered is what the source says. -/
theorem resolve_eq_referent? {v : Vocabulary} {before after : List Variable} {ref : Variable}
    (h : (before ++ ref :: after).Pairwise Variable.Precedes) :
    ref.resolve v (lastName v before) = referent? v (before ++ ref :: after) ref := by
  unfold Variable.resolve referent?
  cases hshape : Name.shape? v ref.text with
  | none => rfl
  | some shape =>
    cases shape with
    | pronoun =>
      dsimp only
      rw [antecedent?_of_pairwise h]
      rfl
    | simple => rfl
    | common => rfl
    | proper => rfl

/-! ## Two lists of references -/

/-- Met one by one after the given last names, the references of both lists stand for the same
names. -/
def SameNames (v : Vocabulary) : Option String → Option String → List Variable →
    List Variable → Prop
  | last, last', ref :: refs, ref' :: refs' =>
    ref'.resolve v last' = ref.resolve v last ∧
      SameNames v (ref.next v last) (ref'.next v last') refs refs'
  | _, _, [], [] => True
  | _, _, _, _ => False

theorem sameNames_of_referents {v : Vocabulary} (before before' : List Variable)
    {refs refs' : List Variable} (hspans : refs'.map (·.span) = refs.map (·.span))
    (h : (before ++ refs).Pairwise Variable.Precedes)
    (h' : (before' ++ refs').Pairwise Variable.Precedes)
    (hsame : ∀ ref ∈ refs, ∀ ref' ∈ refs', ref'.span = ref.span →
      referent? v (before' ++ refs') ref' = referent? v (before ++ refs) ref) :
    SameNames v (lastName v before) (lastName v before') refs refs' := by
  induction refs generalizing before before' refs' with
  | nil =>
    obtain rfl : refs' = [] := by simpa using hspans
    trivial
  | cons ref refs ih =>
    cases refs' with
    | nil => cases hspans
    | cons ref' refs' =>
      obtain ⟨hspan, hspans⟩ : ref'.span = ref.span ∧
          refs'.map (·.span) = refs.map (·.span) := by simpa using hspans
      refine ⟨?_, ?_⟩
      · rw [resolve_eq_referent? h, resolve_eq_referent? h']
        exact hsame ref (by simp) ref' (by simp) hspan
      -- the reference moves to those before, where it may be the name met last
      · rw [← lastName_append, ← lastName_append]
        have hsplit : before ++ ref :: refs = before ++ [ref] ++ refs := by simp
        have hsplit' : before' ++ ref' :: refs' = before' ++ [ref'] ++ refs' := by simp
        rw [hsplit] at h hsame
        rw [hsplit'] at h' hsame
        exact ih _ _ hspans h h' fun a ha a' ha' => hsame a (by simp [ha]) a' (by simp [ha'])

/-! ## Programs that differ in the texts of references -/

/-- The two expressions differ in the texts of references alone. -/
inductive Expr.Alike : Expr → Expr → Prop where
  | literal (v : Value) (s : Span) : Alike (.literal v s) (.literal v s)
  | poetic (y : Float) (text : String) (s : Span) : Alike (.poetic y text s) (.poetic y text s)
  | «variable» {ref ref' : Variable} : ref'.span = ref.span →
      Alike (.variable ref) (.variable ref')
  | binary (op : BinaryOp) {l l' r r' : Expr} : Alike l l' → Alike r r' →
      Alike (.binary op l r) (.binary op l' r')
  | negation (word : Span) {e e' : Expr} : Alike e e' →
      Alike (.negation word e) (.negation word e')

/-- The two statements differ in the texts of references alone. -/
inductive Statement.Alike : Statement → Statement → Prop where
  | assign {target target' : Variable} {value value' : Expr} (s : Span) :
      target'.span = target.span → value.Alike value' →
      Alike (.assign target value s) (.assign target' value' s)
  | output (verb : Verb) {value value' : Expr} (s : Span) : value.Alike value' →
      Alike (.output verb value s) (.output verb value' s)
  | step (direction : Direction) {target target' : Variable} (n : Nat) (s : Span) :
      target'.span = target.span → Alike (.step direction target n s) (.step direction target' n s)

theorem Expr.Alike.span_eq {e e' : Expr} (h : e.Alike e') : e'.span = e.span := by
  induction h with
  | literal v s => rfl
  | poetic y text s => rfl
  | «variable» hspan => exact hspan
  | binary op _ _ ihl ihr => rw [span, span, ihl, ihr]
  | negation word _ ih => rw [span, span, ih]

theorem Expr.Alike.refs_span {e e' : Expr} (h : e.Alike e') :
    e'.refs.map (·.span) = e.refs.map (·.span) := by
  induction h with
  | literal v s => rfl
  | poetic y text s => rfl
  | «variable» hspan => simpa [refs] using hspan
  | binary op _ _ ihl ihr => rw [refs, refs, List.map_append, List.map_append, ihl, ihr]
  | negation word _ ih => exact ih

theorem Variable.isBefore_congr {target target' : Variable} {value value' : Expr}
    (htarget : target'.span = target.span) (hvalue : value.Alike value') :
    target'.isBefore value' = target.isBefore value := by
  unfold isBefore
  rw [htarget, hvalue.span_eq]

theorem Statement.Alike.refs_span {stmt stmt' : Statement} (h : stmt.Alike stmt') :
    stmt'.refs.map (·.span) = stmt.refs.map (·.span) := by
  cases h with
  | assign s htarget hvalue =>
    rw [refs, refs, Variable.isBefore_congr htarget hvalue]
    split
    · simp [htarget, hvalue.refs_span]
    · simp [htarget, hvalue.refs_span]
  | output verb s hvalue => exact hvalue.refs_span
  | step direction n s htarget => simpa [refs] using htarget

theorem refs_span_of_alike {p p' : List Statement} (h : List.Forall₂ Statement.Alike p p') :
    (p'.flatMap Statement.refs).map (·.span) = (p.flatMap Statement.refs).map (·.span) := by
  induction h with
  | nil => rfl
  | cons hstmt _ ih =>
    rw [List.flatMap_cons, List.flatMap_cons, List.map_append, List.map_append,
      hstmt.refs_span, ih]

theorem pairwise_precedes_of_spans {refs refs' : List Variable}
    (hspans : refs'.map (·.span) = refs.map (·.span)) (h : refs.Pairwise Variable.Precedes) :
    refs'.Pairwise Variable.Precedes := by
  have hmapped : ∀ l : List Variable, l.Pairwise Variable.Precedes ↔
      (l.map (·.span)).Pairwise
        (fun a b => a.line < b.line ∨ a.line = b.line ∧ a.col < b.col) := by
    intro l
    rw [List.pairwise_map]
    rfl
  rw [hmapped, hspans, ← hmapped]
  exact h

end Rockstar
