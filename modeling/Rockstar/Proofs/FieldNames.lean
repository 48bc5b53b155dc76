import Rockstar.Proofs.CanonicalNames
import Rockstar.Proofs.DefiniteAssignment
import Rockstar.Proofs.Resumption
import Rockstar.Proofs.SlotCreation

/-!
# Field names

Two underscores take the place of each space in the name of a field. That could make two fields of
different variables alike, were it not for the characters that the names of variables can have. All
words of a name are letters, but for the determiner of a common name. The determiner can be any word
that was added to the vocabulary; but the text of a reference consists of letters, apostrophes and
blanks up to the first comment in it, so that a determiner with an underscore in it has a
parenthesis as well (`Name.separable_of_spells`). That tells it from all other names, and two such
names are told apart by what stands behind their last underscore (`Separable.eq_of_joined_eq`).
-/

namespace Rockstar

/-! ## Words with underscores between them -/

/-- The words with two underscores between them. -/
def joined : List (List Char) → List Char
  | [] => []
  | u :: us => u ++ us.flatMap ('_' :: '_' :: ·)

theorem toList_intercalate_space (u : List Char) (us : List (List Char)) :
    (" ".intercalate ((u :: us).map String.ofList)).toList = u ++ us.flatMap (' ' :: ·) := by
  induction us generalizing u with
  | nil => simp
  | cons v vs ih =>
    rw [List.map_cons, List.map_cons, String.intercalate_cons_cons, ← List.map_cons]
    simp only [String.toList_append, ih, String.toList_ofList]
    simp

/-- The name of a field consists of the words of the variable. -/
theorem toList_fieldName {us : List (List Char)} (h : ∀ u ∈ us, ' ' ∉ u) :
    (fieldName (" ".intercalate (us.map String.ofList))).toList = joined us := by
  have hword : ∀ u ∈ us, (u.flatMap fun c => if c = ' ' then ['_', '_'] else [c]) = u := by
    intro u hu
    have hchars : ∀ c ∈ u, (if c = ' ' then ['_', '_'] else [c]) = [c] := by
      intro c hc
      rw [if_neg]
      rintro rfl
      exact h u hu hc
    rw [List.flatMap_congr hchars]
    simp
  rw [fieldName, String.toList_ofList]
  cases us with
  | nil => rfl
  | cons u us =>
    rw [toList_intercalate_space, List.flatMap_append, hword u (by simp), List.flatMap_assoc]
    refine congrArg (u ++ ·) (List.flatMap_congr fun v hv => ?_)
    rw [List.flatMap_cons, hword v (by simp [hv])]
    rfl

/-- A word that no separator can be mistaken for. -/
def IsFree (u : List Char) : Prop := u ≠ [] ∧ ∀ c ∈ [' ', '_', '('], c ∉ u

/-- Words that can be read back from what they are joined to: either no underscore is in any of them,
or there are two, and the first is told from all others by a parenthesis. -/
inductive Separable : List (List Char) → Prop where
  | plain {us : List (List Char)} (h : ∀ u ∈ us, IsFree u) : Separable us
  | marked {d w : List Char} (hparen : '(' ∈ d) (hspace : ' ' ∉ d) (hw : IsFree w) :
      Separable [d, w]

theorem Separable.space_notMem {us : List (List Char)} (h : Separable us) :
    ∀ u ∈ us, ' ' ∉ u := by
  intro u hu
  cases h with
  | plain h => exact (h u hu).2 ' ' (by simp)
  | marked hparen hspace hw =>
    simp only [List.mem_cons, List.not_mem_nil, or_false] at hu
    rcases hu with rfl | rfl
    · exact hspace
    · exact hw.2 ' ' (by simp)

/-- What stands before the first underscore is determined by the whole. -/
theorem eq_of_append_eq {u v rest rest' : List Char} (hu : '_' ∉ u) (hv : '_' ∉ v)
    (hrest : ∀ c cs, rest = c :: cs → c = '_') (hrest' : ∀ c cs, rest' = c :: cs → c = '_')
    (h : u ++ rest = v ++ rest') : u = v ∧ rest = rest' := by
  have hfront : ∀ {w : List Char}, '_' ∉ w → ∀ c ∈ w, decide (c ≠ '_') = true := by
    intro w hw c hc
    refine decide_eq_true ?_
    rintro rfl
    exact hw hc
  have hstops : ∀ {r : List Char}, (∀ c cs, r = c :: cs → c = '_') →
      Piece.Stops (fun c => decide (c ≠ '_')) r := by
    intro r hr c cs hcons
    simp [hr c cs hcons]
  obtain ⟨htake, hdrop⟩ := Piece.takeWhile_of_stops (hfront hu) (hstops hrest)
  obtain ⟨htake', hdrop'⟩ := Piece.takeWhile_of_stops (hfront hv) (hstops hrest')
  rw [h] at htake hdrop
  exact ⟨htake.symm.trans htake', hdrop.symm.trans hdrop'⟩

theorem head_flatMap_joined (us : List (List Char)) :
    ∀ c cs, us.flatMap ('_' :: '_' :: ·) = c :: cs → c = '_' := by
  intro c cs h
  cases us with
  | nil => cases h
  | cons u us =>
    rw [List.flatMap_cons] at h
    exact (List.cons.inj h).1.symm

theorem eq_of_flatMap_joined_eq {us vs : List (List Char)} (hus : ∀ u ∈ us, '_' ∉ u)
    (hvs : ∀ v ∈ vs, '_' ∉ v)
    (h : us.flatMap ('_' :: '_' :: ·) = vs.flatMap ('_' :: '_' :: ·)) : us = vs := by
  induction us generalizing vs with
  | nil =>
    cases vs with
    | nil => rfl
    | cons v vs => cases h
  | cons u us ih =>
    cases vs with
    | nil => cases h
    | cons v vs =>
      rw [List.flatMap_cons, List.flatMap_cons] at h
      simp only [List.cons_append, List.cons.injEq, true_and] at h
      obtain ⟨rfl, htail⟩ := eq_of_append_eq (hus u (by simp)) (hvs v (by simp))
        (head_flatMap_joined us) (head_flatMap_joined vs) h
      rw [ih (fun w hw => hus w (by simp [hw])) (fun w hw => hvs w (by simp [hw])) htail]

theorem mem_joined {us : List (List Char)} {c : Char} (h : c ∈ joined us) :
    c = '_' ∨ ∃ u ∈ us, c ∈ u := by
  cases us with
  | nil => cases h
  | cons u us =>
    simp only [joined, List.mem_append, List.mem_flatMap, List.mem_cons] at h
    rcases h with hu | ⟨v, hv, rfl | rfl | hc⟩
    · exact .inr ⟨u, by simp, hu⟩
    · exact .inl rfl
    · exact .inl rfl
    · exact .inr ⟨v, by simp [hv], hc⟩

theorem joined_ne_nil {u : List Char} (h : u ≠ []) (us : List (List Char)) :
    joined (u :: us) ≠ [] := by
  simp [joined, h]

/-- Free words are told from words of which one has a parenthesis. -/
theorem paren_notMem_joined {us : List (List Char)} (h : ∀ u ∈ us, IsFree u) :
    '(' ∉ joined us := by
  intro hmem
  rcases mem_joined hmem with heq | ⟨u, hu, hc⟩
  · exact absurd heq (by decide)
  · exact (h u hu).2 '(' (by simp) hc

/-- Separable words can be read back. -/
theorem Separable.eq_of_joined_eq {us vs : List (List Char)} (hus : Separable us)
    (hvs : Separable vs) (h : joined us = joined vs) : us = vs := by
  have hmarked : ∀ {d w : List Char}, '(' ∈ d → '(' ∈ joined [d, w] := by
    intro d w hparen
    simp [joined, hparen]
  cases hus with
  | plain hfree =>
    cases hvs with
    | plain hfree' =>
      cases us with
      | nil =>
        cases vs with
        | nil => rfl
        | cons v vs => exact absurd h.symm (joined_ne_nil (hfree' v (by simp)).1 vs)
      | cons u us =>
        cases vs with
        | nil => exact absurd h (joined_ne_nil (hfree u (by simp)).1 us)
        | cons v vs =>
          have hu : ∀ w ∈ u :: us, '_' ∉ w := fun w hw => (hfree w hw).2 '_' (by simp)
          have hv : ∀ w ∈ v :: vs, '_' ∉ w := fun w hw => (hfree' w hw).2 '_' (by simp)
          obtain ⟨rfl, htail⟩ := eq_of_append_eq (hu u (by simp)) (hv v (by simp))
            (head_flatMap_joined us) (head_flatMap_joined vs) h
          rw [eq_of_flatMap_joined_eq (fun w hw => hu w (by simp [hw]))
            (fun w hw => hv w (by simp [hw])) htail]
    | marked hparen =>
      exact absurd (h ▸ hmarked hparen) (paren_notMem_joined hfree)
  | @marked d w hparen hspace hw =>
    cases hvs with
    | plain hfree => exact absurd (h ▸ hmarked hparen) (paren_notMem_joined hfree)
    | @marked d' w' hparen' hspace' hw' =>
      -- read from the end, where no underscore stands in the last word
      have hreverse : w.reverse ++ ('_' :: '_' :: d.reverse) =
          w'.reverse ++ ('_' :: '_' :: d'.reverse) := by
        have hrev := congrArg List.reverse h
        simpa [joined] using hrev
      obtain ⟨hlast, hfirst⟩ := eq_of_append_eq (by simpa using hw.2 '_' (by simp))
        (by simpa using hw'.2 '_' (by simp)) (by simp) (by simp) hreverse
      simp only [List.cons.injEq, true_and, List.reverse_inj] at hlast hfirst
      rw [hlast, hfirst]

/-! ## Names of variables -/

namespace Name

/-- The lower case of a word of letters and apostrophes is free. -/
theorem isFree_lower {w : List Char} (hne : w ≠ []) (h : ∀ c ∈ w, isWordChar c = true) :
    IsFree (Text.lower w) := by
  refine ⟨Text.lower_ne_nil hne, fun c hc hmem => ?_⟩
  obtain ⟨hascii, hletter, hmark⟩ :
      c.toNat < 128 ∧ Text.isLetter c = false ∧ isWordChar c = false := by
    simp only [List.mem_cons, List.not_mem_nil, or_false] at hc
    rcases hc with rfl | rfl | rfl <;> decide
  have hword := h c (Text.mem_of_mem_lower hascii hletter hmem)
  rw [hmark] at hword
  cases hword

theorem isFree_lower_of_isLetters {w : List Char} (h : isLetters w = true) :
    IsFree (Text.lower w) := by
  obtain ⟨hne, hletters⟩ := isLetters_iff_forall.mp h
  exact isFree_lower hne fun c hc => by simp [isWordChar, hletters c hc]

/-- Up to the first comment, the text consists of word characters and blanks. -/
def WordsFirst (text : String) : Prop :=
  ∀ c ∈ text.toList.takeWhile (· ≠ '('), isWordChar c = true ∨ isBlank c = true

/-- A first word without a parenthesis stands before all comments. -/
theorem WordsFirst.isWordChar {text : String} (h : WordsFirst text) {w : List Char}
    {ws : List (List Char)} (hwords : words text = w :: ws) (hparen : '(' ∉ w) :
    ∀ c ∈ w, isWordChar c = true := by
  obtain ⟨gap, rest, htext, -, hgap, hw⟩ := Text.exists_append_of_words hwords
  have hgap' : ∀ c ∈ gap, decide (c ≠ '(') = true := by
    intro c hc
    refine decide_eq_true ?_
    rintro rfl
    exact absurd (hgap '(' hc) (by decide)
  have hw' : ∀ c ∈ w, decide (c ≠ '(') = true := by
    intro c hc
    refine decide_eq_true ?_
    rintro rfl
    exact hparen hc
  intro c hc
  have hmem : c ∈ text.toList.takeWhile (· ≠ '(') := by
    rw [htext, List.takeWhile_append_of_pos hgap', List.takeWhile_append_of_pos hw']
    simp [hc]
  refine (h c hmem).resolve_right fun hblank => ?_
  have hspace := Text.isSpace_of_isBlank hblank
  rw [hw c hc] at hspace
  cases hspace

/-- The words of a name, in lower case, can be read back from the name of its field. -/
theorem separable_of_spells {v : Vocabulary} {shape : NameShape} {text : String}
    (h : Spells v shape (words text)) (hfirst : WordsFirst text) :
    Separable ((words text).map Text.lower) := by
  have hletters : ∀ {ws : List (List Char)}, (∀ w ∈ ws, isLetters w = true) →
      ∀ u ∈ ws.map Text.lower, IsFree u := by
    intro ws hws u hu
    obtain ⟨w, hw, rfl⟩ := List.mem_map.mp hu
    exact isFree_lower_of_isLetters (hws w hw)
  generalize hws : words text = ws at h ⊢
  cases h with
  | simple hword =>
    exact .plain (hletters (by simpa using hword))
  | proper hproper => exact .plain (hletters fun w hw => isLetters_of_isProperWord (hproper w hw))
  | @common d w hd hword =>
    obtain ⟨gap, rest, -, hne, -, hspace⟩ := Text.exists_append_of_words hws
    have hnoun := isFree_lower_of_isLetters hword
    by_cases hparen : '(' ∈ d
    · refine .marked ?_ ?_ hnoun
      · obtain ⟨low, hlowers, hmem⟩ := Text.exists_lowersTo_of_mem hparen
        rw [hlowers.of_ascii (by decide)] at hmem
        exact hmem _ (by simp)
      · intro hmem
        have hblank := hspace ' ' (Text.mem_of_mem_lower (by decide) (by decide +kernel) hmem)
        exact absurd hblank (by decide)
    · have hdet := isFree_lower hne (hfirst.isWordChar hws hparen)
      exact .plain (by simpa using ⟨hdet, hnoun⟩)

end Name

/-- A name whose words can be read back from the name of its field. -/
def Separated (name : String) : Prop :=
  ∃ us, Separable us ∧ name = " ".intercalate (us.map String.ofList)

theorem Separated.eq_of_fieldName_eq {a b : String} (ha : Separated a) (hb : Separated b)
    (h : fieldName a = fieldName b) : a = b := by
  obtain ⟨us, hus, rfl⟩ := ha
  obtain ⟨vs, hvs, rfl⟩ := hb
  have hjoined : joined us = joined vs := by
    rw [← toList_fieldName hus.space_notMem, ← toList_fieldName hvs.space_notMem, h]
  rw [hus.eq_of_joined_eq hvs hjoined]

/-- The names in a source can all be read back from the names of their fields. -/
theorem separated_of_parse {v : Vocabulary} (hv : v.Extended) {source : List Char}
    {program : List Statement} (hparse : parse v source = .ok program) :
    ∀ stmt ∈ program, ∀ ref ∈ stmt.refs, ref.isName v = true →
      Separated (Name.canonical ref.text) := by
  intro stmt hstmt ref href hname
  obtain ⟨l, -, before, taken, rest, htokens, hread⟩ := exists_line_of_ref hparse hstmt href
  obtain ⟨-, -, -, hfirst⟩ := text_of_variableRef hv htokens hread
  have hshape : ∃ shape, Name.shape? v ref.text = some shape ∧ shape ≠ .pronoun := by
    unfold Variable.isName at hname
    split at hname
    · cases hname
    · cases hname
    next shape hne hsome =>
      refine ⟨shape, hsome, ?_⟩
      rintro rfl
      exact hne rfl
  obtain ⟨shape, hsome, hpronoun⟩ := hshape
  exact ⟨_, Name.separable_of_spells (Name.spells_of_shape? hsome hpronoun) hfirst,
    Name.canonical_eq ref.text⟩

/-! ## Names of slots -/

/-- All names that the session knows are of the given kind: those of its variables, and the one that
was met last. -/
structure Session.Knows (P : String → Prop) (s : Session) : Prop where
  slots : ∀ name, (s.slots.find? name).isSome = true → P name
  last : ∀ name, s.lastName? = some name → P name

section Knows

variable {P : String → Prop} {v : Vocabulary} {last : Option String}

theorem Variable.of_next (hlast : ∀ name, last = some name → P name) {ref : Variable}
    (href : ref.isName v = true → P (Name.canonical ref.text)) :
    ∀ name, ref.next v last = some name → P name := by
  intro name h
  unfold Variable.next at h
  split at h
  next hname =>
    cases h
    exact href hname
  next => exact hlast name h

theorem Variable.of_foldl_next (hlast : ∀ name, last = some name → P name) {refs : List Variable}
    (hrefs : ∀ ref ∈ refs, ref.isName v = true → P (Name.canonical ref.text)) :
    ∀ name, refs.foldl (Variable.next v) last = some name → P name := by
  induction refs generalizing last with
  | nil => exact hlast
  | cons ref refs ih =>
    exact ih (Variable.of_next hlast (hrefs ref (by simp)))
      fun other hother => hrefs other (by simp [hother])

theorem Variable.of_resolve (hlast : ∀ name, last = some name → P name) {ref : Variable}
    (href : ref.isName v = true → P (Name.canonical ref.text)) :
    ∀ name, ref.resolve v last = some name → P name := by
  intro name h
  unfold Variable.resolve at h
  unfold Variable.isName at href
  cases hshape : Name.shape? v ref.text with
  | none =>
    rw [hshape] at h
    cases h
  | some shape =>
    rw [hshape] at h href
    cases shape with
    | pronoun => exact hlast name h
    | simple =>
      cases h
      exact href rfl
    | common =>
      cases h
      exact href rfl
    | proper =>
      cases h
      exact href rfl

/-- A statement assigns to a variable that is named in it, or to the one that was named last. -/
theorem Statement.of_targetName? (hlast : ∀ name, last = some name → P name) {stmt : Statement}
    (hrefs : ∀ ref ∈ stmt.refs, ref.isName v = true → P (Name.canonical ref.text)) :
    ∀ name, stmt.targetName? v last = some name → P name := by
  cases stmt with
  | assign target value span =>
    have htarget := hrefs target (Statement.mem_refs_assign.mpr (.inl rfl))
    have hvalue : ∀ ref ∈ value.refs, ref.isName v = true → P (Name.canonical ref.text) :=
      fun ref href => hrefs ref (Statement.mem_refs_assign.mpr (.inr href))
    refine Variable.of_resolve ?_ htarget
    split
    · exact hlast
    · exact Variable.of_foldl_next hlast hvalue
  | output verb value span =>
    intro name h
    cases h
  | step direction target count span =>
    exact Variable.of_resolve hlast (hrefs target (by simp [Statement.refs]))

variable {o : Options} {s s' : Session}

/-- A statement adds no names but its own. -/
theorem Session.Knows.statement (h : s.Knows P) {stmt : Statement}
    (hrefs : ∀ ref ∈ stmt.refs, ref.isName o.vocabulary = true → P (Name.canonical ref.text))
    (hstmt : CompileM.statement o stmt s = (.ok (), s')) : s'.Knows P := by
  constructor
  · intro name hname
    have hfind := CompileM.isSome_find?_statement o stmt s name
    rw [hstmt] at hfind
    rcases hfind.mp hname with hold | ⟨-, htarget⟩
    · exact h.slots name hold
    · exact Statement.of_targetName? h.last hrefs name htarget
  · rw [CompileM.lastName?_of_statement hstmt]
    exact Variable.of_foldl_next h.last hrefs

theorem Session.Knows.statements (h : s.Knows P) {program : List Statement}
    (hrefs : ∀ stmt ∈ program, ∀ ref ∈ stmt.refs, ref.isName o.vocabulary = true →
      P (Name.canonical ref.text))
    (hprogram : CompileM.statements o program s = (.ok (), s')) : s'.Knows P := by
  induction program generalizing s with
  | nil =>
    cases hprogram
    exact h
  | cons stmt rest ih =>
    obtain ⟨_, s₁, hstmt, hrest⟩ := CompileM.bind_eq_ok hprogram
    exact ih (h.statement (hrefs stmt (by simp)) hstmt)
      (fun other hother => hrefs other (by simp [hother])) hrest

theorem Session.knows_start (o : Options) : (Session.start o).Knows P where
  slots := by
    intro name h
    simp [Session.start, SlotTable.empty, SlotTable.find?, Registry.find?, Registry.empty] at h
  last := by
    intro name h
    cases h

end Knows

/-! ## Fields of a machine -/

/-- The memory after an effect. -/
def Effect.memory : Effect → Memory
  | .proceed memory => memory
  | .write _ memory => memory
  | .finish memory => memory
  | .fault _ memory => memory

namespace Memory

variable {m : Memory} {site : Site}

theorem size_fields_pop {f : Value → Memory → Effect}
    (h : ∀ v stack, (f v { m with stack := stack }).memory.fields.size = m.fields.size) :
    (m.pop site f).memory.fields.size = m.fields.size := by
  unfold pop
  split
  · exact h _ _
  · rfl

theorem size_fields_popPair {f : Value → Value → Memory → Effect}
    (h : ∀ a b stack, (f a b { m with stack := stack }).memory.fields.size = m.fields.size) :
    (m.popPair site f).memory.fields.size = m.fields.size :=
  size_fields_pop fun _ _ => size_fields_pop fun _ _ => h _ _ _

theorem size_fields_pushConstant (m : Memory) (pool : Pool) (i : Nat) :
    (m.pushConstant pool i).memory.fields.size = m.fields.size := by
  unfold pushConstant
  split <;> rfl

theorem size_fields_call (m : Memory) (site : Site) (pool : Pool) (i argc : Nat) :
    (m.call site pool i argc).memory.fields.size = m.fields.size := by
  have hroutine : ∀ r, (m.callRoutine site r).memory.fields.size = m.fields.size := by
    intro r
    unfold callRoutine
    split
    · rfl
    · split <;> rfl
    · rfl
    · rfl
  unfold call
  split
  · split
    · split
      · exact hroutine _
      · rfl
    · rfl
  · rfl

/-- An instruction makes no field and takes none away. -/
theorem size_fields_perform (m : Memory) (site : Site) (pool : Pool) (i : Instr) :
    (m.perform site pool i).memory.fields.size = m.fields.size := by
  cases i with
  | constant k => exact m.size_fields_pushConstant pool k.toNat
  | constantWide k => exact m.size_fields_pushConstant pool k.toNat
  | pushBool b => rfl
  | pushNull => rfl
  | pushMysterious => rfl
  | getField k =>
    simp only [perform]
    split <;> rfl
  | setField k =>
    simp only [perform]
    refine size_fields_pop fun v stack => ?_
    split
    · simp [Effect.memory]
    · rfl
  | arith op =>
    refine size_fields_popPair fun a b stack => ?_
    unfold arith
    split <;> rfl
  | expectNumber depth =>
    simp only [perform]
    split <;> rfl
  | equality positive => exact size_fields_popPair fun _ _ _ => rfl
  | compare op =>
    simp only [perform]
    refine size_fields_popPair fun a b stack => ?_
    split <;> rfl
  | not =>
    simp only [perform]
    exact size_fields_pop fun _ _ => rfl
  | logic op => exact size_fields_popPair fun _ _ _ => rfl
  | call k argc => exact m.size_fields_call site pool k.toNat argc.toNat
  | writeLine => exact size_fields_pop fun _ _ => rfl
  | ret => rfl

end Memory

namespace Machine

variable {σ : Type} {sink : Sink σ} {x : Executable} {m m' : Machine} {out out' : σ}

theorem memory_apply (sink : Sink σ) (site : Site) (out : σ) (effect : Effect) :
    (apply sink site out effect).machine.memory = effect.memory := by
  cases effect with
  | proceed memory => rfl
  | write text memory =>
    unfold apply
    dsimp only
    split <;> rfl
  | finish memory =>
    unfold apply
    dsimp only
    split <;> rfl
  | fault f memory => rfl

theorem size_fields_step (sink : Sink σ) (x : Executable) (m : Machine) (out : σ) :
    (m.step sink x out).machine.memory.fields.size = m.memory.fields.size := by
  cases hdone : m.finished with
  | true =>
    rw [step_of_finished hdone]
    rfl
  | false =>
    cases hfetch : x.code.fetch m.offset with
    | instr i line next =>
      rw [step_of_fetch out hdone hfetch, memory_apply]
      exact m.memory.size_fields_perform _ _ _
    | _ =>
      rw [step, hdone, hfetch]
      rfl

theorem Reaches.size_fields (h : Reaches sink x m out m' out') :
    m'.memory.fields.size = m.memory.fields.size := by
  induction h with
  | refl m out => rfl
  | @step m m₁ m₂ out out₁ out₂ hstep _ ih =>
    have hsize := size_fields_step sink x m out
    rw [hstep] at hsize
    exact ih.trans hsize

theorem size_fields_execute (sink : Sink σ) (x : Executable) (m : Machine) (out : σ) :
    (m.execute sink x out).machine.memory.fields.size = m.memory.fields.size := by
  fun_induction execute sink x m out with
  | case1 m out m' out' hstep ih =>
    have hsize := size_fields_step sink x m out
    rw [hstep] at hsize
    exact ih.trans hsize
  | case2 m out run hstep =>
    have hsize := size_fields_step sink x m out
    rw [hstep] at hsize
    exact hsize

/-- However often a program is executed, it keeps the fields that it began with. -/
theorem size_fields_afterCalls (x : Executable) (m : Machine) (calls : List Outlet) :
    (m.afterCalls x calls).memory.fields.size = m.memory.fields.size := by
  induction calls generalizing m with
  | nil => rfl
  | cons w ws ih => exact (ih _).trans (size_fields_execute w.sink x m w.held)

end Machine

/-! ## Fields of a program -/

/-- The names of fields that are all distinct find each field. -/
theorem Executable.fieldIndex?_of_nodup {x : Executable}
    (h : (x.fields.toList.map Slot.fieldName).Nodup) {i : Nat} {slot : Slot}
    (hslot : x.fields[i]? = some slot) :
    x.fieldIndex? slot.fieldName = some i ∧
      x.fields.find? (·.fieldName == slot.fieldName) = some slot := by
  obtain ⟨hi, hget⟩ := Array.getElem?_eq_some_iff.mp hslot
  have hbefore : ∀ j (hj : j < i), x.fields[j].fieldName ≠ slot.fieldName := by
    intro j hj heq
    unfold List.Nodup at h
    rw [List.pairwise_map, List.pairwise_iff_getElem] at h
    have hne := h j i (by simpa using Nat.lt_trans hj hi) (by simpa using hi) hj
    simp only [Array.getElem_toList] at hne
    rw [hget] at hne
    exact hne heq
  constructor
  · unfold Executable.fieldIndex?
    rw [Array.findIdx?_eq_some_iff_getElem]
    refine ⟨hi, by simp [hget], fun j hj => ?_⟩
    simpa using hbefore j hj
  · rw [Array.find?_eq_some_iff_getElem]
    refine ⟨by simp, i, hi, hget, fun j hj => ?_⟩
    simpa using hbefore j hj

/-- In a compiled program no two fields have one name, whatever words were added to the vocabulary.
So the name of a field finds that field and no other, in the program and, at every moment of every
run, in the machine, where the field has a value. -/
theorem fieldNames_distinct {o : Options} (hv : o.vocabulary.Extended) {source : String}
    {x : Executable} (h : compileSource o source = .ok x) :
    (x.fields.toList.map Slot.fieldName).Nodup ∧
    ∀ i slot, x.fields[i]? = some slot →
      x.fieldIndex? slot.fieldName = some i ∧
      x.fields.find? (·.fieldName == slot.fieldName) = some slot ∧
      ∀ (calls : List Outlet) (w : Outlet) (m : Machine) (out : w.State),
        Machine.Reaches w.sink x ((Machine.start x).afterCalls x calls) w.held m out →
        ∃ value, m.memory.fields[i]? = some value ∧ m.field? x slot.fieldName = some value := by
  obtain ⟨program, hparse, hcompile⟩ := exists_of_compileSource (r := .ok x) h
  obtain ⟨s, hstatements, rfl⟩ := exists_session_of_compile hcompile
  obtain ⟨es, hassigned⟩ := CompileM.assigned_statements (Session.assigned_start o) hstatements
  have hkeyed : s.slots.slots.Keyed Slot.name := hassigned.slots.keyed
  have hknows : s.Knows Separated :=
    (Session.knows_start o).statements (separated_of_parse hv hparse) hstatements
  have hseparated : ∀ slot ∈ s.finish.fields.toList, Separated slot.name := by
    intro slot hmem
    obtain ⟨i, hi⟩ := List.mem_iff_getElem?.mp hmem
    rw [Array.getElem?_toList] at hi
    have hfind : s.slots.find? slot.name = some i := (hkeyed slot.name i).mpr ⟨slot, hi, rfl⟩
    exact hknows.slots slot.name (by rw [hfind]; rfl)
  have hnodup : (s.finish.fields.toList.map Slot.fieldName).Nodup := by
    have hnames := hkeyed.nodup
    unfold List.Nodup at hnames ⊢
    rw [List.pairwise_map] at hnames ⊢
    refine hnames.imp_of_mem fun {a b} ha hb hne heq => hne ?_
    exact (hseparated a ha).eq_of_fieldName_eq (hseparated b hb) heq
  refine ⟨hnodup, fun i slot hslot => ?_⟩
  obtain ⟨hindex, hfind⟩ := Executable.fieldIndex?_of_nodup hnodup hslot
  refine ⟨hindex, hfind, fun calls w m out hreaches => ?_⟩
  have hsize : m.memory.fields.size = s.finish.fields.size := by
    rw [hreaches.size_fields, Machine.size_fields_afterCalls]
    simp [Machine.start]
  have hi : i < m.memory.fields.size := by
    rw [hsize]
    exact (Array.getElem?_eq_some_iff.mp hslot).1
  refine ⟨m.memory.fields[i], Array.getElem?_eq_getElem hi, ?_⟩
  rw [Machine.field?, hindex]
  exact Array.getElem?_eq_getElem hi

/-- The standard words and a determiner with underscores in it. It can only be written with a
comment. -/
def underscored : Vocabulary := (Vocabulary.standard.addDeterminer "my(a__b)").1

/-- Two variables whose names differ in the determiner. -/
def heartSource : String := "My(a__b) heart is nothing\nMy heart is 5\nShout my(a__b) heart"

theorem fieldNames_distinct_heart :
    ∃ x, compileSource { vocabulary := underscored } heartSource = .ok x ∧
      x.fields.toList.map Slot.fieldName = ["my(a__b)__heart", "my__heart"] ∧
      x.fieldIndex? "my__heart" = some 1 ∧
      ((Machine.start x).afterCalls x [⟨String, .collect, ""⟩]).field? x "my__heart" ≠ none := by
  have hfields : (compileSource { vocabulary := underscored } heartSource).toOption.map
      (·.fields.toList.map Slot.fieldName) = some ["my(a__b)__heart", "my__heart"] := by
    decide +kernel
  obtain ⟨x, hx, hnames⟩ := Option.map_eq_some_iff.mp hfields
  have hsource := eq_ok_of_toOption hx
  have hsecond : x.fields[1]?.map Slot.fieldName = some "my__heart" := by
    rw [← Array.getElem?_toList, ← List.getElem?_map, hnames]
    rfl
  obtain ⟨slot, hslot, hname⟩ := Option.map_eq_some_iff.mp hsecond
  have hextended : underscored.Extended := .addDeterminer _ .standard
  obtain ⟨hindex, -, hvalue⟩ := (fieldNames_distinct hextended hsource).2 1 slot hslot
  rw [hname] at hindex hvalue
  obtain ⟨value, -, hfield⟩ := hvalue [⟨String, .collect, ""⟩] ⟨String, .collect, ""⟩ _ "" (.refl _ _)
  refine ⟨x, hsource, hnames, hindex, ?_⟩
  rw [hfield]
  simp

end Rockstar
