import Rockstar.Proofs.Lexemes
import Rockstar.Proofs.LowerCase
import Rockstar.Proofs.NameShapes

/-!
# Canonical names

When two spellings name the same variable, and what becomes of a canonical name that is spelled out.
The words of a name are letters, so its canonical form has as many words, each the lower case of
its own (`Name.words_canonical`). Words with a role are recognised by ignoring the case of A to Z,
while the canonical form has the lower case of every letter. Where the two differ, a determiner is
still told from the words of a proper name (`Vocabulary.isDeterminer_of_lower`), but "ok" and
"knock" can be names before they are in lower case (`Vocabulary.isReserved_lower_iff`).
-/

namespace Rockstar

/-! ## Words with a role -/

theorem foldCase_ofList (w : List Char) :
    foldCase (String.ofList w) = String.ofList (w.map Char.toLower) := by
  rw [foldCase, String.toList_ofList]

theorem foldCase_lower (w : List Char) :
    foldCase (String.ofList (Text.lower w)) = String.ofList (Text.lower w) := by
  rw [foldCase_ofList, Text.map_toLower_lower]

namespace Vocabulary

/-- The words with a role in every program. -/
def roleWords : List String :=
  standard.keywords ++ constantWords ++ standard.pronouns ++ standard.determiners

theorem isReserved_standard_iff {word : String} :
    standard.isReserved word = true ↔ foldCase word ∈ roleWords := by
  simp only [isReserved, isKeyword, isPronoun, isDeterminer, Bool.or_eq_true, isSome_constant?_iff,
    List.contains_iff_mem, roleWords, List.mem_append]

theorem roleWords_plain : ∀ s ∈ roleWords, s.toList.all (·.toNat < 128) = true ∧
    ('k' ∈ s.toList → s = "ok" ∨ s = "knock") := by
  decide +kernel

theorem determiners_plain : ∀ s ∈ standard.determiners, s.toList ≠ [] ∧ 'k' ∉ s.toList ∧
    s.toList.all (fun c => 'a' ≤ c ∧ c ≤ 'z') = true := by
  decide +kernel

theorem ascii_of_mem_roleWords {s : String} (h : s ∈ roleWords) :
    ∀ c ∈ s.toList, c.toNat < 128 := by
  simpa using List.all_eq_true.mp (roleWords_plain s h).1

/-- A word whose lower case has a role has that role itself, unless it may be spelled with a Kelvin
sign. -/
theorem foldCase_of_lower {w : List Char} (h : String.ofList (Text.lower w) ∈ roleWords)
    (hk : 'k' ∉ Text.lower w) : foldCase (String.ofList w) = String.ofList (Text.lower w) := by
  have hascii := ascii_of_mem_roleWords h
  rw [String.toList_ofList] at hascii
  rw [foldCase_ofList, Text.lower_eq_map_of_ascii hascii hk]

/-- A word without a role gets one in lower case only if that is "ok" or "knock". -/
theorem isReserved_lower_iff {w : List Char}
    (h : standard.isReserved (String.ofList w) = false) :
    standard.isReserved (String.ofList (Text.lower w)) = true ↔
      String.ofList (Text.lower w) = "ok" ∨ String.ofList (Text.lower w) = "knock" := by
  constructor
  · intro hreserved
    rw [isReserved_standard_iff, foldCase_lower] at hreserved
    have hrole := (roleWords_plain _ hreserved).2
    rw [String.toList_ofList] at hrole
    by_cases hk : 'k' ∈ Text.lower w
    · exact hrole hk
    · rw [Bool.eq_false_iff, Ne, isReserved_standard_iff, foldCase_of_lower hreserved hk] at h
      exact absurd hreserved h
  · rintro (heq | heq)
    · rw [heq]
      decide
    · rw [heq]
      decide

/-- Determiners are spelled without a Kelvin sign, so their lower case ignores no more than the case
of the letters A to Z. -/
theorem lower_of_isDeterminer {d : List Char}
    (h : standard.isDeterminer (String.ofList d) = true) :
    String.ofList (Text.lower d) = foldCase (String.ofList d) := by
  have hrole : foldCase (String.ofList d) ∈ roleWords :=
    List.mem_append_right _ (List.contains_iff_mem.mp h)
  have hascii := ascii_of_mem_roleWords hrole
  rw [foldCase_ofList, String.toList_ofList] at hascii
  rw [foldCase_ofList, Text.lower_of_ascii]
  exact fun c hc => Text.ascii_of_toLower (hascii _ (List.mem_map_of_mem hc))

theorem isDeterminer_lower {d : List Char} (h : standard.isDeterminer (String.ofList d) = true) :
    standard.isDeterminer (String.ofList (Text.lower d)) = true := by
  rw [isDeterminer, foldCase_lower, lower_of_isDeterminer h]
  exact h

/-- A word whose lower case is that of a determiner is one itself. -/
theorem isDeterminer_of_lower {d w : List Char}
    (hd : standard.isDeterminer (String.ofList d) = true) (h : Text.lower w = Text.lower d) :
    standard.isDeterminer (String.ofList w) = true := by
  have hmem : String.ofList (Text.lower w) ∈ standard.determiners := by
    rw [h, lower_of_isDeterminer hd]
    exact List.contains_iff_mem.mp hd
  have hk := (determiners_plain _ hmem).2.1
  rw [String.toList_ofList] at hk
  refine List.contains_iff_mem.mpr ?_
  rw [foldCase_of_lower (List.mem_append_right _ hmem) hk]
  exact hmem

end Vocabulary

/-! ## Words of a name -/

namespace Name

theorem isLetters_iff_forall {w : List Char} :
    isLetters w = true ↔ w ≠ [] ∧ ∀ c ∈ w, Text.isLetter c = true := by
  simp [isLetters]

theorem isLetters_lower_iff {w : List Char} (h : isLetters w = true) :
    isLetters (Text.lower w) = true ↔ '\u0130' ∉ w := by
  obtain ⟨hne, hall⟩ := isLetters_iff_forall.mp h
  rw [isLetters_iff_forall, Text.isLetter_lower_iff hall]
  exact and_iff_right (Text.lower_ne_nil hne)

theorem isLetters_of_isDeterminer {w : List Char}
    (h : Vocabulary.standard.isDeterminer (String.ofList w) = true) : isLetters w = true := by
  obtain ⟨hne, -, hletters⟩ := Vocabulary.determiners_plain _ (List.contains_iff_mem.mp h)
  rw [foldCase_ofList, String.toList_ofList] at hne hletters
  refine isLetters_iff_forall.mpr ⟨fun hnil => hne (by rw [hnil]; rfl), fun c hc => ?_⟩
  have hletter := List.all_eq_true.mp hletters _ (List.mem_map_of_mem hc)
  exact isLetter_of_toLower (of_decide_eq_true hletter)

/-- The words of a name in each of its shapes. A pronoun is no name. -/
inductive Spells (v : Vocabulary) : NameShape → List (List Char) → Prop where
  | simple {w : List Char} : isLetters w = true → v.isReserved (String.ofList w) = false →
      Spells v .simple [w]
  | common {d w : List Char} : v.isDeterminer (String.ofList d) = true → isLetters w = true →
      Spells v .common [d, w]
  | proper {first second : List Char} {rest : List (List Char)} :
      (∀ w ∈ first :: second :: rest, isProperWord v w = true) →
      Spells v .proper (first :: second :: rest)

theorem spells_of_shape? {v : Vocabulary} {text : String} {shape : NameShape}
    (h : shape? v text = some shape) (hname : shape ≠ .pronoun) : Spells v shape (words text) := by
  unfold shape? at h
  generalize words text = ws at h ⊢
  match ws with
  | [] => cases h
  | [w] =>
    simp only [shapeOfWords?] at h
    split at h
    · cases h
      exact absurd rfl hname
    · split at h
      next hword =>
        cases h
        simp only [Bool.and_eq_true, Bool.not_eq_true'] at hword
        exact .simple hword.1 hword.2
      next => cases h
  | first :: second :: rest =>
    simp only [shapeOfWords?] at h
    split at h
    next hcommon =>
      cases h
      simp only [Bool.and_eq_true, List.isEmpty_iff] at hcommon
      obtain ⟨⟨rfl, hfirst⟩, hsecond⟩ := hcommon
      exact .common hfirst hsecond
    next =>
      split at h
      next hproper =>
        cases h
        exact .proper (List.all_eq_true.mp hproper)
      next => cases h

theorem isLetters_of_isProperWord {v : Vocabulary} {w : List Char} (h : isProperWord v w = true) :
    isLetters w = true := by
  simp only [isProperWord, Bool.and_eq_true] at h
  exact h.1.2

theorem not_isProperWord {v : Vocabulary} {w : List Char}
    (h : v.isDeterminer (String.ofList w) = true) : ¬isProperWord v w = true := by
  simp [isProperWord, Vocabulary.isReserved, h]

theorem Spells.isLetters {shape : NameShape} {ws : List (List Char)}
    (h : Spells .standard shape ws) : ∀ w ∈ ws, isLetters w = true := by
  intro w hw
  cases h with
  | simple hletters =>
    rwa [List.mem_singleton.mp hw]
  | common hd hletters =>
    simp only [List.mem_cons, List.not_mem_nil, or_false] at hw
    rcases hw with rfl | rfl
    · exact isLetters_of_isDeterminer hd
    · exact hletters
  | proper hproper => exact isLetters_of_isProperWord (hproper w hw)

theorem Spells.lower_ne {ws us : List (List Char)} (h : Spells .standard .common ws)
    (h' : Spells .standard .proper us) : ws.map Text.lower ≠ us.map Text.lower := by
  intro hlower
  cases h with
  | @common d w hd hletters =>
    cases h' with
    | @proper first second rest hproper =>
      have hfirst : Text.lower first = Text.lower d := (List.cons.inj hlower).1.symm
      exact not_isProperWord (Vocabulary.isDeterminer_of_lower hd hfirst) (hproper first (by simp))

/-- Names whose words agree in lower case are of the same shape. -/
theorem Spells.shape_eq {j k : NameShape} {ws us : List (List Char)}
    (h : Spells .standard j ws) (h' : Spells .standard k us)
    (hlower : ws.map Text.lower = us.map Text.lower) : j = k := by
  -- a single word is told from the others by its length
  have hlength : ws.length = us.length := by simpa using congrArg List.length hlower
  cases h with
  | simple =>
    cases h' with
    | simple => rfl
    | common => simp at hlength
    | proper => simp at hlength
  | common hd hletters =>
    cases h' with
    | simple => simp at hlength
    | common => rfl
    | proper hproper =>
      exact absurd hlower (Spells.lower_ne (.common hd hletters) (.proper hproper))
  | proper hproper =>
    cases h' with
    | simple => simp at hlength
    | common hd hletters =>
      exact absurd hlower.symm (Spells.lower_ne (.common hd hletters) (.proper hproper))
    | proper => rfl

/-! ## Canonical names -/

theorem words_intercalate {ws : List (List Char)}
    (h : ∀ w ∈ ws, w ≠ [] ∧ ∀ c ∈ w, Text.isSpace c = false) :
    words (" ".intercalate (ws.map String.ofList)) = ws := by
  induction ws with
  | nil => rfl
  | cons w ws ih =>
    obtain ⟨hne, hspace⟩ := h w (by simp)
    cases ws with
    | nil =>
      simpa [words] using Text.words_single hspace hne
    | cons u ws =>
      have hrest := ih fun x hx => h x (by simp [hx])
      rw [List.map_cons, List.map_cons, String.intercalate_cons_cons, words]
      simp only [String.toList_append, String.toList_ofList]
      rw [List.append_assoc]
      exact (Text.words_cons hspace hne (by decide) _).trans (congrArg _ hrest)

theorem words_canonical {text : String} (h : ∀ w ∈ words text, isLetters w = true) :
    words (canonical text) = (words text).map Text.lower := by
  have hwords : ∀ w ∈ (words text).map Text.lower, w ≠ [] ∧ ∀ c ∈ w, Text.isSpace c = false := by
    rintro _ hmem
    obtain ⟨w, hw, rfl⟩ := List.mem_map.mp hmem
    obtain ⟨hne, hletters⟩ := isLetters_iff_forall.mp (h w hw)
    exact ⟨Text.lower_ne_nil hne, fun _ => Text.isSpace_of_mem_lower hletters⟩
  have hwritten := words_intercalate hwords
  rwa [List.map_map] at hwritten

theorem canonical_eq (text : String) :
    canonical text = " ".intercalate (((words text).map Text.lower).map String.ofList) := by
  rw [List.map_map]
  rfl

theorem canonical_canonical {text : String} (h : ∀ w ∈ words text, isLetters w = true) :
    canonical (canonical text) = canonical text := by
  have hlower : ((words text).map Text.lower).map Text.lower = (words text).map Text.lower := by
    rw [List.map_map]
    exact List.map_congr_left fun w _ => Text.lower_lower w
  rw [canonical_eq (canonical text), words_canonical h, hlower, ← canonical_eq]

theorem identify_of_shape? {v : Vocabulary} {text : String} {shape : NameShape}
    (h : shape? v text = some shape) (hname : shape ≠ .pronoun) (last : Option Identity)
    (span : Span) : identify v last ⟨text, span⟩ = .ok ⟨canonical text, shape⟩ := by
  cases shape with
  | pronoun => exact absurd rfl hname
  | simple => simp [identify, h]
  | common => simp [identify, h]
  | proper => simp [identify, h]

theorem identify_of_none {v : Vocabulary} {text : String} (h : shape? v text = none)
    (last : Option Identity) (span : Span) :
    identify v last ⟨text, span⟩ = .error (.malformedName text span) := by
  simp [identify, h]

/-- Two spellings name the same variable if and only if they have the same number of words and these
agree in lower case, one by one. Then they are of the same shape, so that a determiner with its noun
is never the same variable as a proper name. Words that stay within the first 128 characters agree
in lower case if and only if they agree but for the case of the letters A to Z. -/
theorem canonical_eq_iff {t u : String} {j k : NameShape}
    (ht : shape? .standard t = some j) (hj : j ≠ .pronoun)
    (hu : shape? .standard u = some k) (hk : k ≠ .pronoun) :
    (canonical t = canonical u ↔
        List.Forall₂ (fun a b => Text.lower a = Text.lower b) (words t) (words u)) ∧
      (canonical t = canonical u → j = k) ∧
      (∀ a ∈ words t, ∀ b ∈ words u, (∀ c ∈ a ++ b, c.toNat < 128) →
        (Text.lower a = Text.lower b ↔
          foldCase (String.ofList a) = foldCase (String.ofList b))) ∧
      ∀ last span, identify .standard last ⟨t, span⟩ = .ok ⟨canonical t, j⟩ ∧
        identify .standard last ⟨u, span⟩ = .ok ⟨canonical u, k⟩ := by
  have hspells := spells_of_shape? ht hj
  have hspells' := spells_of_shape? hu hk
  have hwords : canonical t = canonical u →
      (words t).map Text.lower = (words u).map Text.lower := by
    intro heq
    rw [← words_canonical hspells.isLetters, ← words_canonical hspells'.isLetters, heq]
  refine ⟨⟨?_, ?_⟩, fun heq => hspells.shape_eq hspells' (hwords heq), ?_, fun last span =>
    ⟨identify_of_shape? ht hj last span, identify_of_shape? hu hk last span⟩⟩
  · intro heq
    have hmap := hwords heq
    rwa [← List.forall₂_eq_eq_eq, List.forall₂_map_left_iff, List.forall₂_map_right_iff] at hmap
  · intro hall
    have hmap : (words t).map Text.lower = (words u).map Text.lower := by
      rwa [← List.forall₂_eq_eq_eq, List.forall₂_map_left_iff, List.forall₂_map_right_iff]
    rw [canonical_eq, canonical_eq, hmap]
  · intro a _ b _ hascii
    have ha := Text.lower_of_ascii fun c hc => hascii c (List.mem_append_left _ hc)
    have hb := Text.lower_of_ascii fun c hc => hascii c (List.mem_append_right _ hc)
    rw [ha, hb, foldCase_ofList, foldCase_ofList, String.ofList_inj]

theorem canonical_eq_iff_boy :
    canonical "The\t BOY" = canonical "the boy" ∧ canonical "a boy" ≠ canonical "the boy" := by
  have hthe : shape? .standard "the boy" = some .common := by decide +kernel
  have hshout : shape? .standard "The\t BOY" = some .common := by decide +kernel
  have ha : shape? .standard "a boy" = some .common := by decide +kernel
  refine ⟨(canonical_eq_iff hshout (by decide) hthe (by decide)).1.mpr ?_, fun heq => ?_⟩
  · decide +kernel
  · have hwords := (canonical_eq_iff ha (by decide) hthe (by decide)).1.mp heq
    exact absurd hwords (by decide +kernel)

/-! ## Spelling out a canonical name -/

/-- Whether the canonical name is a name: no letter of it becomes a mark, and a single word does not
get a role. -/
def Restatable (shape : NameShape) (text : String) : Prop :=
  (∀ w ∈ words text, '\u0130' ∉ w) ∧
    (shape = .simple → canonical text ≠ "ok" ∧ canonical text ≠ "knock")

instance (shape : NameShape) (text : String) : Decidable (Restatable shape text) :=
  inferInstanceAs (Decidable (_ ∧ _))

theorem shapeOfWords?_lower_simple {w : List Char} (hletters : isLetters w = true)
    (hreserved : Vocabulary.standard.isReserved (String.ofList w) = false) :
    shapeOfWords? .standard [Text.lower w] =
      if '\u0130' ∉ w ∧ String.ofList (Text.lower w) ≠ "ok" ∧ String.ofList (Text.lower w) ≠ "knock"
      then some .simple else none := by
  have hlower := isLetters_lower_iff hletters
  have hrole := Vocabulary.isReserved_lower_iff hreserved
  have hpronoun : Vocabulary.standard.isPronoun (String.ofList (Text.lower w)) = false := by
    by_cases h : Vocabulary.standard.isReserved (String.ofList (Text.lower w)) = true
    · rcases hrole.mp h with heq | heq
      · rw [heq]
        decide
      · rw [heq]
        decide
    · exact (Vocabulary.isReserved_eq_false.mp (Bool.not_eq_true _ ▸ h)).2.1
  rw [shapeOfWords?, hpronoun, if_neg Bool.false_ne_true]
  refine if_congr ?_ rfl rfl
  rw [Bool.and_eq_true, hlower, Bool.not_eq_true', ← Bool.not_eq_true, hrole, not_or]

theorem shapeOfWords?_lower_common {d w : List Char}
    (hd : Vocabulary.standard.isDeterminer (String.ofList d) = true)
    (hletters : isLetters w = true) :
    shapeOfWords? .standard [Text.lower d, Text.lower w] =
      if '\u0130' ∉ w then some .common else none := by
  have hlower := Vocabulary.isDeterminer_lower hd
  have hproper : ¬[Text.lower d, Text.lower w].all (isProperWord .standard) = true := by
    intro hall
    exact not_isProperWord hlower (List.all_eq_true.mp hall _ (by simp))
  rw [shapeOfWords?, if_neg hproper, hlower]
  refine if_congr ?_ rfl rfl
  rw [← isLetters_lower_iff hletters]
  simp

/-- Determiners have no dotted capital I. -/
theorem dot_notMem_of_isDeterminer {d : List Char}
    (h : Vocabulary.standard.isDeterminer (String.ofList d) = true) : '\u0130' ∉ d := by
  rw [← isLetters_lower_iff (isLetters_of_isDeterminer h)]
  exact isLetters_of_isDeterminer (Vocabulary.isDeterminer_lower h)

theorem shape?_canonical {text : String} {shape : NameShape}
    (h : shape? .standard text = some shape) (hshape : shape = .simple ∨ shape = .common) :
    shape? .standard (canonical text) = if Restatable shape text then some shape else none := by
  have hname : shape ≠ .pronoun := by
    rcases hshape with rfl | rfl <;> decide
  have hspells := spells_of_shape? h hname
  have hcanonical := canonical_eq text
  rw [shape?, words_canonical hspells.isLetters]
  generalize hws : words text = ws at hspells hcanonical ⊢
  cases hspells with
  | @simple w hletters hreserved =>
    rw [List.map_singleton, List.map_singleton, String.intercalate_singleton] at hcanonical
    rw [List.map_singleton, shapeOfWords?_lower_simple hletters hreserved]
    refine if_congr ?_ rfl rfl
    simp [Restatable, hws, hcanonical]
  | @common d w hd hletters =>
    have hdot := dot_notMem_of_isDeterminer hd
    rw [List.map_cons, List.map_singleton, shapeOfWords?_lower_common hd hletters]
    refine if_congr ?_ rfl rfl
    simp [Restatable, hws, hdot]
  | proper => simp at hshape

/-- A canonical name is its own canonical form. Spelled out, the canonical name of a single word or
of a determiner with its noun names the same variable in the same shape, or nothing if it is not
restatable. -/
theorem canonical_restated {text : String} {shape : NameShape}
    (h : shape? .standard text = some shape) (hshape : shape = .simple ∨ shape = .common) :
    (Restatable shape text →
        shape? .standard (canonical text) = some shape ∧
          ∀ last span, identify .standard last ⟨canonical text, span⟩ =
            .ok ⟨canonical text, shape⟩) ∧
      (¬Restatable shape text →
        shape? .standard (canonical text) = none ∧
          ∀ last span, identify .standard last ⟨canonical text, span⟩ =
            .error (.malformedName (canonical text) span)) := by
  have hname : shape ≠ .pronoun := by
    rcases hshape with rfl | rfl <;> decide
  have hcanonical := canonical_canonical (spells_of_shape? h hname).isLetters
  have hagain := shape?_canonical h hshape
  constructor
  · intro hrestatable
    rw [if_pos hrestatable] at hagain
    refine ⟨hagain, fun last span => ?_⟩
    rw [identify_of_shape? hagain hname, hcanonical]
  · intro hlost
    rw [if_neg hlost] at hagain
    exact ⟨hagain, fun last span => identify_of_none hagain last span⟩

theorem canonical_restated_sisyphus :
    identify .standard none ⟨"σίσυφος", ⟨1, 1, 14⟩⟩ = .ok ⟨"σίσυφος", .simple⟩ ∧
      identify .standard none ⟨"ok", ⟨1, 1, 2⟩⟩ = .error (.malformedName "ok" ⟨1, 1, 2⟩) := by
  have hshape : shape? .standard "ΣΊΣΥΦΟΣ" = some .simple := by decide +kernel
  have hcanonical : canonical "ΣΊΣΥΦΟΣ" = "σίσυφος" := by decide +kernel
  have hkelvin : shape? .standard "o\u212A" = some .simple := by decide +kernel
  have hok : canonical "o\u212A" = "ok" := by decide +kernel
  have hrestated := (canonical_restated hshape (.inl rfl)).1 (by decide +kernel)
  have hlost := (canonical_restated hkelvin (.inl rfl)).2 (by decide +kernel)
  rw [hcanonical] at hrestated
  rw [hok] at hlost
  exact ⟨hrestated.2 none _, hlost.2 none _⟩

/-- Some canonical names are no names: the dotted capital I leaves a mark behind, and with a Kelvin
sign the words "ok" and "knock" are not recognised until they are in lower case. -/
theorem canonical_lost :
    (shape? .standard "\u0130" = some .simple ∧ canonical "\u0130" = "i\u0307" ∧
        shape? .standard "i\u0307" = none) ∧
      (shape? .standard "my \u0130" = some .common ∧ canonical "my \u0130" = "my i\u0307" ∧
        shape? .standard "my i\u0307" = none) ∧
      (shape? .standard "o\u212A" = some .simple ∧ canonical "o\u212A" = "ok" ∧
        shape? .standard "ok" = none) ∧
      shape? .standard "\u212Anock" = some .simple ∧ canonical "\u212Anock" = "knock" ∧
        shape? .standard "knock" = none := by
  decide +kernel

end Name

end Rockstar
