import Rockstar.Proofs.Allocation
import Rockstar.Proofs.CanonicalNames
import Rockstar.Proofs.RoundTrip

/-!
# Texts are taken as they are

A text that stands behind "says", or between double quotes, comes out of the program as it went in
(`runSource_verbatim`). The scanner may find anything in spoken text, but the reader only looks
at what stands behind the verb (`Line.statement?_speech`). The rest is a short program of one or two
statements, for whose constants and variables there is room (`Session.Room`), so that it compiles;
and what it writes is what its evaluation writes (`runSource_of_evaluate`).
-/

namespace Rockstar

/-! ## Reading spoken text -/

theorem Poetic.string_space {text : List Char} (h : text.getLast? ≠ some '\r') :
    string (' ' :: text) = text := by
  have hlast : ¬(' ' :: text).getLast? = some '\r' := by
    cases text with
    | nil => decide
    | cons c cs => rwa [List.getLast?_cons_cons]
  rw [string, dropReturn, if_neg hlast]
  rfl

/-- A simple name is one word of letters that has no role. -/
theorem Name.of_simple {v : Vocabulary} {name : String}
    (h : shapeOfWords? v [name.toList] = some .simple) :
    isLetters name.toList = true ∧ v.isReserved name = false := by
  simp only [shapeOfWords?, String.ofList_toList] at h
  split at h
  · cases h
  · split at h
    next hboth => simpa using hboth
    next => cases h

theorem isPlainWord_of_isLetters {name : String} (h : Name.isLetters name.toList = true) :
    IsPlainWord name := by
  have hquote : Text.isLetter '\'' = false := by decide
  obtain ⟨hne, hall⟩ : name.toList ≠ [] ∧ ∀ c ∈ name.toList, Text.isLetter c = true := by
    simpa [Name.isLetters] using h
  have hnot : '\'' ∉ name.toList := by
    intro hmem
    rw [hall _ hmem] at hquote
    cases hquote
  refine ⟨?_, fun hs => hnot (hs.subset (by simp)), fun hs => hnot (hs.subset (by simp))⟩
  cases hcs : name.toList with
  | nil => exact absurd hcs hne
  | cons c cs =>
    rw [hcs] at hall
    exact ⟨hall c (by simp), fun d hd => by simp [isWordChar, hall d (by simp [hd])]⟩

variable {v : Vocabulary} {name : String}

/-- A word without a role begins none of the statements with a verb in front. -/
theorem Reader.statement_of_name {r : Reader} (hv : r.vocabulary.Extended) {t : Token}
    (hkind : t.kind = .word) (hkeyword : r.vocabulary.isKeyword t.lexeme = false)
    (rest : List Token) : r.statement (t :: rest) = r.nameStatement (t :: rest) := by
  have hword : ∀ word ∈ Vocabulary.standard.keywords, t.isWord word = false := by
    intro word hmem
    simp [Token.isWord, hv.foldCase_ne hkeyword hmem]
  have hverb : Verb.ofWord? t.lexeme = none := by
    have hsubset : ["say", "shout", "whisper", "scream"] ⊆ Vocabulary.standard.keywords := by decide
    have hne : ∀ word ∈ ["say", "shout", "whisper", "scream"], foldCase t.lexeme ≠ word :=
      fun word hmem => hv.foldCase_ne hkeyword (hsubset hmem)
    simp only [List.forall_mem_cons] at hne
    simp [Verb.ofWord?, hne]
  unfold statement
  simp [hkind, hverb, hkeyword, hword "put" (by decide), hword "let" (by decide),
    hword "build" (by decide), hword "knock" (by decide)]

/-- A word without a role in front of a verb of speech is assigned what is spoken. -/
theorem Reader.wholeLine_speech {r : Reader} (hv : r.vocabulary.Extended) {first verb : Token}
    (hkind : first.kind = .word) (hreserved : r.vocabulary.isReserved first.lexeme = false)
    (hcapital : verb.isCapitalised = false) (hverb : verb.isWordIn ["says", "said"] = true)
    (more : List Token) :
    r.wholeLine (first :: verb :: more) = .ok (.assign (reference first first)
      (spokenValue verb more) ((reference first first).span.join (spanTo verb more))) := by
  have hvariable : r.variableRef (first :: verb :: more) =
      .ok (reference first first, verb :: more) := by
    cases hfirst : first.isCapitalised with
    | true =>
      have hmore : (verb :: more).takeWhile
          (fun u => u.isCapitalised && r.continuesName u) = [] :=
        List.takeWhile_cons_of_neg (by simp [hcapital])
      exact variableRef_proper hkind hreserved hfirst hmore
    | false => exact variableRef_simple hkind hreserved hfirst
  have his : ¬verb.isWordIn ["is", "are", "was", "were"] = true := by
    intro his
    rw [not_speech_of_is his] at hverb
    cases hverb
  have hkeyword := (Vocabulary.isReserved_eq_false.mp hreserved).1
  unfold wholeLine
  rw [statement_of_name hv hkind hkeyword, nameStatement, hvariable]
  show (ite _ _ _ >>= _) = _
  rw [if_neg his, if_pos hverb]
  rfl

/-- A reference of one word has that word as its text. -/
theorem Reader.text_reference_word (word : String) (place : Place) (behind : List Char) :
    (reference ((Lexeme.word word).token place behind)
      ((Lexeme.word word).token place behind)).text = word := by
  show String.ofList (Text.takeBytes (place.col + Text.byteSize word.toList - place.col)
    (word.toList ++ behind)) = word
  rw [Nat.add_sub_cancel_left, Text.takeBytes_byteSize_append, String.ofList_toList]

/-- The characters of a line of speech. -/
def speech (name : String) (text : List Char) : List Char :=
  name.toList ++ ' ' :: ("says".toList ++ ' ' :: text)

/-- A line of speech is two words, and then whatever the scanner makes of the text. -/
theorem scanFrom_speech (hplain : IsPlainWord name) (place : Place) (text : List Char) :
    ∃ behind place' more, scanFrom place (speech name text) =
      (Lexeme.word name).token place behind ::
        (Lexeme.word "says").token place' (' ' :: text) :: more := by
  have hends : ∀ cs, Ends (' ' :: cs) := by
    rintro cs d ds ⟨⟩
    exact .inl rfl
  have hverb : ∀ place, scanFrom place ("says".toList ++ ' ' :: text) = _ := fun place =>
    scanFrom_lexeme (x := .word "says") (show IsPlainWord "says" by decide) (hends text) place
  have hspace : ∀ place, scanFrom place (' ' :: ("says".toList ++ ' ' :: text)) = _ :=
    fun place => scanFrom_spaces place 1 ("says".toList ++ ' ' :: text)
  have hfirst : scanFrom place (speech name text) = _ :=
    scanFrom_lexeme (x := .word name) hplain (hends _) place
  rw [hspace, hverb] at hfirst
  exact ⟨_, _, _, hfirst⟩

/-- Whatever stands behind the verb, a line of speech assigns all of it. -/
theorem Line.statement?_speech (hv : v.Extended)
    (hname : Name.shapeOfWords? v [name.toList] = some .simple) {text : List Char}
    (htext : text.getLast? ≠ some '\r') {l : Line} (hl : l.text = speech name text) :
    ∃ span span' span'', l.statement? v = some (.ok
      (.assign ⟨name, span⟩ (.literal (.text (String.ofList text)) span') span'')) := by
  obtain ⟨hletters, hreserved⟩ := Name.of_simple hname
  obtain ⟨behind, place, more, hscan⟩ :=
    scanFrom_speech (isPlainWord_of_isLetters hletters) l.place text
  have hsays :
      ((Lexeme.word "says").token place (' ' :: text)).isWordIn ["says", "said"] = true := by
    have heq : (foldCase "says" == "says") = true := by decide
    simp [Token.isWordIn, Lexeme.isWord_token, heq]
  have hcapital : ((Lexeme.word "says").token place (' ' :: text)).isCapitalised = false := by
    rw [Lexeme.isCapitalised_token]
    decide
  have hkind : ((Lexeme.word name).token l.place behind).kind = .word := rfl
  have hwhole := Reader.wholeLine_speech (r := ⟨v, l.stop⟩) hv hkind hreserved hcapital hsays more
  have htokens : l.tokens = _ := (congrArg (scanFrom l.place) hl).trans hscan
  have hstring : Poetic.string ((Lexeme.word "says").token place (' ' :: text)).behind = text :=
    Poetic.string_space htext
  have href := Reader.text_reference_word name l.place behind
  unfold Line.statement?
  rw [htokens]
  dsimp only
  rw [hwhole, Reader.spokenValue, hstring]
  generalize Reader.reference _ _ = ref at href ⊢
  subst href
  exact ⟨_, _, _, rfl⟩

/-! ## Compiling with room left -/

/-- So many more constants have an index, and a variable has a slot. -/
structure Session.Room (n : Nat) (s : Session) : Prop where
  keyed : s.asm.pool.table.Keyed Constant.key
  pool : s.asm.pool.size + n ≤ indexLimit

/-- A constant gets an index if there is room for it. -/
theorem Pool.add_room {p : Pool} (h : p.table.Keyed Constant.key) (c : Constant) :
    (p.add c).2.table.Keyed Constant.key ∧ (p.add c).1 < (p.add c).2.size ∧
      (p.add c).2.size ≤ p.size + 1 := by
  obtain ⟨hkeyed, found, hfound, -⟩ := h.enter c
  refine ⟨hkeyed, Registry.lt_size_of_get? hfound, ?_⟩
  show (p.table.enter c.key c).2.size ≤ p.table.size + 1
  unfold Registry.enter
  split
  · exact Nat.le_succ _
  · exact Nat.le_of_eq (Registry.size_push _ _ _)

namespace CompileM

variable {α β : Type} {o : Options} {s : Session} {n : Nat}

/-- The step succeeds, with a result and a session as described. -/
def Succeeds (f : CompileM α) (s : Session) (Q : α → Session → Prop) : Prop :=
  ∃ a s', f s = (.ok a, s') ∧ Q a s'

theorem Succeeds.bind {f : CompileM α} {g : α → CompileM β} {Q : α → Session → Prop}
    {R : β → Session → Prop} (hf : Succeeds f s Q)
    (hg : ∀ a s', Q a s' → Succeeds (g a) s' R) : Succeeds (f >>= g) s R := by
  obtain ⟨a, s₁, hrun, hq⟩ := hf
  obtain ⟨b, s₂, hrun', hr⟩ := hg a s₁ hq
  refine ⟨b, s₂, ?_, hr⟩
  rw [bind_apply, hrun]
  exact hrun'

/-- A session with room for constants and with the same slots. -/
def SameSlots (n : Nat) (s : Session) {α : Type} (_ : α) (s' : Session) : Prop :=
  s'.Room n ∧ s'.slots = s.slots

theorem succeeds_setLine (h : s.Room n) (line : Nat) :
    Succeeds (setLine line) s (SameSlots n s) :=
  ⟨(), _, rfl, ⟨h.keyed, h.pool⟩, rfl⟩

theorem succeeds_emit (h : s.Room n) (i : Instr) : Succeeds (emit i) s (SameSlots n s) :=
  ⟨(), _, rfl, ⟨h.keyed, h.pool⟩, rfl⟩

theorem succeeds_emitIndexed (h : s.Room (n + 1)) (c : Constant) (instr : UInt16 → Instr) :
    Succeeds (assemble (·.emitIndexed c instr)) s (SameSlots n s) := by
  obtain ⟨hkeyed, hlt, hle⟩ := Pool.add_room h.keyed c
  have hpool := h.pool
  have hindex : (s.asm.pool.add c).1 < indexLimit := by omega
  refine ⟨(), { s with asm := (s.asm.emitIndexed c instr).2 }, ?_, ?_, rfl⟩
  · rw [assemble_apply, Assembler.emitIndexed_eq, if_pos hindex]
  · rw [Assembler.emitIndexed_eq, if_pos hindex]
    exact ⟨hkeyed, by dsimp only; omega⟩

theorem succeeds_identify (h : s.Room n) {name : String}
    (hname : Name.shape? o.vocabulary name = some .simple) (span : Span) :
    Succeeds (identify o ⟨name, span⟩) s fun i s' =>
      i.name = Name.canonical name ∧ SameSlots n s i s' := by
  have hidentify := Name.identify_of_shape? hname (by simp) s.last span
  refine ⟨⟨Name.canonical name, .simple⟩,
    { s with last := some ⟨Name.canonical name, .simple⟩ }, ?_, rfl, ⟨h.keyed, h.pool⟩, rfl⟩
  unfold identify
  rw [hidentify]
  rfl

theorem succeeds_literal (h : s.Room (n + 1)) (text : String) (span : Span) :
    Succeeds (expr o (.literal (.text text) span)) s (SameSlots n s) :=
  (succeeds_emitIndexed h (.text text) Assembler.loadInstr).bind fun _ _ h' =>
    ⟨_, _, rfl, h'⟩

/-- A statement that assigns a text to a name compiles, and the name then has a slot. -/
theorem succeeds_assign (h : s.Room (n + 1)) (hslots : s.slots.size < indexLimit) {name : String}
    (hname : Name.shape? o.vocabulary name = some .simple) (text : String)
    (span span' span'' : Span) :
    Succeeds (statement o (.assign ⟨name, span⟩ (.literal (.text text) span') span'')) s
      fun _ s' => s'.Room n ∧ ∃ i, s'.slots.find? (Name.canonical name) = some i := by
  have hparts : ∀ s₁ : Session, s₁.Room (n + 1) →
      Succeeds (assignParts o ⟨name, span⟩ (.literal (.text text) span')) s₁ fun i s' =>
        i.name = Name.canonical name ∧ SameSlots n s₁ i s' := by
    intro s₁ h₁
    unfold assignParts
    -- the literal and the name do not depend on each other
    split
    · refine (succeeds_identify h₁ hname span).bind fun i s₂ ⟨hi, h₂, hs₂⟩ => ?_
      refine (succeeds_literal h₂ text span').bind fun _ s₃ ⟨h₃, hs₃⟩ => ?_
      exact ⟨i, s₃, rfl, hi, h₃, hs₃.trans hs₂⟩
    · refine (succeeds_literal h₁ text span').bind fun _ s₂ ⟨h₂, hs₂⟩ => ?_
      obtain ⟨i, s₃, hrun, hi, h₃, hs₃⟩ := succeeds_identify h₂ hname span
      exact ⟨i, s₃, hrun, hi, h₃, hs₃.trans hs₂⟩
  refine (succeeds_setLine h _).bind fun _ s₁ ⟨h₁, hs₁⟩ => ?_
  refine (hparts s₁ h₁).bind fun i s₂ ⟨hi, h₂, hs₂⟩ => ?_
  have hsize : s₂.slots.size < indexLimit := by rwa [hs₂, hs₁]
  cases henter : s₂.slots.enter i.name .any span with
  | mk result slots =>
    cases result with
    | error e =>
      have herror := (SlotTable.enter_eq_error_iff s₂.slots i.name .any span e).mp
        (congrArg Prod.fst henter)
      omega
    | ok slot =>
      have hwrite : Succeeds (slotToWrite i span) s₂ fun _ s' =>
          s'.Room n ∧ s'.slots.find? i.name = some slot := by
        refine ⟨slot, { s₂ with slots := slots }, ?_, ⟨h₂.keyed, h₂.pool⟩, ?_⟩
        · rw [slotToWrite_apply, henter]
        · exact SlotTable.find?_enter henter
      refine hwrite.bind fun _ s₃ ⟨h₃, hfind⟩ => ?_
      obtain ⟨_, s₄, hrun, h₄, hs₄⟩ := succeeds_emit h₃ (.setField (UInt16.ofNat _))
      exact ⟨(), s₄, hrun, h₄, slot, by rw [hs₄, ← hi, hfind]⟩

/-- What is written behind the compiled value of an output. -/
theorem succeeds_write (h : s.Room 1) :
    Succeeds (do emitCall .toText; emit .writeLine) s fun _ _ => True := by
  refine (succeeds_emitIndexed h (.routine Routine.toText.hash) _).bind fun _ s₁ ⟨h₁, _⟩ => ?_
  obtain ⟨_, s₂, hrun, -⟩ := succeeds_emit h₁ .writeLine
  exact ⟨(), s₂, hrun, trivial⟩

/-- An output of a text compiles. -/
theorem succeeds_outputText (h : s.Room 2) (verb : Verb) (text : String) (span span' : Span) :
    Succeeds (statement o (.output verb (.literal (.text text) span) span')) s fun _ _ => True := by
  refine (succeeds_setLine h _).bind fun _ s₁ ⟨h₁, _⟩ => ?_
  exact (succeeds_literal h₁ text span).bind fun _ s₂ ⟨h₂, _⟩ => succeeds_write h₂

/-- An output of a variable that has a slot compiles. -/
theorem succeeds_outputVariable (h : s.Room 1) (verb : Verb) {name : String} {slot : Nat}
    (hname : Name.shape? o.vocabulary name = some .simple)
    (hslot : s.slots.find? (Name.canonical name) = some slot) (span span' : Span) :
    Succeeds (statement o (.output verb (.variable ⟨name, span⟩) span')) s fun _ _ => True := by
  refine (succeeds_setLine h _).bind fun _ s₁ ⟨h₁, hs₁⟩ => ?_
  have hread : Succeeds (readVariable o ⟨name, span⟩) s₁ fun _ s' => s'.Room 1 := by
    refine (succeeds_identify h₁ hname span).bind fun i s₂ ⟨hi, h₂, hs₂⟩ => ?_
    have hfind : Succeeds (slotToRead o i span) s₂ fun slot? s' => slot? = some slot ∧ s' = s₂ := by
      refine ⟨some slot, s₂, ?_, rfl, rfl⟩
      unfold slotToRead
      rw [hi, hs₂, hs₁, hslot]
    refine hfind.bind ?_
    rintro _ _ ⟨rfl, rfl⟩
    refine (succeeds_emit h₂ _).bind fun _ s₃ ⟨h₃, _⟩ => ?_
    exact ⟨_, s₃, rfl, h₃⟩
  exact hread.bind fun _ s₂ h₂ => succeeds_write h₂

end CompileM

theorem Session.room_start (o : Options) {n : Nat} (h : n ≤ indexLimit) :
    (Session.start o).Room n :=
  ⟨Registry.keyed_empty _, by simpa [Session.start, Assembler.start, Pool.empty, Pool.size,
    Registry.size, Registry.empty] using h⟩

/-! ## Running -/

/-- A program that compiles writes what its evaluation writes. -/
theorem runSource_of_evaluate {o : Options} {source : String} {program : List Statement}
    (hparse : parse o.vocabulary source.toList = .ok program)
    (hcompile : CompileM.Succeeds (CompileM.statements o program) (.start o) fun _ _ => True)
    (hhalt : (evaluate Sink.collect o program .start "").halt = none) :
    runSource o source = (none, (evaluate Sink.collect o program .start "").out) := by
  obtain ⟨_, s, hstatements, -⟩ := hcompile
  have hexecutable : compileSource o source = .ok s.finish := by
    rw [compileSource_of_parse hparse, compile, hstatements]
    rfl
  have hmatches :=
    matches_of_statements hstatements (source_of_parse hparse).literals Sink.collect ""
  have hfault : ((Machine.start s.finish).execute Sink.collect s.finish "").fault = none := by
    simpa [hhalt] using hmatches.fault
  unfold runSource
  rw [hexecutable]
  dsimp only
  rw [hfault, hmatches.out]
  rfl

/-- What was assigned to a name is written when the name is. -/
theorem evaluate_assigned {o : Options} {name : String}
    (hname : Name.shape? o.vocabulary name = some .simple) (text : String) (verb : Verb)
    (a b c d e : Span) :
    let ref := evaluate Sink.collect o
      [.assign ⟨name, a⟩ (.literal (.text text) b) c,
        .output verb (.variable ⟨name, d⟩) e] .start ""
    ref.halt = none ∧ ref.out = text ++ "\n" := by
  have hrefer : ∀ (env : Env) (span : Span), env.refer o.vocabulary ⟨name, span⟩ =
      .ok (Name.canonical name, { env with last := some (Name.canonical name) }) := by
    intro env span
    simp [Env.refer, hname]
  simp [evaluate, Statement.eval, Env.assignParts, Expr.eval, hrefer, bind, Except.bind, pure,
    Except.pure, Env.assign, Env.read, Sink.collect, Value.toText]

theorem evaluate_literal (o : Options) (text : String) (verb : Verb) (a b : Span) :
    let ref := evaluate Sink.collect o [.output verb (.literal (.text text) a) b] .start ""
    ref.halt = none ∧ ref.out = text ++ "\n" := by
  simp [evaluate, Statement.eval, Expr.eval, bind, Except.bind, pure, Except.pure, Sink.collect,
    Value.toText]

/-! ## Reading the two programs -/

theorem Statement.of_unplaced_output {stmt : Statement} {verb : Verb} {e : Expr} {span : Span}
    (h : stmt.unplaced = .output verb e span) :
    ∃ value span', stmt = .output verb value span' ∧ value.unplaced = e := by
  cases stmt with
  | output verb' value span' =>
    cases h
    exact ⟨value, span', rfl, rfl⟩
  | _ => cases h

/-- A text between double quotes behind a verb of output. -/
theorem parse_quoted (hv : v.Extended) {text : String} (hquote : '"' ∉ text.toList)
    (hnewline : '\n' ∉ text.toList) :
    ∃ a b, parse v ("Shout \"" ++ text ++ "\"").toList =
      .ok [.output .shout (.literal (.text text) a) b] := by
  obtain ⟨stmt, hparse, hstmt⟩ := Sentence.parse_print (s := .output .shout (.text text)) hv
    ⟨hquote, hnewline⟩ (.inl rfl)
  obtain ⟨value, b, rfl, hvalue⟩ := Statement.of_unplaced_output hstmt
  have hsource : ("Shout \"" ++ text ++ "\"").toList =
      (Sentence.output .shout (.text text)).print.toList ++ [] := by
    simp [Sentence.print, Verb.print, Phrase.print]
  rw [hsource]
  cases value with
  | literal w a =>
    cases hvalue
    exact ⟨a, b, hparse⟩
  | _ => cases hvalue

/-- A simple name behind a verb of output. -/
theorem parse_shouted (hv : v.Extended)
    (hname : Name.shapeOfWords? v [name.toList] = some .simple) :
    ∃ d e, parse v ("Shout " ++ name).toList = .ok [.output .shout (.variable ⟨name, d⟩) e] := by
  obtain ⟨hletters, hreserved⟩ := Name.of_simple hname
  have hspells : v.Spells [name] := by
    refine ⟨?_, by simpa using isPlainWord_of_isLetters hletters⟩
    cases hcapital : isCapitalised name with
    | true => exact .proper (by simp) (by simp [hcapital, hreserved])
    | false => exact .simple hcapital hreserved
  obtain ⟨stmt, hparse, hstmt⟩ := Sentence.parse_print (s := .output .shout (.name [name])) hv
    hspells (.inl rfl)
  obtain ⟨value, e, rfl, hvalue⟩ := Statement.of_unplaced_output hstmt
  have hsource : ("Shout " ++ name).toList =
      (Sentence.output .shout (.name [name])).print.toList ++ [] := by
    simp [Sentence.print, Verb.print, Phrase.print]
  rw [hsource]
  cases value with
  | «variable» ref =>
    obtain ⟨text, d⟩ := ref
    obtain rfl : text = name := by
      have htext := congrArg Variable.text (Expr.variable.inj hvalue)
      simpa [Variable.mapSpan] using htext
    exact ⟨d, e, hparse⟩
  | _ => cases hvalue

/-- A line of speech, and below it an output of its variable. -/
theorem parse_spoken (hv : v.Extended)
    (hname : Name.shapeOfWords? v [name.toList] = some .simple) {text : String}
    (hnewline : '\n' ∉ text.toList) (hreturn : text.toList.getLast? ≠ some '\r') :
    ∃ a b c d e, parse v (name ++ " says " ++ text ++ "\n" ++ "Shout " ++ name).toList =
      .ok [.assign ⟨name, a⟩ (.literal (.text text) b) c,
        .output .shout (.variable ⟨name, d⟩) e] := by
  have hletters := (isPlainWord_of_isLetters (Name.of_simple hname).1).1.isWordChar
  have hline : '\n' ∉ speech name text.toList := by
    have hname : '\n' ∉ name.toList := fun hmem => absurd (hletters _ hmem) (by decide)
    simp [speech, hname, hnewline]
  obtain ⟨isLast, more, hsplit, hmore⟩ := split_of_line hline (.inr rfl)
  obtain ⟨a, b, c, hspeech⟩ := Line.statement?_speech (l := ⟨1, 0, speech name text.toList, isLast⟩)
    hv hname hreturn rfl
  have habove : parse v (speech name text.toList ++ ['\n']) =
      .ok [.assign ⟨name, a⟩ (.literal (.text text) b) c] := by
    unfold parse
    rw [hsplit, List.filterMap_cons, hspeech, filterMap_of_blank v hmore, String.ofList_toList]
    rfl
  obtain ⟨d, e, hbelow⟩ := parse_shouted hv hname
  have hsource : (name ++ " says " ++ text ++ "\n" ++ "Shout " ++ name).toList =
      (speech name text.toList ++ ['\n']) ++ ("Shout " ++ name).toList := by
    simp [speech]
  rw [hsource, parse_below v (.inr (by simp)), habove, hbelow]
  exact ⟨a, b, c, _, _, rfl⟩

/-- Texts are taken as they are. What is assigned to a simple name by a line of speech, which is all
that stands behind the verb, is written unchanged when the variable is shouted, and so is whatever
stands between double quotes. -/
theorem runSource_verbatim (o : Options) (hv : o.vocabulary.Extended) :
    (∀ name text : String, Name.shapeOfWords? o.vocabulary [name.toList] = some .simple →
      '\n' ∉ text.toList → text.toList.getLast? ≠ some '\r' →
        runSource o (name ++ " says " ++ text ++ "\n" ++ "Shout " ++ name) =
          (none, text ++ "\n")) ∧
    ∀ text : String, '"' ∉ text.toList → '\n' ∉ text.toList →
      runSource o ("Shout \"" ++ text ++ "\"") = (none, text ++ "\n") := by
  constructor
  · intro name text hname hnewline hreturn
    have hshape : Name.shape? o.vocabulary name = some .simple := by
      have hword := (isPlainWord_of_isLetters (Name.of_simple hname).1).1
      rw [Name.shape?, Name.words, Text.words_of_isWord hword, hname]
    obtain ⟨a, b, c, d, e, hparse⟩ := parse_spoken hv hname hnewline hreturn
    obtain ⟨hhalt, hout⟩ := evaluate_assigned hshape text .shout a b c d e
    rw [runSource_of_evaluate hparse ?_ hhalt, hout]
    have hslots : (Session.start o).slots.size < indexLimit := by
      simp [Session.start, SlotTable.size, SlotTable.empty, Registry.size, Registry.empty,
        indexLimit]
    refine (CompileM.succeeds_assign (Session.room_start o (n := 2) (by decide)) hslots hshape text
      a b c).bind fun _ s₁ hassigned => ?_
    obtain ⟨hroom, i, hi⟩ := hassigned
    exact (CompileM.succeeds_outputVariable hroom .shout hshape hi d e).bind fun _ s₂ _ =>
      ⟨(), s₂, rfl, trivial⟩
  · intro text hquote hnewline
    obtain ⟨a, b, hparse⟩ := parse_quoted hv hquote hnewline
    obtain ⟨hhalt, hout⟩ := evaluate_literal o text .shout a b
    rw [runSource_of_evaluate hparse ?_ hhalt, hout]
    exact (CompileM.succeeds_outputText (Session.room_start o (by decide)) .shout text a b).bind
      fun _ s₁ _ => ⟨(), s₁, rfl, trivial⟩

/-- Quotes and parentheses that do not close, characters that are no tokens, and spaces. -/
theorem runSource_verbatim_noise :
    Vocabulary.standard.Extended ∧
      Name.shapeOfWords? Vocabulary.standard ["Tommy".toList] = some .simple ∧
      runSource {} ("Tommy" ++ " says " ++ "  (it ain't \"over #é" ++ "\n" ++ "Shout " ++ "Tommy") =
        (none, "  (it ain't \"over #é" ++ "\n") ∧
      runSource {} ("Shout \"" ++ " (not ) a comment\r" ++ "\"") =
        (none, " (not ) a comment\r" ++ "\n") := by
  have hname : Name.shapeOfWords? Vocabulary.standard ["Tommy".toList] = some .simple := by
    decide +kernel
  obtain ⟨hspoken, hquoted⟩ := runSource_verbatim {} .standard
  exact ⟨.standard, hname, hspoken _ _ hname (by decide) (by decide),
    hquoted _ (by decide) (by decide)⟩

end Rockstar
