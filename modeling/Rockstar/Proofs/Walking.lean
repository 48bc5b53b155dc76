import Rockstar.Listing
import Rockstar.Proofs.Run
import Rockstar.Proofs.Wording

/-!
# Three ways through code

Code need not come from an assembler: any bytes can stand in it, with or without operands behind
the last operation code. Still the three readers of code stop at the same places.

* The list of operation codes is what a walk meets (`Code.opcodesFrom_eq`).
* A machine that runs on goes to the next place of the walk, although it gets there by reading
  operands (`Machine.offset_of_step_running`), so it has met the beginning of the walk when it stops
  (`Machine.prefix_fetched`).
* A listing is a walk in words, and offset and operation code can be read off each of its lines
  again (`Executable.readLine_eq`).
-/

namespace Rockstar

namespace Code

/-! ## Operation codes -/

/-- The operation code that is fetched is the one that stands there. -/
theorem opcode?_fetch (c : Code) (offset : Nat) : (c.fetch offset).opcode? = c.opcode? offset := by
  unfold fetch opcode? byte?
  cases c.cells[offset]? with
  | none => rfl
  | some cell =>
    simp only [Option.map_some, Option.bind_some]
    cases Opcode.ofByte? cell.byte with
    | none => rfl
    | some op =>
      cases hdecode : c.decode op (offset + 1) with
      | error operand => simp [hdecode, Fetch.opcode?]
      | ok result =>
        have hop : result.1.opcode = op := (decode_ok hdecode).1
        simp [hdecode, Fetch.opcode?, hop]

theorem walkFrom_of_lt {c : Code} {offset : Nat} (h : offset < c.size) :
    c.walkFrom offset =
      (offset, c.fetch offset) :: c.walkFrom ((c.fetch offset).nextOffset offset) := by
  rw [walkFrom, if_pos h]

theorem walkFrom_of_le {c : Code} {offset : Nat} (h : c.size ≤ offset) :
    c.walkFrom offset = [] := by
  rw [walkFrom, if_neg (by omega)]

/-- Reading operation codes alone leads to the same places as a walk. -/
theorem opcodesFrom_eq (c : Code) (offset : Nat) :
    c.opcodesFrom offset = (c.walkFrom offset).filterMap (·.2.opcode?) := by
  fun_induction c.opcodesFrom offset with
  | case1 offset hlt op hop ih =>
    rw [← opcode?_fetch] at hop
    rw [walkFrom_of_lt hlt, ih]
    simp [Fetch.nextOffset, hop]
  | case2 offset hlt hop ih =>
    rw [← opcode?_fetch] at hop
    rw [walkFrom_of_lt hlt, ih]
    simp [Fetch.nextOffset, hop]
  | case3 offset hle => rw [walkFrom_of_le (by omega), List.filterMap_nil]

/-! ## Where a walk leads -/

theorem fetch_of_mem_walkFrom {c : Code} {start offset : Nat} {f : Fetch}
    (h : (offset, f) ∈ c.walkFrom start) :
    start ≤ offset ∧ offset < c.size ∧ c.fetch offset = f := by
  fun_induction c.walkFrom start with
  | case1 start hlt ih =>
    rcases List.mem_cons.mp h with heq | hmem
    · cases heq
      exact ⟨Nat.le_refl _, hlt, rfl⟩
    · have hnext := (c.fetch start).lt_nextOffset start
      obtain ⟨hle, hsize, hfetch⟩ := ih hmem
      exact ⟨by omega, hsize, hfetch⟩
  | case2 start hle => cases h

/-- One place of a walk, and the next one. -/
def Adjacent (here next : Nat × Option Opcode) : Prop :=
  next.1 = here.1 + 1 + (here.2.map Opcode.operandSize).getD 0

theorem isChain_walkFrom (c : Code) (start : Nat) :
    ((c.walkFrom start).map fun (offset, f) => (offset, f.opcode?)).IsChain Adjacent := by
  fun_induction c.walkFrom start with
  | case1 start hlt ih =>
    rw [List.map_cons]
    refine List.isChain_cons.mpr ⟨?_, ih⟩
    intro next hnext
    by_cases hmore : (c.fetch start).nextOffset start < c.size
    · rw [walkFrom_of_lt hmore] at hnext
      cases hnext
      show (c.fetch start).nextOffset start =
        start + 1 + ((c.fetch start).opcode?.map Opcode.operandSize).getD 0
      unfold Fetch.nextOffset
      cases (c.fetch start).opcode? with
      | none => rfl
      | some op => rfl
    · rw [walkFrom_of_le (by omega)] at hnext
      cases hnext
  | case2 start hle => exact .nil

end Code

/-! ## The machine -/

namespace Machine

variable {σ : Type} {sink : Sink σ} {x : Executable}

/-- The offsets at which one call of `execute` finds a byte and reads it as an operation code, in
order. At the last one there may be no operation code, or one without all of its operands. -/
def fetched (sink : Sink σ) (x : Executable) (m : Machine) (out : σ) : List Nat :=
  if m.finished = false ∧ m.offset < x.code.size then
    match _h : m.step sink x out with
    | .running m' out' => m.offset :: fetched sink x m' out'
    | .stopped _ => [m.offset]
  else []
termination_by x.code.size - m.offset
decreasing_by
  have := lt_of_step_running _h
  omega

/-- What a step has done that goes on running. -/
theorem exists_of_step_running {m m' : Machine} {out out' : σ}
    (h : m.step sink x out = .running m' out') :
    m.finished = false ∧ ∃ i line next, x.code.fetch m.offset = .instr i line next ∧
      apply sink ⟨m.offset, next, line⟩ out
        (m.memory.perform ⟨m.offset, next, line⟩ x.pool i) = .running m' out' := by
  have hrun : m.finished = false := by
    cases hfinished : m.finished with
    | false => rfl
    | true =>
      rw [step, hfinished] at h
      cases h
  refine ⟨hrun, ?_⟩
  cases hfetch : x.code.fetch m.offset with
  | instr i line next =>
    rw [step_of_fetch out hrun hfetch] at h
    exact ⟨i, line, next, rfl, h⟩
  | invalid b line =>
    rw [step, hrun, hfetch] at h
    cases h
  | truncated op line operand =>
    rw [step, hrun, hfetch] at h
    cases h
  | ended =>
    rw [step, hrun, hfetch] at h
    cases h

/-- The machine that an effect lets run on stands behind the instruction. -/
theorem offset_of_apply_running {site : Site} {out out' : σ} {effect : Effect} {m' : Machine}
    (h : apply sink site out effect = .running m' out') : m'.offset = site.next := by
  cases effect with
  | proceed memory =>
    cases h
    rfl
  | write text memory =>
    simp only [apply] at h
    split at h
    · cases h
      rfl
    · cases h
  | finish memory =>
    simp only [apply] at h
    split at h <;> cases h
  | fault f memory => cases h

/-- A machine that runs on stands where a walk goes on. -/
theorem offset_of_step_running {m m' : Machine} {out out' : σ}
    (h : m.step sink x out = .running m' out') :
    m'.offset = (x.code.fetch m.offset).nextOffset m.offset := by
  obtain ⟨-, i, line, next, hfetch, happly⟩ := exists_of_step_running h
  rw [offset_of_apply_running happly, hfetch]
  -- the machine is behind the last operand that it has read, the walk goes by the operation code
  exact (Code.fetch_instr hfetch).2

/-- Until it stops, a machine meets the first places of a walk. -/
theorem prefix_fetched (sink : Sink σ) (x : Executable) (m : Machine) (out : σ) :
    m.fetched sink x out <+: (x.code.walkFrom m.offset).map (·.1) := by
  fun_induction m.fetched sink x out with
  | case1 m out hrun m' out' hstep ih =>
    rw [offset_of_step_running hstep] at ih
    rw [Code.walkFrom_of_lt hrun.2, List.map_cons, List.prefix_cons_inj]
    exact ih
  | case2 m out hrun run hstep =>
    rw [Code.walkFrom_of_lt hrun.2, List.map_cons, List.prefix_cons_inj]
    exact List.nil_prefix
  | case3 m out hstop => exact List.nil_prefix

/-- A machine on a run stands at a place of the walk. -/
theorem Reaches.mem_walkFrom {m m' : Machine} {out out' : σ} (h : Reaches sink x m out m' out')
    (hlt : m'.offset < x.code.size) :
    (m'.offset, x.code.fetch m'.offset) ∈ x.code.walkFrom m.offset := by
  induction h with
  | refl m out =>
    rw [Code.walkFrom_of_lt hlt]
    exact List.mem_cons_self
  | step hstep hrest ih =>
    rw [Code.walkFrom_of_lt (lt_of_step_running hstep).1, ← offset_of_step_running hstep]
    exact List.mem_cons_of_mem _ (ih hlt)

/-- A machine has performed all that a walk meets in front of it. -/
theorem Reaches.exists_passed {m m' : Machine} {out out' : σ} (h : Reaches sink x m out m' out')
    {offset : Nat} {f : Fetch} (hmem : (offset, f) ∈ x.code.walkFrom m.offset)
    (hlt : offset < m'.offset) :
    ∃ m₀ out₀ m₁ out₁, Reaches sink x m out m₀ out₀ ∧ m₀.offset = offset ∧
      m₀.step sink x out₀ = .running m₁ out₁ ∧ Reaches sink x m₁ out₁ m' out' := by
  induction h with
  | refl m out =>
    have hle := (Code.fetch_of_mem_walkFrom hmem).1
    omega
  | @step m m₁ m₂ out out₁ out₂ hstep hrest ih =>
    rw [Code.walkFrom_of_lt (lt_of_step_running hstep).1, ← offset_of_step_running hstep] at hmem
    rcases List.mem_cons.mp hmem with heq | hmem
    · cases heq
      exact ⟨m, out, m₁, out₁, .refl m out, rfl, hstep, hrest⟩
    · obtain ⟨m₃, out₃, m₄, out₄, hreach, hoffset, hstep', hrest'⟩ := ih hmem hlt
      exact ⟨m₃, out₃, m₄, out₄, .step hstep hreach, hoffset, hstep', hrest'⟩

/-- The offsets that are met are those of the machines on the run. -/
theorem mem_fetched_iff {m : Machine} {out : σ} {offset : Nat} :
    offset ∈ m.fetched sink x out ↔
      ∃ m' out', Reaches sink x m out m' out' ∧ m'.finished = false ∧ m'.offset = offset ∧
        offset < x.code.size := by
  constructor
  · intro h
    fun_induction m.fetched sink x out with
    | case1 m out hrun m' out' hstep ih =>
      rcases List.mem_cons.mp h with rfl | hmem
      · exact ⟨m, out, .refl m out, hrun.1, rfl, hrun.2⟩
      · obtain ⟨m₁, out₁, hreach, hrest⟩ := ih hmem
        exact ⟨m₁, out₁, .step hstep hreach, hrest⟩
    | case2 m out hrun run hstep =>
      obtain rfl := List.mem_singleton.mp h
      exact ⟨m, out, .refl m out, hrun.1, rfl, hrun.2⟩
    | case3 m out hstop => cases h
  · rintro ⟨m', out', hreach, hrun, rfl, hlt⟩
    induction hreach with
    | refl m out =>
      rw [fetched, if_pos ⟨hrun, hlt⟩]
      split <;> exact List.mem_cons_self
    | @step m m₁ m₂ out out₁ out₂ hstep _ ih =>
      have hrunning := (exists_of_step_running hstep).1
      have hinside := (lt_of_step_running hstep).1
      rw [fetched, if_pos ⟨hrunning, hinside⟩]
      split
      next m₃ out₃ hstep' =>
        rw [hstep] at hstep'
        cases hstep'
        exact List.mem_cons_of_mem _ (ih hrun hlt)
      next run hstop =>
        rw [hstep] at hstop
        cases hstop

end Machine

/-! ## Listings -/

namespace Text

theorem isSpace_of_all {w : List Char} (h : w.all (!isSpace ·) = true) :
    ∀ c ∈ w, isSpace c = false := by
  intro c hc
  simpa using List.all_eq_true.mp h c hc

theorem isSpace_of_isDigit {c : Char} (h : c.isDigit = true) : isSpace c = false := by
  have hdigits : ∀ n ∈ List.range' 48 10, Run.covers spaceRuns n = false := by decide
  refine hdigits c.toNat ?_
  simp only [Char.isDigit, ge_iff_le, Bool.and_eq_true, decide_eq_true_eq] at h
  rw [List.mem_range'_1]
  exact ⟨h.1, Nat.lt_succ_of_le h.2⟩

theorem isSpace_toString {n : Nat} : ∀ c ∈ (toString n).toList, isSpace c = false := by
  intro c hc
  rw [Nat.toString_eq_ofList_toDigits, String.toList_ofList] at hc
  exact isSpace_of_isDigit (Nat.isDigit_of_mem_toDigits (by decide) (by decide) hc)

theorem toString_ne_nil (n : Nat) : (toString n).toList ≠ [] := by
  rw [Nat.toString_eq_ofList_toDigits, String.toList_ofList]
  exact Nat.toDigits_ne_nil

/-- Leading zeros do not change a number. -/
theorem ofDigitChars_padLeft (width n : Nat) :
    Nat.ofDigitChars 10 (padLeft width '0' (toString n)).toList 0 = n := by
  simp [padLeft, Nat.ofDigitChars_append]

theorem isSpace_padLeft (width n : Nat) :
    ∀ c ∈ (padLeft width '0' (toString n)).toList, isSpace c = false := by
  intro c hc
  rw [padLeft, String.toList_append, String.toList_ofList, List.mem_append] at hc
  rcases hc with hzero | hdigit
  · rw [List.eq_of_mem_replicate hzero]
    decide
  · exact isSpace_toString c hdigit

theorem padLeft_ne_nil (width n : Nat) : (padLeft width '0' (toString n)).toList ≠ [] := by
  rw [padLeft, String.toList_append]
  exact List.append_ne_nil_of_right_ne_nil _ (toString_ne_nil n)

end Text

namespace Opcode

theorem ofName?_name (op : Opcode) : ofName? op.name = some op := by
  cases op <;> decide

theorem isSpace_name (op : Opcode) : ∀ c ∈ op.name.toList, Text.isSpace c = false := by
  refine Text.isSpace_of_all ?_
  cases op <;> decide

theorem name_ne_nil (op : Opcode) : op.name.toList ≠ [] := by
  cases op <;> decide

end Opcode

namespace Executable

/-- Reads a line of a listing back: the offset at its beginning, and the operation code that it
names, if it names one. -/
def readLine (line : String) : Option (Nat × Option Opcode) :=
  match Text.words line.toList with
  | offset :: _ :: name :: _ =>
    some (Nat.ofDigitChars 10 offset 0, Opcode.ofName? (String.ofList name))
  | _ => none

variable (x : Executable)

/-- Behind the name of an instruction stands a space, or the line ends. -/
theorem instrText_eq (i : Instr) :
    ∃ s rest, (x.instrText i).toList ++ ['\n'] = i.opcode.name.toList ++ s :: rest ∧
      Text.isSpace s = true := by
  cases i with
  | constant c => exact ⟨' ', _, by simp [instrText]; rfl, by decide⟩
  | constantWide c => exact ⟨' ', _, by simp [instrText]; rfl, by decide⟩
  | getField f => exact ⟨' ', _, by simp [instrText]; rfl, by decide⟩
  | setField f => exact ⟨' ', _, by simp [instrText]; rfl, by decide⟩
  | expectNumber depth => exact ⟨' ', _, by simp [instrText]; rfl, by decide⟩
  | call r argc => exact ⟨' ', _, by simp [instrText]; rfl, by decide⟩
  | _ => exact ⟨'\n', [], rfl, by decide⟩

/-- The first word of what stands at an offset names its operation code. -/
theorem words_fetchText {f : Fetch} (hf : f ≠ .ended) :
    ∃ w more, Text.words ((x.fetchText f).toList ++ ['\n']) = w :: more ∧
      Opcode.ofName? (String.ofList w) = f.opcode? := by
  have hname : ∀ op : Opcode, Opcode.ofName? (String.ofList op.name.toList) = some op := by
    intro op
    rw [String.ofList_toList, Opcode.ofName?_name]
  cases f with
  | instr i line next =>
    obtain ⟨s, rest, htext, hs⟩ := x.instrText_eq i
    refine ⟨i.opcode.name.toList, Text.words rest, ?_, hname i.opcode⟩
    rw [fetchText, htext]
    exact Text.words_cons i.opcode.isSpace_name i.opcode.name_ne_nil hs rest
  | truncated op line operand =>
    have htext : (x.fetchText (.truncated op line operand)).toList ++ ['\n'] =
        op.name.toList ++ ' ' :: ((absent "truncated").toList ++ ['\n']) := by
      simp [fetchText]
    refine ⟨op.name.toList, Text.words ((absent "truncated").toList ++ ['\n']), ?_, hname op⟩
    rw [htext]
    exact Text.words_cons op.isSpace_name op.name_ne_nil (by decide) _
  | invalid b line =>
    have htext : (x.fetchText (.invalid b line)).toList ++ ['\n'] =
        "<invalid".toList ++ ' ' :: ((Text.hexLiteral 2 b.toNat).toList ++ ['>', '\n']) := by
      simp [fetchText, absent, toString]
    have hnone : Opcode.ofName? (String.ofList "<invalid".toList) = none := by decide
    refine ⟨"<invalid".toList, Text.words ((Text.hexLiteral 2 b.toNat).toList ++ ['>', '\n']), ?_,
      hnone⟩
    rw [htext]
    exact Text.words_cons (Text.isSpace_of_all (by decide)) (by decide) (by decide) _
  | ended => exact absurd rfl hf

/-- Offset and operation code can be read off a line, whatever number or mark its margin has. -/
theorem readLine_eq {position margin : String} {offset blanks : Nat} {mark : List Char}
    (hposition : position = Text.padLeft 4 '0' (toString offset))
    (hmargin : margin.toList = List.replicate blanks ' ' ++ mark) (hne : mark ≠ [])
    (hmark : ∀ c ∈ mark, Text.isSpace c = false) {f : Fetch} (hf : f ≠ .ended) :
    readLine s!"{position} {margin} {x.fetchText f}\n" = some (offset, f.opcode?) := by
  obtain ⟨name, more, hname, hop⟩ := x.words_fetchText hf
  have hvalue := Text.ofDigitChars_padLeft 4 offset
  have hdigits := Text.isSpace_padLeft 4 offset
  have hsome := Text.padLeft_ne_nil 4 offset
  rw [← hposition] at hvalue hdigits hsome
  have hline : s!"{position} {margin} {x.fetchText f}\n".toList = position.toList ++
      ' ' :: (List.replicate blanks ' ' ++
        (mark ++ ' ' :: ((x.fetchText f).toList ++ ['\n']))) := by
    simp [toString, hmargin]
  have hblanks : ∀ c ∈ List.replicate blanks ' ', Text.isSpace c = true := by
    intro c hc
    rw [List.eq_of_mem_replicate hc]
    decide
  have hwords := calc
    Text.words s!"{position} {margin} {x.fetchText f}\n".toList
    _ = position.toList :: Text.words (List.replicate blanks ' ' ++ (mark ++
          ' ' :: ((x.fetchText f).toList ++ ['\n']))) := by
      rw [hline, Text.words_cons hdigits hsome (by decide)]
    _ = position.toList :: mark :: name :: more := by
      rw [Text.words_spaces_append hblanks, Text.words_cons hmark hne (by decide), hname]
  rw [readLine, hwords]
  simp only [hvalue, hop]

/-- Every line of a listing says where the walk was and what it met. -/
theorem map_readLine_linesFrom {entries : List (Nat × Fetch)} (h : ∀ e ∈ entries, e.2 ≠ .ended)
    (previous : Option Nat) :
    (x.linesFrom previous entries).map readLine = entries.map fun e => some (e.1, e.2.opcode?) := by
  induction entries generalizing previous with
  | nil => rfl
  | cons e rest ih =>
    obtain ⟨offset, f⟩ := e
    have hf : f ≠ .ended := h (offset, f) List.mem_cons_self
    rw [linesFrom, List.map_cons, List.map_cons]
    refine List.cons_eq_cons.mpr ⟨?_, ih (fun e he => h e (List.mem_cons_of_mem _ he)) _⟩
    cases x.code.line? offset with
    | none =>
      have hmargin : "   ?".toList = List.replicate 3 ' ' ++ ['?'] := by decide
      exact x.readLine_eq rfl hmargin (by simp) (Text.isSpace_of_all (by decide)) hf
    | some n =>
      by_cases hsame : previous = some n
      · have hmargin : "   |".toList = List.replicate 3 ' ' ++ ['|'] := by decide
        simp only [hsame, if_true]
        exact x.readLine_eq rfl hmargin (by simp) (Text.isSpace_of_all (by decide)) hf
      · simp only [hsame, if_false]
        have hmargin : (Text.padLeft 4 ' ' (toString n)).toList =
            List.replicate (4 - (toString n).length) ' ' ++ (toString n).toList := by
          rw [Text.padLeft, String.toList_append, String.toList_ofList]
        exact x.readLine_eq rfl hmargin (Text.toString_ne_nil n) Text.isSpace_toString hf

theorem ne_ended_of_mem_walk {c : Code} {e : Nat × Fetch} (h : e ∈ c.walk) : e.2 ≠ .ended := by
  obtain ⟨-, hlt, hfetch⟩ := Code.fetch_of_mem_walkFrom h
  rw [← hfetch, ne_eq, Code.fetch_eq_ended_iff]
  omega

end Executable

/-- Whatever bytes stand in the code, its three readers agree. The lines of a listing that show the
code can be read back, each as an offset and an operation code, or none for a byte that is not one;
the operation codes among them are those that the code is said to have; each line shows what stands
right behind the operands of the line before, or one byte further if that shows no operation code;
and the offsets at which a machine fetches from its start on, until anything stops it, are those of
the first lines. -/
theorem readers_agree (x : Executable) :
    x.listing = String.join (s!"== {x.name} ==\n" :: x.fieldLines ++ x.linesFrom none x.code.walk) ∧
    ∃ rows : List (Nat × Option Opcode),
      (x.linesFrom none x.code.walk).map Executable.readLine = rows.map some ∧
      x.code.opcodes = rows.filterMap (·.2) ∧
      rows.IsChain Code.Adjacent ∧
      ∀ (σ : Type) (sink : Sink σ) (out : σ),
        (Machine.start x).fetched sink x out <+: rows.map (·.1) := by
  refine ⟨rfl, x.code.walk.map fun e => (e.1, e.2.opcode?), ?_, ?_, ?_, ?_⟩
  · rw [x.map_readLine_linesFrom (fun e he => Executable.ne_ended_of_mem_walk he) none,
      List.map_map]
    rfl
  · rw [Code.opcodes, Code.opcodesFrom_eq, List.filterMap_map]
    rfl
  · exact x.code.isChain_walkFrom 0
  · intro σ sink out
    rw [List.map_map]
    exact (Machine.start x).prefix_fetched sink x out

end Rockstar
