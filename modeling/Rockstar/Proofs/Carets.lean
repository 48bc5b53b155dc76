import Rockstar.Proofs.OneLine
import Rockstar.Proofs.Uncommented

/-!
# Carets

A rendered error ends with the line that it is about and, below it, a line with carets. Both begin
with a gutter. The one of the source line has the number of the line in it and is at least six
characters wide; the one of the carets is four characters wide, whatever the number. So the carets
are as many as the characters of the span, but they do not stand below them: they stand two columns
further left, and one more for every digit of the line number beyond the third (`caretsLeft_iff`).
-/

namespace Rockstar

/-- The columns of a text, counted from zero, in which the character stands. -/
def columnsOf (c : Char) (text : List Char) : List Nat :=
  (List.range text.length).filter fun k => text[k]? = some c

/-- Characters that stand together at the end of a text, and nowhere else. -/
theorem columnsOf_append_replicate {c : Char} {text : List Char} (h : c ∉ text) (n : Nat) :
    columnsOf c (text ++ List.replicate n c) = List.range' text.length n := by
  have hbefore : ∀ k ∈ List.range text.length,
      ¬decide ((text ++ List.replicate n c)[k]? = some c) = true := by
    intro k hk
    rw [List.getElem?_append_left (List.mem_range.mp hk), decide_eq_true_eq]
    exact fun hget => h (List.mem_of_getElem? hget)
  have hbehind : ∀ k ∈ (List.range n).map (text.length + ·),
      decide ((text ++ List.replicate n c)[k]? = some c) = true := by
    intro k hk
    obtain ⟨i, hi, rfl⟩ := List.mem_map.mp hk
    rw [List.getElem?_append_right (Nat.le_add_right _ _), Nat.add_sub_cancel_left,
      List.getElem?_replicate, if_pos (List.mem_range.mp hi), decide_eq_true_eq]
  rw [columnsOf, List.length_append, List.length_replicate, List.range_add, List.filter_append,
    List.filter_eq_nil_iff.mpr hbefore, List.filter_eq_self.mpr hbehind, List.nil_append,
    List.range'_eq_map_range]

namespace Text

theorem length_padLeft (width : Nat) (fill : Char) (s : String) :
    (padLeft width fill s).toList.length = max width s.length := by
  simp only [padLeft, String.toList_append, String.toList_ofList, List.length_append,
    List.length_replicate, String.length_toList]
  omega

/-- The characters of ASCII that are printed, from the space to the tilde. -/
def isPrintable (c : Char) : Bool := ' '.toNat ≤ c.toNat && c.toNat ≤ '~'.toNat

/-- A printable character is a single byte. -/
theorem byteSize_of_printable {cs : List Char} (h : ∀ c ∈ cs, isPrintable c = true) :
    byteSize cs = cs.length := by
  induction cs with
  | nil => rfl
  | cons c cs ih =>
    obtain ⟨hc, hcs⟩ := List.forall_mem_cons.mp h
    have hsize : c.utf8Size = 1 := by
      simp only [isPrintable, Bool.and_eq_true, decide_eq_true_eq] at hc
      have hle : c.val ≤ 0x7f := UInt32.le_iff_toNat_le.mpr (Nat.le_trans hc.2 (by decide))
      simp [Char.utf8Size, hle]
    rw [byteSize_cons, ih hcs, hsize, List.length_cons, Nat.add_comm]

theorem newline_notMem_of_printable {cs : List Char} (h : ∀ c ∈ cs, isPrintable c = true) :
    '\n' ∉ cs :=
  fun hmem => absurd (h _ hmem) (by decide)

end Text

namespace Report

/-- The lines of the rendered error. Behind its last newline there is an empty one. -/
def lines (r : Report) (source : List Char) : List (List Char) :=
  (Line.split (r.withSource source).toList).map Line.text

/-- The rendered error ends with the line that it is about, behind a gutter, and with a line below
it in which the carets stand, one for each character of the span and so many columns further
left. -/
def CaretsLeft (r : Report) (source : List Char) (shift : Nat) : Prop :=
  ∃ gutter before slice after marker : List Char,
    Line.excerpt? source r.span.line = some (before ++ slice ++ after) ∧
    Text.byteSize before = r.span.start ∧ Text.byteSize slice = r.span.len ∧
    [gutter ++ (before ++ slice ++ after), marker, []] <:+ r.lines source ∧
    (columnsOf '^' marker).map (· + shift) = List.range' (gutter ++ before).length slice.length

/-- What stands before the source line. -/
def gutter (r : Report) : List Char :=
  (Text.padLeft 3 ' ' (toString r.span.line)).toList ++ " | ".toList

/-- What stands before the carets. -/
def indent (r : Report) : List Char := "  | ".toList ++ List.replicate r.span.start ' '

/-- The line with the carets. -/
def marker (r : Report) : List Char := r.indent ++ List.replicate (max r.span.len 1) '^'

variable {r : Report} {source line : List Char}

theorem newline_notMem_gutter (r : Report) : '\n' ∉ r.gutter := by
  have hdigits : '\n' ∉ Nat.toDigits 10 r.span.line := Decimal.newline_notMem_digitText r.span.line
  simp [gutter, Text.padLeft, hdigits]

theorem newline_notMem_marker (r : Report) : '\n' ∉ r.marker := by
  simp [marker, indent]

/-- A rendered error ends with the line it is about and the line with the carets. -/
theorem suffix_lines (hline : Line.excerpt? source r.span.line = some line)
    (hnewline : '\n' ∉ line) : [r.gutter ++ line, r.marker, []] <:+ r.lines source := by
  have hrendered : ∃ heading, (r.withSource source).toList = heading ++ '\n' ::
      [r.gutter ++ line, r.marker].flatMap (· ++ ['\n']) := by
    refine ⟨s!"Error at {r.span.text}: {r.kind.text}\n".toList ++
      (if r.message = "" then "" else s!"  {r.message}\n").toList ++ "  |".toList, ?_⟩
    simp [withSource, hline, gutter, marker, indent, toString]
  have hlines : ∀ text ∈ [r.gutter ++ line, r.marker], '\n' ∉ text := by
    simp [r.newline_notMem_gutter, hnewline, r.newline_notMem_marker]
  obtain ⟨heading, hrendered⟩ := hrendered
  obtain ⟨front, number, start, hsplit⟩ := Line.exists_splitFrom_newline 1 0 [] heading
    ([r.gutter ++ line, r.marker].flatMap (· ++ ['\n']))
  refine ⟨front.map Line.text, ?_⟩
  rw [lines, hrendered, Line.split, hsplit, List.map_append, Line.map_text_splitFrom _ _ hlines]
  rfl

theorem columnsOf_marker (hlen : 1 ≤ r.span.len) :
    columnsOf '^' r.marker = List.range' (4 + r.span.start) r.span.len := by
  have hindent : '^' ∉ r.indent := by
    simp [indent]
  have hlength : r.indent.length = 4 + r.span.start := by
    simp only [indent, List.length_append, List.length_replicate]
    rfl
  rw [marker, columnsOf_append_replicate hindent, hlength, Nat.max_eq_left hlen]

theorem length_gutter (r : Report) :
    r.gutter.length = max 3 (toString r.span.line).length + 3 := by
  rw [gutter, List.length_append, Text.length_padLeft]
  rfl

/-- The characters of a span inside a line of printable characters. -/
theorem exists_slice (hprintable : ∀ c ∈ line, Text.isPrintable c = true)
    (hinside : r.span.stop ≤ Text.byteSize line) :
    ∃ before slice after, line = before ++ slice ++ after ∧
      Text.byteSize before = r.span.start ∧ Text.byteSize slice = r.span.len := by
  rw [Text.byteSize_of_printable hprintable, Span.stop] at hinside
  refine ⟨line.take r.span.start, (line.drop r.span.start).take r.span.len,
    (line.drop r.span.start).drop r.span.len, ?_, ?_, ?_⟩
  · rw [List.append_assoc, List.take_append_drop, List.take_append_drop]
  · rw [Text.byteSize_of_printable fun c hc => hprintable c (List.mem_of_mem_take hc),
      List.length_take]
    omega
  · rw [Text.byteSize_of_printable fun c hc =>
        hprintable c (List.mem_of_mem_drop (List.mem_of_mem_take hc)),
      List.length_take, List.length_drop]
    omega

/-- The carets are as many as the characters of the span. How far to the left of them they stand is
the difference of the gutters. -/
theorem columns_iff {before slice after : List Char} (hlen : 1 ≤ r.span.len)
    (hprintable : ∀ c ∈ before ++ slice ++ after, Text.isPrintable c = true)
    (hbefore : Text.byteSize before = r.span.start) (hslice : Text.byteSize slice = r.span.len)
    (shift : Nat) :
    (columnsOf '^' r.marker).map (· + shift) =
        List.range' (r.gutter ++ before).length slice.length ↔
      shift + 1 = max 3 (toString r.span.line).length := by
  have hmoved : (columnsOf '^' r.marker).map (· + shift) =
      List.range' (shift + (4 + r.span.start)) r.span.len := by
    rw [columnsOf_marker hlen, ← List.map_add_range' (a := shift)]
    exact List.map_congr_left fun k _ => Nat.add_comm k shift
  -- columns count characters, and here characters are bytes
  rw [Text.byteSize_of_printable fun c hc => hprintable c (by simp [hc])] at hbefore hslice
  rw [hmoved, List.length_append, length_gutter, hbefore, hslice, List.range'_inj]
  omega

theorem caretsLeft_of_eq (hline : Line.excerpt? source r.span.line = some line)
    (hprintable : ∀ c ∈ line, Text.isPrintable c = true) (hlen : 1 ≤ r.span.len)
    (hinside : r.span.stop ≤ Text.byteSize line) {shift : Nat}
    (h : shift + 1 = max 3 (toString r.span.line).length) : r.CaretsLeft source shift := by
  have hsuffix := suffix_lines hline (Text.newline_notMem_of_printable hprintable)
  obtain ⟨before, slice, after, rfl, hbefore, hslice⟩ := exists_slice hprintable hinside
  exact ⟨r.gutter, before, slice, after, r.marker, hline, hbefore, hslice, hsuffix,
    (columns_iff hlen hprintable hbefore hslice shift).mpr h⟩

/-- The gutter and the carets can be told from the rendered error. -/
theorem CaretsLeft.shift_eq {shift : Nat} (h : r.CaretsLeft source shift)
    (hline : Line.excerpt? source r.span.line = some line)
    (hprintable : ∀ c ∈ line, Text.isPrintable c = true) (hlen : 1 ≤ r.span.len) :
    shift + 1 = max 3 (toString r.span.line).length := by
  have hmine := suffix_lines hline (Text.newline_notMem_of_printable hprintable)
  obtain ⟨gutter, before, slice, after, marker, hexcerpt, hbefore, hslice, hsuffix, hcolumns⟩ := h
  obtain rfl := Option.some.inj (hline.symm.trans hexcerpt)
  -- both are the last three lines of the rendered error
  have hlast : [gutter ++ (before ++ slice ++ after), marker, []] =
      [r.gutter ++ (before ++ slice ++ after), r.marker, []] :=
    (List.suffix_of_suffix_length_le hsuffix hmine (by simp)).eq_of_length (by simp)
  simp only [List.cons.injEq, List.append_cancel_right_eq, and_true] at hlast
  rw [hlast.1, hlast.2] at hcolumns
  exact (columns_iff hlen hprintable hbefore hslice shift).mp hcolumns

/-- For an error inside a line of printable characters, the carets stand left of the characters that
they are about, by one column less than the number of the line takes. It takes at least three, so
they never stand below these characters. -/
theorem caretsLeft_iff (r : Report) {source line : List Char}
    (hline : Line.excerpt? source r.span.line = some line)
    (hprintable : ∀ c ∈ line, Text.isPrintable c = true) (hlen : 1 ≤ r.span.len)
    (hinside : r.span.stop ≤ Text.byteSize line) (shift : Nat) :
    r.CaretsLeft source shift ↔ shift + 1 = max 3 (toString r.span.line).length :=
  ⟨fun h => h.shift_eq hline hprintable hlen, caretsLeft_of_eq hline hprintable hlen hinside⟩

/-- An error about the last word of the second line. -/
def misplacedInto : Report := ⟨.unexpectedToken, ⟨2, 9, 4⟩, "unexpected 'into'"⟩

/-- The source that it is about. -/
def intoSource : List Char := "Put 1 into X\nShout 5 into\n".toList

theorem excerpt?_intoSource : Line.excerpt? intoSource 2 = some "Shout 5 into".toList := by
  decide +kernel

theorem printable_into : ∀ c ∈ "Shout 5 into".toList, Text.isPrintable c = true := by
  have hall : "Shout 5 into".toList.all Text.isPrintable = true := by decide +kernel
  exact List.all_eq_true.mp hall

/-- Two columns, for a line number of one digit. -/
theorem caretsLeft_into : misplacedInto.CaretsLeft intoSource 2 := by
  have hinside : misplacedInto.span.stop ≤ Text.byteSize "Shout 5 into".toList := by decide +kernel
  have hshift : 2 + 1 = max 3 (toString misplacedInto.span.line).length := by decide +kernel
  exact (caretsLeft_iff misplacedInto excerpt?_intoSource printable_into (by decide) hinside 2).mpr
    hshift

/-- The word begins in column 14 of its line and the carets in column 12 of theirs. -/
theorem carets_misplaced :
    Line.excerpt? intoSource misplacedInto.span.line = some "Shout 5 into".toList ∧
      misplacedInto.span.slice? "Shout 5 into".toList = some "into".toList ∧
      misplacedInto.lines intoSource = ["Error at 2:9: unexpected token", "  unexpected 'into'",
        "  |", "  2 | Shout 5 into", "  |         ^^^^", ""].map String.toList ∧
      columnsOf '^' "  |         ^^^^".toList = [12, 13, 14, 15] ∧
      ¬misplacedInto.CaretsLeft intoSource 0 := by
  refine ⟨excerpt?_intoSource, by decide +kernel, by decide +kernel, by decide +kernel, fun h => ?_⟩
  have hshift := h.shift_eq excerpt?_intoSource printable_into (by decide)
  exact absurd hshift (by decide +kernel)

end Report

end Rockstar
