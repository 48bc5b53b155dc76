import Rockstar.Proofs.LineEndings
import Rockstar.Proofs.Partition
import Rockstar.Stream.Scan

/-!
# One pass over the source finds the tokens of its lines

No piece of a source reaches over a newline: strings and comments end there, and no number or word
holds one (`Piece.ahead_append`). So the one pass over the whole source finds on each line what a
scan of that line alone finds (`scanSource_append`), and its newline tokens stand where the lines
end (`scanSource_eq`).
-/

namespace Rockstar

/-! ## Pieces end before a newline -/

section Tail

variable {tail : List Char} (htail : ∀ d ∈ tail.head?, d = '\n')
include htail

theorem takeWhile_append_newline {p : Char → Bool} (hp : p '\n' = false) (cs : List Char) :
    (cs ++ tail).takeWhile p = cs.takeWhile p ∧
      (cs ++ tail).dropWhile p = cs.dropWhile p ++ tail := by
  induction cs with
  | nil =>
    cases tail with
    | nil => exact ⟨rfl, rfl⟩
    | cons d ds =>
      obtain rfl := htail d rfl
      simp [hp]
  | cons c cs ih =>
    by_cases hc : p c = true
    · simp [hc, ih]
    · simp [hc]

namespace Piece

theorem upTo_append (close : Char) {cs : List Char} (h : '\n' ∉ cs) :
    upTo close (cs ++ tail) = cs.takeWhile (· ≠ close) := by
  rw [upTo, (takeWhile_append_newline htail (by simp) cs).1]
  induction cs with
  | nil => rfl
  | cons c cs ih =>
    simp only [List.mem_cons, not_or] at h
    rw [List.takeWhile_cons, List.takeWhile_cons, ih h.2]
    simp [Ne.symm h.1]

theorem closes_append (close : Char) (hclose : close ≠ '\n') {cs : List Char} (h : '\n' ∉ cs) :
    closes close (cs ++ tail) = cs.contains close := by
  rw [closes, (takeWhile_append_newline htail (by simp) cs).2]
  induction cs with
  | nil =>
    cases tail with
    | nil => rfl
    | cons d ds =>
      obtain rfl := htail d rfl
      simpa using hclose.symm
  | cons c cs ih =>
    simp only [List.mem_cons, not_or] at h
    by_cases hc : c = close
    · simp [hc]
    · simpa [hc, Ne.symm hc, Ne.symm h.1] using ih h.2

theorem takeNumber_append_newline (cs : List Char) : takeNumber (cs ++ tail) = takeNumber cs := by
  obtain ⟨htake, hdrop⟩ := takeWhile_append_newline htail (p := isDigit) (by decide) cs
  unfold takeNumber
  rw [htake, hdrop]
  dsimp only
  rcases hrest : cs.dropWhile isDigit with _ | ⟨point, _ | ⟨d, ds⟩⟩
  · -- the number ends the line, and a newline is no point
    cases tail with
    | nil => rfl
    | cons e es =>
      obtain rfl := htail e rfl
      rfl
  · cases tail with
    | nil => rfl
    | cons e es =>
      obtain rfl := htail e rfl
      by_cases hpoint : point = '.'
      · subst hpoint
        rfl
      · simp [hpoint]
  · by_cases hpoint : point = '.'
    · subst hpoint
      have hfraction := (takeWhile_append_newline htail (p := isDigit) (by decide) (d :: ds)).1
      rw [List.cons_append] at hfraction
      simp only [List.cons_append, hfraction]
    · simp [hpoint]

/-- On the whole source a piece is what it is on its line. -/
theorem ahead_append (c : Char) {cs : List Char} (h : '\n' ∉ cs) :
    ahead c (cs ++ tail) = first c cs := by
  have hword : (c :: (cs ++ tail)).takeWhile isWordChar = (c :: cs).takeWhile isWordChar :=
    (takeWhile_append_newline htail (by decide +kernel) (c :: cs)).1
  have hnumber : takeNumber (c :: (cs ++ tail)) = takeNumber (c :: cs) :=
    takeNumber_append_newline htail (c :: cs)
  rw [ahead, closes_append htail ')' (by decide) h, closes_append htail '"' (by decide) h,
    upTo_append htail ')' h, upTo_append htail '"' h, hword, hnumber]
  rfl

end Piece

theorem restOfLine_append {cs : List Char} (h : '\n' ∉ cs) :
    Text.restOfLine (cs ++ tail) = cs := by
  rw [Text.restOfLine, (takeWhile_append_newline htail (by simp) cs).1]
  exact List.takeWhile_eq_self_iff.mpr fun c hc => by simpa using ne_of_mem_of_not_mem hc h

theorem scanSource_append {text : List Char} (h : '\n' ∉ text) (place : Place) :
    scanSource place (text ++ tail) =
      scanFrom place text ++ scanSource (place.advance (Text.byteSize text)) tail := by
  fun_induction scanFrom place text with
  | case1 place =>
    rw [Text.byteSize_nil]
    rfl
  | case2 place c cs piece ih =>
    obtain ⟨hc, hcs⟩ : '\n' ≠ c ∧ '\n' ∉ cs := by simpa using h
    have hraw := Piece.raw_append_restOf c cs
    have hlength := congrArg List.length hraw
    rw [List.length_append, List.length_cons] at hlength
    have hbehind : (cs ++ tail).drop ((Piece.first c cs).raw.length - 1) =
        Piece.restOf c cs ++ tail := by
      rw [Piece.restOf, List.drop_append_of_le_length (by omega)]
    have hrest : '\n' ∉ Piece.restOf c cs := fun hmem => hcs (List.mem_of_mem_drop hmem)
    have hsize : piece.size + Text.byteSize (Piece.restOf c cs) = Text.byteSize (c :: cs) := by
      rw [← hraw, Text.byteSize_append]
      rfl
    rw [List.cons_append, scanSource, if_neg hc.symm, Piece.ahead_append htail c hcs]
    dsimp only
    rw [hbehind, ← List.cons_append, restOfLine_append htail h, restOfLine_append htail hrest,
      ih hrest, ← hsize, ← Place.advance_advance, List.append_assoc]

end Tail

namespace Line

theorem scanSource_lines {number start : Nat} {lines : List Line}
    (h : Follow number start lines) :
    scanSource ⟨number, 1, start⟩ (lines.flatMap raw) =
      lines.flatMap fun l => l.tokens ++ [l.stop] := by
  induction h with
  | @last number start text htext =>
    have hscan : scanSource ⟨number, 1, start⟩ (text ++ []) =
        scanFrom ⟨number, 1, start⟩ text ++ scanSource _ [] :=
      scanSource_append (by simp) htext _
    rw [List.flatMap_singleton, List.flatMap_singleton, raw, if_pos rfl, hscan, scanSource]
    rfl
  | @next number start text lines htext hfollow ih =>
    have hscan : scanSource ⟨number, 1, start⟩ (text ++ '\n' :: lines.flatMap raw) =
        scanFrom ⟨number, 1, start⟩ text ++ scanSource _ ('\n' :: lines.flatMap raw) :=
      scanSource_append (by rintro d ⟨⟩; rfl) htext _
    rw [scanSource, if_pos rfl] at hscan
    rw [List.flatMap_cons, List.flatMap_cons, raw, if_neg Bool.false_ne_true, List.append_assoc,
      List.singleton_append, hscan, List.append_assoc, ← ih]
    rfl

end Line

/-- The tokens of a source are those that one pass over it finds. -/
theorem scanSource_eq (source : List Char) : scanSource ⟨1, 1, 0⟩ source = tokenize source := by
  have hfollow : Line.Follow 1 0 (Line.split source) :=
    Line.follow_splitFrom 1 0 List.not_mem_nil source
  have hlines := Line.scanSource_lines hfollow
  rwa [Line.split, Line.flatMap_raw_splitFrom] at hlines

end Rockstar
