import Mathlib.Data.List.Chain
import Rockstar.Name
import Rockstar.Proofs.Wording

/-!
# Lower case

What lower-casing does to letters, from its table. The lower case of letters consists of letters,
but for the dotted capital I, which becomes two characters of which the second is a mark
(`isLetter_lower_iff`); and nothing happens to what is in lower case (`lower_lower`). On the first
128 characters it is the same as ignoring case (`lower_of_ascii`), and no other character gets there
but the Kelvin sign, which becomes the letter k (`lower_eq_map_of_ascii`).
-/

namespace Rockstar.Text

/-! ## The table -/

/-- The code point that the shift leads to. -/
def Shift.low (s : Shift) (n : Nat) : Nat := (n + s.delta).toNat

/-- Whether the run covers all that the shift leads to. -/
def Shift.leadsInto (s : Shift) (r : Run) : Bool :=
  Nat.ble (s.low s.run.last) r.last && Nat.ble r.first (s.low s.run.first)

/-- Whether nothing that the first shift leads to is shifted by the second: it lies before or behind
it, or on the code points between those that it shifts. -/
def Shift.avoids (s t : Shift) : Bool :=
  Nat.blt (s.low s.run.last) t.run.first || Nat.blt t.run.last (s.low s.run.first) ||
    (Nat.beq t.run.step 2 && (Nat.beq s.run.step 2 || Nat.beq s.run.first s.run.last) &&
      !Nat.beq (s.low s.run.first % 2) (t.run.first % 2))

/-- Whether the shift leads to characters other than the dotted capital I, and to the first 128 only
from them or from the Kelvin sign. -/
def Shift.isProper (s : Shift) : Bool :=
  (Nat.blt 0 (s.low s.run.first) && Nat.blt (s.low s.run.last) 0xD800 ||
    Nat.blt 0xDFFF (s.low s.run.first) && Nat.blt (s.low s.run.last) 0x110000) &&
  (Nat.blt (s.low s.run.last) 0x130 || Nat.blt 0x130 (s.low s.run.first)) &&
  (Nat.ble 128 (s.low s.run.first) || Nat.blt s.run.last 128 ||
    Nat.beq s.run.first 0x212A && Nat.beq s.run.last 0x212A)

/-- Every shift of the table is proper, leads to letters, and to nothing that is shifted again. -/
theorem checked_of_mem_lowerShifts {s : Shift} (hs : s ∈ lowerShifts) :
    s.isProper = true ∧ letterRuns.any s.leadsInto = true ∧ lowerShifts.all s.avoids = true := by
  have hall : lowerShifts.all (fun s =>
      s.isProper && (letterRuns.any s.leadsInto && lowerShifts.all s.avoids)) = true := by
    decide +kernel
  have hs' := List.all_eq_true.mp hall s hs
  rwa [Bool.and_eq_true, Bool.and_eq_true] at hs'

theorem isChain_letterRuns :
    letterRuns.IsChain (fun r r' => r.first ≤ r'.first) ∧ ∀ r ∈ letterRuns, r.step = 1 := by
  decide +kernel

theorem Run.has_iff {r : Run} {n : Nat} :
    r.has n = true ↔ r.first ≤ n ∧ n ≤ r.last ∧ (n - r.first) % r.step = 0 := by
  simp [Run.has, and_assoc]

theorem Run.covers_of_mem {rs : List Run} {r : Run} {n : Nat}
    (h : rs.Pairwise fun r r' => r.first ≤ r'.first) (hr : r ∈ rs) (hn : r.has n = true) :
    covers rs n = true := by
  induction rs with
  | nil => cases hr
  | cons first rs ih =>
    rw [List.pairwise_cons] at h
    have hle := (Run.has_iff.mp hn).1
    rcases List.mem_cons.mp hr with rfl | hmem
    · simp [covers, hle, hn]
    · have hfirst := h.1 r hmem
      simp [covers, ih h.2 hmem, Nat.le_trans hfirst hle]

theorem isLetter_of_run {c : Char} {r : Run} (hr : r ∈ letterRuns) (hfirst : r.first ≤ c.toNat)
    (hlast : c.toNat ≤ r.last) : isLetter c = true := by
  obtain ⟨hchain, hstep⟩ := isChain_letterRuns
  refine Run.covers_of_mem (List.isChain_iff_pairwise.mp hchain) hr (Run.has_iff.mpr ?_)
  rw [hstep r hr]
  exact ⟨hfirst, hlast, Nat.mod_one _⟩

namespace Shift

variable {s : Shift} {n : Nat}

theorem low_bounds (h : s.run.has n = true) :
    s.low s.run.first ≤ s.low n ∧ s.low n ≤ s.low s.run.last := by
  obtain ⟨hfirst, hlast, -⟩ := Run.has_iff.mp h
  unfold low
  omega

theorem low_proper (hs : s ∈ lowerShifts) (h : s.run.has n = true) :
    0 < s.low s.run.first ∧ (s.low n).isValidChar ∧ s.low n ≠ 0x130 ∧
      (s.low n < 128 → n < 128 ∨ n = 0x212A) := by
  have hproper := (checked_of_mem_lowerShifts hs).1
  simp only [isProper, Bool.or_eq_true, Bool.and_eq_true, Nat.blt_eq, Nat.beq_eq,
    Nat.ble_eq] at hproper
  have hbounds := low_bounds h
  obtain ⟨hfirst, hlast, -⟩ := Run.has_iff.mp h
  refine ⟨by omega, ?_, by omega, by omega⟩
  unfold Nat.isValidChar
  omega

/-- Nothing that a shift leads to is shifted again. -/
theorem has_low_eq_false (hs : s ∈ lowerShifts) (h : s.run.has n = true) {t : Shift}
    (ht : t ∈ lowerShifts) : t.run.has (s.low n) = false := by
  have havoids := List.all_eq_true.mp (checked_of_mem_lowerShifts hs).2.2 t ht
  simp only [avoids, Bool.or_eq_true, Bool.and_eq_true, Nat.blt_eq, Nat.beq_eq,
    Bool.not_eq_true'] at havoids
  have hbounds := low_bounds h
  refine Bool.eq_false_iff.mpr fun hhas => ?_
  obtain ⟨hfirst', hlast', hmod'⟩ := Run.has_iff.mp hhas
  rcases havoids with (hbefore | hbehind) | ⟨⟨hstep', hstep⟩, hparity⟩
  · omega
  · omega
  · have hpositive := (low_proper hs h).1
    obtain ⟨hfirst, hlast, hmod⟩ := Run.has_iff.mp h
    have hsame : s.low n % 2 = s.low s.run.first % 2 := by
      rcases hstep with hstep | hsingle
      · rw [hstep] at hmod
        unfold low at hpositive ⊢
        omega
      · rw [Nat.le_antisymm (hsingle ▸ hlast) hfirst]
    have hother := Nat.ne_of_beq_eq_false hparity
    rw [hstep'] at hmod'
    omega

end Shift

theorem shiftOf_cases (ss : List Shift) (n : Nat) :
    shiftOf ss n = 0 ∨ ∃ s ∈ ss, s.run.has n = true ∧ shiftOf ss n = s.delta := by
  induction ss with
  | nil => exact .inl rfl
  | cons s ss ih =>
    unfold shiftOf
    split
    · exact .inl rfl
    · split
      next hhas => exact .inr ⟨s, by simp, hhas, rfl⟩
      next =>
        rcases ih with hzero | ⟨t, ht, hhas, hdelta⟩
        · exact .inl hzero
        · exact .inr ⟨t, by simp [ht], hhas, hdelta⟩

theorem shiftOf_eq_zero {ss : List Shift} {n : Nat} (h : ∀ s ∈ ss, s.run.has n = false) :
    shiftOf ss n = 0 := by
  rcases shiftOf_cases ss n with hzero | ⟨s, hs, hhas, -⟩
  · exact hzero
  · rw [h s hs] at hhas
    cases hhas

/-! ## Characters -/

theorem lowerChar_dot : lowerChar '\u0130' = ['i', '\u0307'] := rfl

/-- A character other than the dotted capital I has one character as its lower case: itself, or the
one that a shift leads to. -/
theorem lowerChar_cases {c : Char} (hdot : c ≠ '\u0130') :
    (shiftOf lowerShifts c.toNat = 0 ∧ lowerChar c = [c]) ∨
      ∃ s ∈ lowerShifts, s.run.has c.toNat = true ∧
        ∃ x, lowerChar c = [x] ∧ x.toNat = s.low c.toNat := by
  unfold lowerChar
  rw [if_neg hdot]
  rcases shiftOf_cases lowerShifts c.toNat with hzero | ⟨s, hs, hhas, hdelta⟩
  · exact .inl ⟨hzero, by rw [hzero]; simp⟩
  · refine .inr ⟨s, hs, hhas, _, rfl, ?_⟩
    have hvalid : (↑c.toNat + s.delta).toNat.isValidChar := (Shift.low_proper hs hhas).2.1
    rw [hdelta, Char.ofNat, dif_pos hvalid]
    rfl

/-- A character that is in lower case, wherever it stands. -/
def IsLow (c : Char) : Prop := lowerChar c = [c] ∧ c ≠ '\u03A3'

instance (c : Char) : Decidable (IsLow c) := inferInstanceAs (Decidable (_ ∧ _))

theorem isLow_of_shiftOf {c : Char} (h : shiftOf lowerShifts c.toNat = 0) (hdot : c ≠ '\u0130') :
    IsLow c := by
  refine ⟨?_, ?_⟩
  · rw [lowerChar, if_neg hdot, h]
    simp
  · rintro rfl
    exact absurd h (by decide)

theorem isLow_of_mem_lowerChar {c x : Char} (h : x ∈ lowerChar c) : IsLow x := by
  by_cases hdot : c = '\u0130'
  · rw [hdot, lowerChar_dot, List.mem_pair] at h
    rcases h with rfl | rfl
    · decide
    · decide
  rcases lowerChar_cases hdot with ⟨hzero, hself⟩ | ⟨s, hs, hhas, y, hlow, hy⟩
  · rw [hself, List.mem_singleton] at h
    subst h
    exact isLow_of_shiftOf hzero hdot
  · rw [hlow, List.mem_singleton] at h
    subst h
    refine isLow_of_shiftOf ?_ ?_
    · rw [hy]
      exact shiftOf_eq_zero fun t ht => Shift.has_low_eq_false hs hhas ht
    · rintro rfl
      exact (Shift.low_proper hs hhas).2.2.1 hy.symm

/-- The lower case of a letter consists of letters, with one exception. -/
theorem isLetter_of_mem_lowerChar {c x : Char} (hc : isLetter c = true) (hdot : c ≠ '\u0130')
    (h : x ∈ lowerChar c) : isLetter x = true := by
  rcases lowerChar_cases hdot with ⟨-, hself⟩ | ⟨s, hs, hhas, y, hlow, hy⟩
  · rw [hself, List.mem_singleton] at h
    rwa [h]
  · rw [hlow, List.mem_singleton] at h
    subst h
    obtain ⟨r, hr, hinto⟩ := List.any_eq_true.mp (checked_of_mem_lowerShifts hs).2.1
    simp only [Shift.leadsInto, Bool.and_eq_true, Nat.ble_eq] at hinto
    have hbounds := Shift.low_bounds hhas
    exact isLetter_of_run hr (by omega) (by omega)

theorem lowerChar_of_ascii {c : Char} (h : c.toNat < 128) : lowerChar c = [c.toLower] := by
  have hall : ∀ n ∈ List.range 128, lowerChar (Char.ofNat n) = [(Char.ofNat n).toLower] := by
    decide +kernel
  have hc := hall c.toNat (List.mem_range.mpr h)
  rwa [Char.ofNat_toNat] at hc

/-- The only character beyond the first 128 that becomes one of them is the Kelvin sign. -/
theorem ascii_of_mem_lowerChar {c x : Char} (hdot : c ≠ '\u0130') (h : x ∈ lowerChar c)
    (hx : x.toNat < 128) : c.toNat < 128 ∨ c = '\u212A' := by
  rcases lowerChar_cases hdot with ⟨-, hself⟩ | ⟨s, hs, hhas, y, hlow, hy⟩
  · rw [hself, List.mem_singleton] at h
    exact .inl (h ▸ hx)
  · rw [hlow, List.mem_singleton] at h
    subst h
    rcases (Shift.low_proper hs hhas).2.2.2 (hy ▸ hx) with hascii | hkelvin
    · exact .inl hascii
    · exact .inr (Char.toNat_inj.mp hkelvin)

/-- The characters that `c` becomes inside a text: its lower case, but the capital sigma has two of
them. -/
def LowersTo (c : Char) (low : List Char) : Prop :=
  (c = '\u03A3' ∧ (low = ['\u03C2'] ∨ low = ['\u03C3'])) ∨ (c ≠ '\u03A3' ∧ low = lowerChar c)

namespace LowersTo

variable {c : Char} {low : List Char}

theorem ne_nil (h : LowersTo c low) : low ≠ [] := by
  obtain ⟨-, rfl | rfl⟩ | ⟨-, rfl⟩ := h
  · simp
  · simp
  · unfold lowerChar
    split <;> simp

theorem isLow (h : LowersTo c low) : ∀ x ∈ low, IsLow x := by
  obtain ⟨-, rfl | rfl⟩ | ⟨-, rfl⟩ := h
  · exact List.forall_mem_singleton.mpr (by decide)
  · exact List.forall_mem_singleton.mpr (by decide)
  · exact fun _ => isLow_of_mem_lowerChar

theorem isLetter (h : LowersTo c low) (hc : isLetter c = true) (hdot : c ≠ '\u0130') :
    ∀ x ∈ low, isLetter x = true := by
  obtain ⟨-, rfl | rfl⟩ | ⟨-, rfl⟩ := h
  · exact List.forall_mem_singleton.mpr (by decide)
  · exact List.forall_mem_singleton.mpr (by decide)
  · exact fun _ => isLetter_of_mem_lowerChar hc hdot

theorem isSpace (h : LowersTo c low) (hc : Text.isLetter c = true) :
    ∀ x ∈ low, isSpace x = false := by
  intro x hx
  by_cases hdot : c = '\u0130'
  · subst hdot
    obtain ⟨hsigma, -⟩ | ⟨-, rfl⟩ := h
    · exact absurd hsigma (by decide)
    · rw [lowerChar_dot, List.mem_pair] at hx
      rcases hx with rfl | rfl
      · decide
      · decide
  · refine Bool.eq_false_iff.mpr fun hspace => ?_
    have hword := isWordChar_of_isSpace hspace
    simp [isWordChar, h.isLetter hc hdot x hx] at hword

theorem of_ascii (h : LowersTo c low) (hc : c.toNat < 128) : low = [c.toLower] := by
  obtain ⟨rfl, -⟩ | ⟨-, rfl⟩ := h
  · exact absurd hc (by decide)
  · exact lowerChar_of_ascii hc

theorem ascii (h : LowersTo c low) (hlow : ∀ x ∈ low, x.toNat < 128) :
    c.toNat < 128 ∨ c = '\u212A' := by
  obtain ⟨x, hx⟩ := List.exists_mem_of_ne_nil _ h.ne_nil
  obtain ⟨-, rfl | rfl⟩ | ⟨-, rfl⟩ := h
  · exact absurd (List.forall_mem_singleton.mp hlow) (by decide)
  · exact absurd (List.forall_mem_singleton.mp hlow) (by decide)
  · refine ascii_of_mem_lowerChar ?_ hx (hlow x hx)
    rintro rfl
    exact absurd (hlow '\u0307' (by simp [lowerChar_dot])) (by decide)

end LowersTo

/-! ## Texts -/

theorem lowerFrom_cons (before : List Char) (c : Char) (cs : List Char) :
    ∃ low, LowersTo c low ∧ lowerFrom before (c :: cs) = low ++ lowerFrom (c :: before) cs := by
  refine ⟨_, ?_, rfl⟩
  by_cases hsigma : c = '\u03A3'
  · rw [if_pos hsigma]
    refine .inl ⟨hsigma, ?_⟩
    split
    · exact .inl rfl
    · exact .inr rfl
  · exact .inr ⟨hsigma, if_neg hsigma⟩

theorem exists_of_mem_lowerFrom {x : Char} {before cs : List Char}
    (h : x ∈ lowerFrom before cs) : ∃ c ∈ cs, ∃ low, LowersTo c low ∧ x ∈ low := by
  induction cs generalizing before with
  | nil => cases h
  | cons c cs ih =>
    obtain ⟨low, hlow, hcons⟩ := lowerFrom_cons before c cs
    rw [hcons, List.mem_append] at h
    rcases h with hx | hx
    · exact ⟨c, by simp, low, hlow, hx⟩
    · obtain ⟨d, hd, hrest⟩ := ih hx
      exact ⟨d, by simp [hd], hrest⟩

theorem exists_of_mem_lower {x : Char} {cs : List Char} (h : x ∈ lower cs) :
    ∃ c ∈ cs, ∃ low, LowersTo c low ∧ x ∈ low := exists_of_mem_lowerFrom h

theorem exists_lowersTo_of_mem {c : Char} {cs : List Char} (hc : c ∈ cs) :
    ∃ low, LowersTo c low ∧ ∀ x ∈ low, x ∈ lower cs := by
  have hfrom : ∀ before, ∃ low, LowersTo c low ∧ ∀ x ∈ low, x ∈ lowerFrom before cs := by
    induction cs with
    | nil => cases hc
    | cons d cs ih =>
      intro before
      obtain ⟨low, hlow, hcons⟩ := lowerFrom_cons before d cs
      rw [hcons]
      rcases List.mem_cons.mp hc with rfl | hc
      · exact ⟨low, hlow, fun x hx => List.mem_append_left _ hx⟩
      · obtain ⟨low', hlow', hrest⟩ := ih hc (d :: before)
        exact ⟨low', hlow', fun x hx => List.mem_append_right _ (hrest x hx)⟩
  exact hfrom []

theorem lowerFrom_of_isLow {before cs : List Char} (h : ∀ c ∈ cs, IsLow c) :
    lowerFrom before cs = cs := by
  induction cs generalizing before with
  | nil => rfl
  | cons c cs ih =>
    obtain ⟨hlow, hsigma⟩ := h c (by simp)
    rw [lowerFrom, if_neg hsigma, hlow, ih fun d hd => h d (by simp [hd])]
    rfl

theorem isLow_of_mem_lower {x : Char} {cs : List Char} (h : x ∈ lower cs) : IsLow x := by
  obtain ⟨c, -, low, hlow, hmem⟩ := exists_of_mem_lower h
  exact hlow.isLow x hmem

/-- Nothing happens to what is in lower case. -/
theorem lower_lower (cs : List Char) : lower (lower cs) = lower cs :=
  lowerFrom_of_isLow fun _ => isLow_of_mem_lower

theorem lower_ne_nil {cs : List Char} (h : cs ≠ []) : lower cs ≠ [] := by
  obtain ⟨c, hc⟩ := List.exists_mem_of_ne_nil cs h
  obtain ⟨low, hlow, hmem⟩ := exists_lowersTo_of_mem hc
  obtain ⟨x, hx⟩ := List.exists_mem_of_ne_nil low hlow.ne_nil
  exact List.ne_nil_of_mem (hmem x hx)

/-- The lower case of letters has no white space in it. -/
theorem isSpace_of_mem_lower {x : Char} {cs : List Char} (h : ∀ c ∈ cs, isLetter c = true)
    (hx : x ∈ lower cs) : isSpace x = false := by
  obtain ⟨c, hc, low, hlow, hmem⟩ := exists_of_mem_lower hx
  exact hlow.isSpace (h c hc) x hmem

/-- The lower case of letters consists of letters, unless the dotted capital I is one of them: it
becomes two characters, and the second is a mark. -/
theorem isLetter_lower_iff {cs : List Char} (h : ∀ c ∈ cs, isLetter c = true) :
    (∀ x ∈ lower cs, isLetter x = true) ↔ '\u0130' ∉ cs := by
  constructor
  · intro hlow hdot
    obtain ⟨low, hlowers, hmem⟩ := exists_lowersTo_of_mem hdot
    obtain ⟨hsigma, -⟩ | ⟨-, rfl⟩ := hlowers
    · exact absurd hsigma (by decide)
    · exact absurd (hlow '\u0307' (hmem _ (by simp [lowerChar_dot]))) (by decide)
  · intro hdot x hx
    obtain ⟨c, hc, low, hlow, hmem⟩ := exists_of_mem_lower hx
    exact hlow.isLetter (h c hc) (fun heq => hdot (heq ▸ hc)) x hmem

theorem ascii_of_toLower {c : Char} (h : c.toLower.toNat < 128) : c.toNat < 128 := by
  unfold Char.toLower at h
  split at h
  next hupper =>
    have hupper' : c.toNat ≤ 90 := hupper.2
    omega
  next => exact h

theorem lower_of_ascii {cs : List Char} (h : ∀ c ∈ cs, c.toNat < 128) :
    lower cs = cs.map Char.toLower := by
  have hfrom : ∀ before, lowerFrom before cs = cs.map Char.toLower := by
    induction cs with
    | nil => exact fun _ => rfl
    | cons c cs ih =>
      intro before
      obtain ⟨low, hlow, hcons⟩ := lowerFrom_cons before c cs
      rw [hcons, hlow.of_ascii (h c (by simp)), ih fun d hd => h d (by simp [hd])]
      rfl
  exact hfrom []

/-- Only the Kelvin sign becomes one of the first 128 characters without being one, and it becomes
the letter k. -/
theorem lower_eq_map_of_ascii {cs : List Char} (h : ∀ x ∈ lower cs, x.toNat < 128)
    (hk : 'k' ∉ lower cs) : lower cs = cs.map Char.toLower := by
  refine lower_of_ascii fun c hc => ?_
  obtain ⟨low, hlow, hmem⟩ := exists_lowersTo_of_mem hc
  rcases hlow.ascii fun x hx => h x (hmem x hx) with hascii | rfl
  · exact hascii
  · obtain ⟨hsigma, -⟩ | ⟨-, rfl⟩ := hlow
    · exact absurd hsigma (by decide)
    · exact absurd (hmem 'k' (by decide)) hk

theorem toLower_of_isLetter_eq_false {c : Char} (h : isLetter c.toLower = false) :
    c.toLower = c := by
  unfold Char.toLower at h ⊢
  split at h
  next hupper =>
    have hbounds : 65 ≤ c.toNat ∧ c.toNat ≤ 90 := hupper
    have hlower : (c.val + 32).toNat = c.toNat + 32 := by
      rw [UInt32.toNat_add]
      show (c.toNat + 32) % 2 ^ 32 = _
      omega
    have hrun : (⟨0x61, 0x7A, 1⟩ : Run) ∈ letterRuns := List.mem_of_getElem? (i := 1) rfl
    rw [isLetter_of_run hrun] at h
    · cases h
    · show 97 ≤ (c.val + 32).toNat
      omega
    · show (c.val + 32).toNat ≤ 122
      omega
  next hupper => exact dif_neg hupper

/-- A character that is no letter, among the first 128, is in the lower case of a text only if it is
in the text. -/
theorem mem_of_mem_lower {x : Char} (hascii : x.toNat < 128) (hletter : isLetter x = false)
    {cs : List Char} (h : x ∈ lower cs) : x ∈ cs := by
  have hlow : ∀ c, c.toNat < 128 → x ∈ lowerChar c → x = c := by
    intro c hc hx
    rw [lowerChar_of_ascii hc, List.mem_singleton] at hx
    rw [hx] at hletter ⊢
    exact toLower_of_isLetter_eq_false hletter
  obtain ⟨c, hc, low, hlowers, hmem⟩ := exists_of_mem_lower h
  obtain ⟨-, rfl | rfl⟩ | ⟨-, rfl⟩ := hlowers
  · rw [List.mem_singleton.mp hmem] at hascii
    exact absurd hascii (by decide)
  · rw [List.mem_singleton.mp hmem] at hascii
    exact absurd hascii (by decide)
  by_cases hdot : c = '\u0130'
  · rw [hdot, lowerChar_dot, List.mem_pair] at hmem
    rcases hmem with rfl | rfl
    · exact absurd hletter (by decide)
    · exact absurd hascii (by decide)
  rcases ascii_of_mem_lowerChar hdot hmem hascii with hsmall | rfl
  · rwa [hlow c hsmall hmem]
  · have hk : lowerChar '\u212A' = ['k'] := by decide
    rw [hk, List.mem_singleton] at hmem
    rw [hmem] at hletter
    exact absurd hletter (by decide)

theorem toLower_of_isLow {c : Char} (h : IsLow c) : c.toLower = c := by
  by_cases hascii : c.toNat < 128
  · have hlow := h.1
    rw [lowerChar_of_ascii hascii] at hlow
    exact List.singleton_inj.mp hlow
  · unfold Char.toLower
    split
    next hupper =>
      have hupper' : c.toNat ≤ 90 := hupper.2
      omega
    next => rfl

theorem map_toLower_lower (cs : List Char) : (lower cs).map Char.toLower = lower cs := by
  have hall : ∀ x ∈ lower cs, x.toLower = id x :=
    fun x hx => toLower_of_isLow (isLow_of_mem_lower hx)
  rw [List.map_congr_left hall, List.map_id]

end Rockstar.Text
