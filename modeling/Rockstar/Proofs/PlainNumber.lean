import Rockstar.Constant

/-!
# Plain numbers

A number is plain when its sign bit is clear and it is not the one that is no number. Every number
that a program can spell is plain (`isPlain_read`), and so is every count (`isPlain_ofNat`).
Plain numbers with one key are one number (`eq_of_key_eq`): the constant pool, which holds only
one zero, gives back a literal bit for bit.

Arithmetic on numbers takes them apart into sign, mantissa and exponent and rounds the result. The
lemmas follow the same way: what is taken apart stays unsigned through rounding and packing.
-/

namespace Rockstar

open Float.Model UnpackedFloat

namespace Decimal

/-- A number with a clear sign bit that is not the one that is no number. -/
def IsPlain (x : Float) : Prop := x.isNaN = false ∧ isNegative x = false

/-- A number taken apart that has a positive sign. -/
def Unsigned : UnpackedFloat → Prop
  | .notANumber => False
  | .infinity s => s = .positive
  | .zero s => s = .positive
  | .finite s _ _ _ => s = .positive

/-! ## Operations that keep a number unsigned -/

theorem unsigned_ite {c : Prop} [Decidable c] {u w : UnpackedFloat} (hu : c → Unsigned u)
    (hw : ¬c → Unsigned w) : Unsigned (if c then u else w) := by
  by_cases h : c
  · rw [if_pos h]
    exact hu h
  · rw [if_neg h]
    exact hw h

theorem unsigned_dite {c : Prop} [Decidable c] {u : c → UnpackedFloat} {w : ¬c → UnpackedFloat}
    (hu : ∀ h, Unsigned (u h)) (hw : ∀ h, Unsigned (w h)) :
    Unsigned (if h : c then u h else w h) := by
  by_cases h : c
  · rw [dif_pos h]
    exact hu h
  · rw [dif_neg h]
    exact hw h

theorem unsigned_roundWithAccuracy (m : Nat) (e : Int) (a : Accuracy) :
    Unsigned (roundWithAccuracy .binary64 .positive m e a) :=
  unsigned_dite (fun _ => rfl) fun _ => rfl

theorem unsigned_ofNat (n : Nat) : Unsigned (UnpackedFloat.ofNat .binary64 n) := by
  unfold UnpackedFloat.ofNat UnpackedFloat.ofInt UnpackedFloat.normalize
  split
  next h =>
    rw [Int.compare_eq_lt] at h
    omega
  next => exact rfl
  next => exact unsigned_roundWithAccuracy _ _ _

theorem unsigned_mul {u : UnpackedFloat} (hu : Unsigned u) (m : Nat) (e : Int) (hm : 0 < m) :
    Unsigned (mul .binary64 u (.finite .positive m e hm)) := by
  cases u with
  | notANumber => exact hu
  | infinity s => cases (show s = .positive from hu); exact rfl
  | zero s => cases (show s = .positive from hu); exact rfl
  | finite s _ _ _ =>
    cases (show s = .positive from hu)
    exact unsigned_roundWithAccuracy _ _ _

theorem unsigned_div {u : UnpackedFloat} (hu : Unsigned u) (m : Nat) (e : Int) (hm : 0 < m) :
    Unsigned (div .binary64 u (.finite .positive m e hm)) := by
  cases u with
  | notANumber => exact hu
  | infinity s => cases (show s = .positive from hu); exact rfl
  | zero s => cases (show s = .positive from hu); exact rfl
  | finite s _ _ _ =>
    cases (show s = .positive from hu)
    exact unsigned_roundWithAccuracy _ _ _

theorem unsigned_ofScientific (m : Nat) (e : Int) :
    Unsigned (UnpackedFloat.ofScientific .binary64 m e) := by
  unfold UnpackedFloat.ofScientific
  refine unsigned_dite (fun _ => rfl) fun hm => ?_
  refine unsigned_ite (fun _ => rfl) fun _ => unsigned_ite (fun _ => rfl) fun _ => ?_
  refine unsigned_ite (fun _ => ?_) fun _ => ?_
  · exact unsigned_mul (u := .finite .positive _ _ _) rfl _ _ _
  · exact unsigned_div (u := .finite .positive _ _ _) rfl _ _ _

/-! ## Packing -/

/-- An unsigned number is packed with a clear sign bit, and not into the bits of no number. -/
theorem exists_pack_eq {u : UnpackedFloat} (hu : Unsigned u) :
    ∃ e m, UnpackedFloat.pack .binary64 u = packComponents .binary64 .positive e m ∧
      ¬(e = -1#_ ∧ m ≠ 0#_) := by
  cases u with
  | notANumber => exact hu.elim
  | infinity s =>
    cases (show s = .positive from hu)
    exact ⟨_, _, rfl, fun h => h.2 rfl⟩
  | zero s =>
    cases (show s = .positive from hu)
    exact ⟨_, _, rfl, fun h => absurd h.1 (by decide)⟩
  | finite s m e hm =>
    cases (show s = .positive from hu)
    unfold UnpackedFloat.pack
    dsimp only
    split
    next => exact ⟨_, _, rfl, fun h => h.2 rfl⟩
    next hfits =>
      split
      next =>
        -- the exponent that would stand for no number does not fit
        refine ⟨_, _, rfl, fun h => ?_⟩
        have hexp := congrArg BitVec.toNat h.1
        simp only [BitVec.toNat_ofNat] at hexp
        rw [Nat.mod_eq_of_lt (by omega), show (-1#11 : BitVec 11).toNat = 2047 from rfl] at hexp
        omega
      next => exact ⟨_, _, rfl, fun h => absurd h.1 (by decide)⟩

/-- The sign is the first bit of a packed number. -/
theorem unpackSign_eq {spec : Format} (b : BitVec spec.numBits) :
    unpackSign b =
      (b.extractLsb (spec.mantissaBitsWithoutImplicit + spec.exponentBits)
        (spec.mantissaBitsWithoutImplicit + spec.exponentBits)).cast (by omega) := rfl

/-- The sign comes out of a packed number as it went in. -/
theorem unpackSign_packComponents {spec : Format} (s : Sign) (e : BitVec spec.exponentBits)
    (m : BitVec spec.mantissaBitsWithoutImplicit) :
    unpackSign (packComponents spec s e m) = s.toBitVec := by
  ext i hi
  obtain rfl : i = 0 := by omega
  simp [unpackSign_eq, packComponents, BitVec.getLsbD_append, BitVec.getElem_append]

/-- Bits with a clear sign that stand for a number are unsigned when taken apart. -/
theorem unsigned_unpack {b : BitVec 64}
    (hsign : Sign.ofBitVec (@unpackSign .binary64 b) = .positive)
    (hnum : ¬(@unpackExponent .binary64 b = -1#_ ∧ @unpackMantissa .binary64 b ≠ 0#_)) :
    Unsigned (UnpackedFloat.unpack .binary64 b) := by
  unfold UnpackedFloat.unpack
  refine unsigned_ite (fun he => ?_) fun _ => ?_
  · exact unsigned_ite (fun _ => hsign) fun hm => absurd ⟨he, hm⟩ hnum
  · refine unsigned_ite (fun _ => ?_) fun _ => hsign
    exact unsigned_dite (fun _ => hsign) fun _ => hsign

/-- The sign bit of a number is the first of its bits. -/
theorem isNegative_iff (x : Float) :
    isNegative x = true ↔ @unpackSign .binary64 x.toModel.toBits.toBitVec = 1#1 := by
  unfold isNegative Float.toBits
  generalize x.toModel.toBits = b
  have hb := b.toNat_lt
  rw [beq_iff_eq, ← UInt64.toNat_inj, ← BitVec.toNat_inj]
  simp [unpackSign_eq, Nat.shiftRight_eq_div_pow]
  omega

/-- A packed number that is unsigned is plain, and it is unsigned when taken apart again. -/
theorem isPlain_pack {u : UnpackedFloat} (hu : Unsigned u) :
    IsPlain (.ofModel (Float.Model.pack u)) ∧ Unsigned (Float.Model.pack u).unpack := by
  obtain ⟨e, m, hpack, hnum⟩ := exists_pack_eq hu
  have hbits : (Float.Model.pack u).toBits.toBitVec = packComponents .binary64 .positive e m :=
    hpack
  have hunsigned : Unsigned (Float.Model.pack u).unpack := by
    unfold Float.Model.unpack
    rw [hbits]
    refine unsigned_unpack ?_ ?_
    · rw [unpackSign_packComponents]
      rfl
    · rw [unpackExponent_packComponents, unpackMantissa_packComponents]
      exact hnum
  refine ⟨⟨?_, ?_⟩, hunsigned⟩
  · show (Float.Model.pack u).unpack.isNaN = false
    cases hunpack : (Float.Model.pack u).unpack with
    | notANumber =>
      rw [hunpack] at hunsigned
      exact hunsigned.elim
    | infinity s => rfl
    | zero s => rfl
    | finite s m e hm => rfl
  · rw [Bool.eq_false_iff, Ne, isNegative_iff, hbits, unpackSign_packComponents]
    decide

/-! ## Numbers that a program can spell -/

/-- Whether a number taken apart is positive and neither zero nor infinite. -/
def isPositive : UnpackedFloat → Bool
  | .finite .positive _ _ _ => true
  | _ => false

theorem eq_finite_of_isPositive {u : UnpackedFloat} (h : isPositive u = true) :
    ∃ m e hm, u = .finite .positive m e hm := by
  cases u with
  | finite s m e hm =>
    cases s with
    | positive => exact ⟨m, e, hm, rfl⟩
    | negative => cases h
  | notANumber => cases h
  | infinity s => cases h
  | zero s => cases h

/-- The powers of ten that a short literal is divided by are positive. -/
theorem isPositive_powersOfTen :
    ∀ p ∈ Float.exactlyRepresentablePowersOfTen, isPositive p.toModel.unpack = true := by
  have hall : Float.exactlyRepresentablePowersOfTen.all (isPositive ·.toModel.unpack) = true := by
    decide +kernel
  exact fun p hp => Array.all_eq_true_iff_forall_mem.mp hall p hp

theorem isPlain_ofScientific (m : Nat) (s : Bool) (e : Nat) :
    IsPlain (Float.ofScientific m s e) := by
  unfold Float.ofScientific
  split
  next h =>
    obtain ⟨p, k, hp, hpow⟩ :=
      eq_finite_of_isPositive (isPositive_powersOfTen _ (Array.getElem_mem (i := e) (by
        simp [Float.exactlyRepresentablePowersOfTen]
        omega)))
    have hm := (isPlain_pack (unsigned_ofNat m.toUInt64.toNat)).2
    dsimp only
    split
    · show IsPlain (.ofModel (Float.Model.pack (div .binary64 _ (Float.toModel _).unpack)))
      rw [hpow]
      exact (isPlain_pack (unsigned_div hm _ _ _)).1
    · show IsPlain (.ofModel (Float.Model.pack (mul .binary64 _ (Float.toModel _).unpack)))
      rw [hpow]
      exact (isPlain_pack (unsigned_mul hm _ _ _)).1
  next => exact (isPlain_pack (unsigned_ofScientific _ _)).1

theorem isPlain_read (whole fraction : List Nat) : IsPlain (read whole fraction) :=
  isPlain_ofScientific _ _ _

theorem isPlain_ofNat (n : Nat) : IsPlain (Float.ofNat n) := isPlain_ofScientific _ _ _

end Decimal

/-! ## Keys of plain numbers -/

open Decimal

theorem Float.eq_of_toBits_eq {x y : Float} (h : x.toBits = y.toBits) : x = y := by
  rcases x with ⟨⟨b, hb⟩⟩
  rcases y with ⟨⟨c, hc⟩⟩
  cases (show b = c from h)
  rfl

/-- What is zero when taken apart has neither exponent nor mantissa. -/
theorem of_unpack_eq_zero {b : BitVec 64} {sign : Sign}
    (h : UnpackedFloat.unpack .binary64 b = .zero sign) :
    @unpackExponent .binary64 b = 0#_ ∧ @unpackMantissa .binary64 b = 0#_ ∧
      Sign.ofBitVec (@unpackSign .binary64 b) = sign := by
  unfold UnpackedFloat.unpack at h
  dsimp only at h
  by_cases hlast : @unpackExponent .binary64 b = -1#_
  · rw [if_pos hlast] at h
    by_cases hm : @unpackMantissa .binary64 b = 0#_
    · rw [if_pos hm] at h
      cases h
    · rw [if_neg hm] at h
      cases h
  · rw [if_neg hlast] at h
    by_cases he : @unpackExponent .binary64 b = 0#_
    · rw [if_pos he] at h
      by_cases hm : @unpackMantissa .binary64 b = 0#_
      · rw [dif_pos hm] at h
        exact ⟨he, hm, UnpackedFloat.zero.inj h⟩
      · rw [dif_neg hm] at h
        cases h
    · rw [if_neg he] at h
      cases h

/-- Only one pattern of bits is the positive zero. -/
theorem bits_eq_zero_of_unpack {b : UInt64}
    (h : UnpackedFloat.unpack .binary64 b.toBitVec = .zero .positive) : b = 0 := by
  obtain ⟨he, hm, hsign⟩ := of_unpack_eq_zero h
  have hs : @unpackSign .binary64 b.toBitVec = 0#1 := by
    unfold Sign.ofBitVec at hsign
    split at hsign
    · assumption
    · cases hsign
  -- the three parts make up all bits
  have hb := b.toNat_lt
  have hmn := congrArg BitVec.toNat hm
  have hen := congrArg BitVec.toNat he
  have hsn := congrArg BitVec.toNat hs
  simp [unpackMantissa, unpackExponent, unpackSign_eq, Nat.shiftRight_eq_div_pow] at hmn hen hsn
  apply UInt64.toNat_inj.mp
  show b.toNat = 0
  omega

/-- Taken apart, a plain number is unsigned. -/
theorem Decimal.IsPlain.unsigned {x : Float} (hx : IsPlain x) : Unsigned x.toModel.unpack := by
  have hsign : Sign.ofBitVec (@unpackSign .binary64 x.toModel.toBits.toBitVec) =
      .positive := by
    have hne : @unpackSign .binary64 x.toModel.toBits.toBitVec ≠ 1#1 := by
      rw [Ne, ← isNegative_iff, hx.2]
      decide
    have h0 : @unpackSign .binary64 x.toModel.toBits.toBitVec = 0#1 := by
      generalize @unpackSign .binary64 x.toModel.toBits.toBitVec = b at hne ⊢
      revert b
      decide
    rw [h0]
    rfl
  refine unsigned_unpack hsign ?_
  rintro ⟨he, hm⟩
  have hnum : x.toModel.unpack.isNaN = false := hx.1
  unfold Float.Model.unpack UnpackedFloat.unpack at hnum
  dsimp only at hnum
  rw [if_pos he, if_neg hm] at hnum
  cases hnum

/-- A plain number that equals zero is the positive zero. -/
theorem Decimal.IsPlain.toBits_eq_zero {x : Float} (hx : IsPlain x) (h : (x == 0) = true) :
    x.toBits = 0 := by
  have hcompare : (x.toModel.unpack.compare (.zero .positive) == some .eq) = true := h
  have hunsigned := hx.unsigned
  cases hunpack : x.toModel.unpack with
  | notANumber =>
    rw [hunpack] at hcompare
    cases hcompare
  | infinity s =>
    rw [hunpack] at hcompare
    cases s <;> cases hcompare
  | finite s m e hm =>
    rw [hunpack] at hcompare
    cases s <;> cases hcompare
  | zero s =>
    rw [hunpack] at hunsigned
    cases (show s = .positive from hunsigned)
    exact bits_eq_zero_of_unpack hunpack

/-- Plain numbers with one key are one number. -/
theorem eq_of_key_eq {x y : Float} (hx : IsPlain x) (hy : IsPlain y)
    (h : (Constant.number x).key = (Constant.number y).key) : x = y := by
  simp only [Constant.key, hx.1, hy.1, Bool.false_eq_true, if_false, List.cons.injEq, true_and,
    and_true] at h
  have hzero : ∀ z : Float, IsPlain z →
      (if (z == 0) = true then 0 else z.toBits.toNat) = z.toBits.toNat := by
    intro z hz
    split
    next hz0 => rw [hz.toBits_eq_zero hz0]; rfl
    next => rfl
  rw [hzero x hx, hzero y hy] at h
  exact Float.eq_of_toBits_eq (UInt64.toNat_inj.mp h)

end Rockstar
