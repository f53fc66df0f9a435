import Mathlib
import MarkupQuery.Decimal.Notation

/-!
# Whole numbers as floating-point numbers

A whole number below `2 ^ 53` is a floating-point number, and digits are read without getting below
it unless they stand for less.  All goes through the logical model of the type: a mantissa of 53
bits, an exponent, and the packing of both into one word.
-/

namespace MarkupQuery.Decimal

open Float.Model (Format UnpackedFloat totalExponent)
open Float.Model.UnpackedFloat

/-! ## Rounding -/

theorem mantissa_shiftRight (em : ExtendedMantissa) (s : Nat) :
    (em >>> s).mantissa = em.mantissa / 2 ^ s := by
  induction s with
  | zero => exact (Nat.div_one _).symm
  | succ s ih =>
    have hstep : (em >>> (s + 1)).mantissa = (em >>> s).mantissa / 2 := rfl
    rw [hstep, ih, Nat.div_div_eq_div_mul, Nat.pow_succ]

theorem shiftRight_exact (m s : Nat) :
    (⟨m * 2 ^ s, false, false⟩ : ExtendedMantissa) >>> s = ⟨m, false, false⟩ := by
  induction s generalizing m with
  | zero => simp [HShiftRight.hShiftRight, Nat.repeat]
  | succ s ih =>
    have hstep : (⟨m * 2 ^ (s + 1), false, false⟩ : ExtendedMantissa) >>> (s + 1) =
        ((⟨m * 2 * 2 ^ s, false, false⟩ : ExtendedMantissa) >>> s).shiftRightOne := by
      rw [Nat.pow_succ', ← Nat.mul_assoc]
      rfl
    rw [hstep, ih]
    simp [ExtendedMantissa.shiftRightOne]

theorem roundedMantissa_bounds (em : ExtendedMantissa) :
    em.mantissa ≤ em.roundedMantissa ∧ em.roundedMantissa ≤ em.mantissa + 1 := by
  obtain ⟨m, roundBit, stickyBit⟩ := em
  cases roundBit <;> cases stickyBit <;>
    simp only [ExtendedMantissa.roundedMantissa, ExtendedMantissa.accuracy,
      Accuracy.roundToNearestEven] <;> omega

/-- A mantissa that is `s` bits too long is shifted by these. -/
theorem shiftToTargetExponent_eq {m s : Nat} {e : Int} (hlog : m.log2 = 52 + s)
    (he : -1074 ≤ e + s) :
    shiftToTargetExponent .binary64 m e .exact =
      ((⟨m, false, false⟩ : ExtendedMantissa) >>> s, e + s) := by
  have htarget : Format.binary64.targetExponent (totalExponent m e) = e + s := by
    simp only [Format.targetExponent, totalExponent, Format.mantissaBits, Format.minExponent, hlog]
    omega
  have hshift : (e + s - e).toNat = s := by omega
  simp only [shiftToTargetExponent, shiftToExponent, htarget, hshift,
    ExtendedMantissa.ofMantissaAndAccuracy]

theorem log2_mul_two_pow {m : Nat} (s : Nat) (hlow : 2 ^ 52 ≤ m) (hhigh : m < 2 ^ 53) :
    (m * 2 ^ s).log2 = 52 + s := by
  have hpos : 0 < 2 ^ s := Nat.two_pow_pos s
  have hne : m * 2 ^ s ≠ 0 := Nat.mul_ne_zero (by omega) (by omega)
  rw [Nat.log2_eq_iff hne, Nat.pow_add, show 52 + s + 1 = 53 + s by omega, Nat.pow_add]
  exact ⟨Nat.mul_le_mul_right _ hlow, Nat.mul_lt_mul_of_pos_right hhigh hpos⟩

/-- A mantissa is rounded to one of 53 bits by the shift before the rounding and the one after. -/
theorem roundWithAccuracy_eq {big s m s' : Nat} {e : Int} (hlog : big.log2 = 52 + s)
    (he : -1074 ≤ e + s) (hlow : 2 ^ 52 ≤ m) (hhigh : m < 2 ^ 53)
    (hround : ((⟨big, false, false⟩ : ExtendedMantissa) >>> s).roundedMantissa = m * 2 ^ s') :
    roundWithAccuracy .binary64 .positive big e .exact =
      .finite .positive m (e + s + s') (Nat.lt_of_lt_of_le (by decide) hlow) := by
  have hlog' := log2_mul_two_pow s' hlow hhigh
  have hfinal : shiftToTargetExponent .binary64 (m * 2 ^ s') (e + s) .exact =
      (⟨m, false, false⟩, e + s + s') := by
    rw [shiftToTargetExponent_eq hlog' (by omega), shiftRight_exact]
  have hne : m ≠ 0 := by omega
  simp only [roundWithAccuracy, shiftToTargetExponent_eq hlog he, hround, hfinal, hne,
    ↓reduceDIte]

theorem roundWithAccuracy_exact {m s : Nat} {e : Int} (hlow : 2 ^ 52 ≤ m) (hhigh : m < 2 ^ 53)
    (he : -1074 ≤ e + s) :
    roundWithAccuracy .binary64 .positive (m * 2 ^ s) e .exact =
      .finite .positive m (e + s) (Nat.lt_of_lt_of_le (by decide) hlow) := by
  have hround : ((⟨m * 2 ^ s, false, false⟩ : ExtendedMantissa) >>> s).roundedMantissa =
      m * 2 ^ 0 := by
    rw [shiftRight_exact, Nat.pow_zero, Nat.mul_one]
    rfl
  have heq := roundWithAccuracy_eq (log2_mul_two_pow s hlow hhigh) he hlow hhigh hround
  simpa using heq

/-- A mantissa of any length is rounded to one of 53 bits, and the exponent grows by the bits that
are dropped or by one more. -/
theorem exists_roundWithAccuracy {big s : Nat} {e : Int} (hlog : big.log2 = 52 + s)
    (he : -1074 ≤ e + s) :
    ∃ m e' h, roundWithAccuracy .binary64 .positive big e .exact = .finite .positive m e' h ∧
      2 ^ 52 ≤ m ∧ m < 2 ^ 53 ∧ e + s ≤ e' := by
  have hne : big ≠ 0 := by
    rintro rfl
    simp at hlog
    omega
  have hbig := (Nat.log2_eq_iff hne).1 hlog
  have hquotient : 2 ^ 52 ≤ big / 2 ^ s ∧ big / 2 ^ s < 2 ^ 53 := by
    rw [Nat.le_div_iff_mul_le (Nat.two_pow_pos s), Nat.div_lt_iff_lt_mul (Nat.two_pow_pos s),
      ← Nat.pow_add, ← Nat.pow_add]
    exact ⟨hbig.1, by rw [show 53 + s = 52 + s + 1 by omega]; exact hbig.2⟩
  have hround := roundedMantissa_bounds ((⟨big, false, false⟩ : ExtendedMantissa) >>> s)
  simp only [mantissa_shiftRight] at hround
  by_cases hcarry : ((⟨big, false, false⟩ : ExtendedMantissa) >>> s).roundedMantissa < 2 ^ 53
  · have hkept : ((⟨big, false, false⟩ : ExtendedMantissa) >>> s).roundedMantissa =
        ((⟨big, false, false⟩ : ExtendedMantissa) >>> s).roundedMantissa * 2 ^ 0 := by
      simp
    have hlow := hquotient.1.trans hround.1
    exact ⟨_, _, _, roundWithAccuracy_eq hlog he hlow hcarry hkept, hlow, hcarry, by simp⟩
  · have hmax : ((⟨big, false, false⟩ : ExtendedMantissa) >>> s).roundedMantissa =
        2 ^ 52 * 2 ^ 1 := by
      omega
    refine ⟨_, _, _, roundWithAccuracy_eq hlog he (Nat.le_refl _) (by decide) hmax, ?_, ?_, ?_⟩
    · exact Nat.le_refl _
    · decide
    · omega

/-! ## Packing -/

theorem unpack_eq (x : UnpackedFloat) :
    (Float.Model.pack x).unpack = unpack .binary64 (pack .binary64 x) :=
  rfl

theorem toNat_implicit {m : Nat} (hlow : 2 ^ 52 ≤ m) (hhigh : m < 2 ^ 53) :
    (1#1 ++ BitVec.ofNat 52 m).toNat = m := by
  have hrest : (BitVec.ofNat 52 m).toNat = m - 2 ^ 52 := by
    rw [BitVec.toNat_ofNat]
    omega
  rw [BitVec.toNat_append, ← Nat.shiftLeft_add_eq_or_of_lt (BitVec.isLt _), hrest]
  simp only [BitVec.toNat_ofNat, Nat.shiftLeft_eq]
  omega

theorem toNat_biased {e : Int} {biased : Nat} (h : e + 1075 = biased) :
    (e + Format.binary64.exponentBias + Format.binary64.mantissaBitsWithoutImplicit).toNat =
      biased := by
  simp only [Format.exponentBias]
  omega

/-- What is packed is there again, if its exponent is not too great. -/
theorem unpack_pack_finite {m : Nat} {e : Int} (hpos : 0 < m) (hlow : 2 ^ 52 ≤ m)
    (hhigh : m < 2 ^ 53) (he : -1074 ≤ e) (hmax : e ≤ 971) :
    (Float.Model.pack (.finite .positive m e hpos)).unpack = .finite .positive m e hpos := by
  have hlog : m.log2 + 1 = Format.binary64.mantissaBits := by
    have hlog52 : m.log2 = 52 := (Nat.log2_eq_iff (by omega)).2 ⟨hlow, hhigh⟩
    rw [hlog52]
    rfl
  obtain ⟨biased, hbiased⟩ : ∃ n : Nat, e + 1075 = n := Int.eq_ofNat_of_zero_le (by omega)
  have hfits : ¬ 2 ^ 11 ≤ biased + 1 := by omega
  have hpack : pack .binary64 (.finite .positive m e hpos) =
      packComponents .binary64 .positive (BitVec.ofNat 11 biased) (BitVec.ofNat 52 m) := by
    simp only [pack, toNat_biased hbiased, hfits, hlog, ↓reduceIte]
  have hall : BitVec.ofNat 11 biased ≠ -1#11 := by
    rw [Ne, ← BitVec.toNat_inj, BitVec.toNat_ofNat]
    simp
    omega
  have hzero : BitVec.ofNat 11 biased ≠ 0#11 := by
    rw [Ne, ← BitVec.toNat_inj, BitVec.toNat_ofNat]
    simp
    omega
  rw [unpack_eq, hpack]
  simp only [unpack, unpackMantissa_packComponents, unpackExponent_packComponents,
    unpackSign_packComponents, Sign.ofBitVec_toBitVec, hall, hzero, ↓reduceIte]
  have hexponent : ((BitVec.ofNat 11 biased).toNat : Int) -
      (Format.binary64.exponentBias + (52 : Nat)) = e := by
    rw [BitVec.toNat_ofNat, Nat.mod_eq_of_lt (by omega)]
    simp only [Format.exponentBias]
    omega
  simp only [toNat_implicit hlow hhigh, hexponent]

/-- A number that is too great is packed as infinity. -/
theorem unpack_pack_infinity {m : Nat} {e : Int} (hpos : 0 < m) (hmax : 971 < e) :
    (Float.Model.pack (.finite .positive m e hpos)).unpack = .infinity .positive := by
  obtain ⟨biased, hbiased⟩ : ∃ n : Nat, e + 1075 = n := Int.eq_ofNat_of_zero_le (by omega)
  have hexceeds : 2 ^ 11 ≤ biased + 1 := by omega
  have hpack : pack .binary64 (.finite .positive m e hpos) =
      packedInfinity .binary64 .positive := by
    simp only [pack, toNat_biased hbiased, hexceeds, ↓reduceIte]
  rw [unpack_eq, hpack]
  rfl

theorem unpack_pack_zero :
    (Float.Model.pack (.zero .positive)).unpack = .zero .positive := by
  rw [unpack_eq]
  exact unpack_packedZero

/-! ## Whole numbers -/

/-- The mantissa of a whole number, filled up to 53 bits. -/
def filled (n : Nat) : Nat := n * 2 ^ (52 - n.log2)

variable {n p : Nat}

theorem log2_le_of_lt (hn : n < 2 ^ 53) : n.log2 ≤ 52 := by
  by_cases hzero : n = 0
  · simp [hzero]
  · exact Nat.le_of_lt_succ ((Nat.log2_lt hzero).2 hn)

theorem filled_bounds (hne : n ≠ 0) (hn : n < 2 ^ 53) :
    2 ^ 52 ≤ filled n ∧ filled n < 2 ^ 53 := by
  have hlog := log2_le_of_lt hn
  have hn' := (Nat.log2_eq_iff hne).1 rfl
  have hpow : 2 ^ 52 = 2 ^ n.log2 * 2 ^ (52 - n.log2) := by
    rw [← Nat.pow_add, Nat.add_sub_cancel' hlog]
  have hpow' : 2 ^ 53 = 2 ^ (n.log2 + 1) * 2 ^ (52 - n.log2) := by
    rw [← Nat.pow_add]
    congr 1
    omega
  rw [hpow, hpow']
  exact ⟨Nat.mul_le_mul_right _ hn'.1,
    Nat.mul_lt_mul_of_pos_right hn'.2 (Nat.two_pow_pos _)⟩

/-- A whole number with its mantissa filled up. -/
def whole (n : Nat) : UnpackedFloat :=
  if h : filled n = 0 then .zero .positive
  else .finite .positive (filled n) (n.log2 - 52) (Nat.pos_of_ne_zero h)

theorem whole_zero : whole 0 = .zero .positive := rfl

theorem filled_pos (hne : n ≠ 0) : 0 < filled n :=
  Nat.mul_pos (Nat.pos_of_ne_zero hne) (Nat.two_pow_pos _)

theorem whole_of_ne_zero (hne : n ≠ 0) :
    whole n = .finite .positive (filled n) (n.log2 - 52) (filled_pos hne) := by
  rw [whole, dif_neg (Nat.ne_of_gt (filled_pos hne))]

/-- Numbers of this size are rounded to themselves. -/
theorem round_eq (hne : n ≠ 0) (hn : n < 2 ^ 53) :
    Float.Model.UnpackedFloat.round .binary64 .positive n 0 = whole n := by
  have hlog := log2_le_of_lt hn
  obtain ⟨hlow, hhigh⟩ := filled_bounds hne hn
  have htarget : Format.binary64.targetExponent (totalExponent n 0) = n.log2 - 52 := by
    simp only [Format.targetExponent, totalExponent, Format.mantissaBits, Format.minExponent]
    omega
  have hdecrease : decreaseExponent n 0 (n.log2 - 52) =
      (filled n * 2 ^ 0, (n.log2 : Int) - 52) := by
    have hshift : (0 - ((n.log2 : Int) - 52)).toNat = 52 - n.log2 := by omega
    simp only [decreaseExponent, hshift, Nat.shiftLeft_eq, filled, Nat.pow_zero, Nat.mul_one,
      Prod.mk.injEq, true_and]
    omega
  rw [Float.Model.UnpackedFloat.round, htarget, hdecrease]
  simp only []
  rw [roundWithAccuracy_exact hlow hhigh (by omega), whole_of_ne_zero hne]
  simp

theorem unpack_pack_whole (hn : n < 2 ^ 53) : (Float.Model.pack (whole n)).unpack = whole n := by
  by_cases hzero : n = 0
  · rw [hzero, whole_zero]
    exact unpack_pack_zero
  · have hlog := log2_le_of_lt hn
    obtain ⟨hlow, hhigh⟩ := filled_bounds hzero hn
    rw [whole_of_ne_zero hzero]
    exact unpack_pack_finite (filled_pos hzero) hlow hhigh (by omega) (by omega)

theorem unpack_toFloat (hn : n < 2 ^ 53) : n.toUInt64.toFloat.toModel.unpack = whole n := by
  have hword : n.toUInt64.toNat = n := by
    exact UInt64.toNat_ofNat_of_lt (Nat.lt_trans hn (by decide))
  have hrounded : UnpackedFloat.ofNat .binary64 n = whole n := by
    by_cases hzero : n = 0
    · rw [hzero]
      rfl
    · have hgt : compare (n : Int) 0 = .gt := by
        rw [Int.compare_eq_gt]
        omega
      simp only [ofNat, ofInt, Float.Model.UnpackedFloat.normalize, hgt, Int.toNat_natCast]
      exact round_eq hzero hn
  have hmodel : n.toUInt64.toFloat.toModel =
      Float.Model.pack (UnpackedFloat.ofNat .binary64 n.toUInt64.toNat) :=
    rfl
  rw [hmodel, hword, hrounded, unpack_pack_whole hn]

theorem unpack_one : (Float.exactlyRepresentablePowersOfTen[0]).toModel.unpack =
    .finite .positive (2 ^ 52) (-52) (by decide) := by
  rfl

theorem mul_one_eq (hn : n < 2 ^ 53) :
    mul .binary64 (whole n) (.finite .positive (2 ^ 52) (-52) (by decide)) = whole n := by
  by_cases hzero : n = 0
  · rw [hzero]
    rfl
  · obtain ⟨hlow, hhigh⟩ := filled_bounds hzero hn
    have hsign : Sign.positive * Sign.positive = Sign.positive := rfl
    rw [whole_of_ne_zero hzero, mul, hsign, roundWithAccuracy_exact hlow hhigh (by omega)]
    simp only [finite.injEq, true_and]
    omega

theorem div_one_eq (hn : n < 2 ^ 53) :
    div .binary64 (whole n) (.finite .positive (2 ^ 52) (-52) (by decide)) = whole n := by
  by_cases hzero : n = 0
  · rw [hzero]
    rfl
  · obtain ⟨hlow, hhigh⟩ := filled_bounds hzero hn
    have hlog := log2_le_of_lt hn
    have hfilled : (filled n).log2 = 52 := (Nat.log2_eq_iff (by omega)).2 ⟨hlow, hhigh⟩
    have hsign : Sign.positive / Sign.positive = Sign.positive := rfl
    have hcore : divCore .binary64 (filled n) (n.log2 - 52) (2 ^ 52) (-52) =
        (filled n * 2 ^ 1, (n.log2 : Int) - 53, Accuracy.exact) := by
      have htarget : min ((n.log2 : Int) - 52 - -52) (Format.binary64.targetExponent
          (totalExponent (filled n) (n.log2 - 52) - totalExponent (2 ^ 52) (-52))) =
            n.log2 - 53 := by
        simp only [Format.targetExponent, totalExponent, Format.mantissaBits, Format.minExponent,
          hfilled, Nat.log2_two_pow]
        omega
      have hshift : ((n.log2 : Int) - 52 - -52 - (n.log2 - 53)).toNat = 53 := by omega
      have hdouble : filled n <<< 53 = filled n * 2 ^ 1 * 2 ^ 52 := by
        rw [Nat.shiftLeft_eq, Nat.mul_assoc, ← Nat.pow_add]
      simp only [divCore, htarget, hshift, hdouble, Nat.mul_mod_left, accuracyOfFraction,
        Nat.mul_div_cancel _ (Nat.two_pow_pos 52), ↓reduceIte]
    rw [whole_of_ne_zero hzero, div, hcore, hsign]
    simp only []
    rw [roundWithAccuracy_exact hlow hhigh (by omega)]
    simp only [finite.injEq, true_and]
    omega

theorem unpack_ofNat (hn : n < 2 ^ 53) : (Float.ofNat n).toModel.unpack = whole n := by
  have hfast : Float.ofNat n =
      n.toUInt64.toFloat * Float.exactlyRepresentablePowersOfTen[0] := by
    have hfits : n < 2 ^ 53 ∧ 0 ≤ 22 := ⟨hn, by decide⟩
    have hread : Float.ofNat n = Float.ofScientific n false 0 := rfl
    rw [hread, Float.ofScientific, dif_pos hfits]
    rfl
  have hmodel : (Float.ofNat n).toModel = Float.Model.pack (mul .binary64
      n.toUInt64.toFloat.toModel.unpack
      (Float.exactlyRepresentablePowersOfTen[0]).toModel.unpack) := by
    rw [hfast]
    rfl
  rw [hmodel, unpack_toFloat hn, unpack_one, mul_one_eq hn, unpack_pack_whole hn]

theorem unpack_ofScientific (hn : n < 2 ^ 53) :
    (Float.ofScientific n true 0).toModel.unpack = whole n := by
  have hfast : Float.ofScientific n true 0 =
      n.toUInt64.toFloat / Float.exactlyRepresentablePowersOfTen[0] := by
    have hfits : n < 2 ^ 53 ∧ 0 ≤ 22 := ⟨hn, by decide⟩
    rw [Float.ofScientific, dif_pos hfits]
    rfl
  have hmodel : (Float.ofScientific n true 0).toModel = Float.Model.pack (div .binary64
      n.toUInt64.toFloat.toModel.unpack
      (Float.exactlyRepresentablePowersOfTen[0]).toModel.unpack) := by
    rw [hfast]
    rfl
  rw [hmodel, unpack_toFloat hn, unpack_one, div_one_eq hn, unpack_pack_whole hn]

/-- Numbers from `2 ^ 53` on are read as infinity or with a positive exponent. -/
theorem unpack_ofScientific_large (hn : 2 ^ 53 ≤ n) :
    (Float.ofScientific n true 0).toModel.unpack = .infinity .positive ∨
      ∃ m e hpos, (Float.ofScientific n true 0).toModel.unpack = .finite .positive m e hpos ∧
        1 ≤ e := by
  obtain ⟨s, hs⟩ : ∃ s, n.log2 = 53 + s :=
    Nat.exists_eq_add_of_le ((Nat.le_log2 (by omega)).2 hn)
  have hlog : (n <<< 53 * 1).log2 = 52 + (54 + s) := by
    have hbounds := (Nat.log2_eq_iff (by omega)).1 hs
    rw [Nat.mul_one, Nat.shiftLeft_eq, Nat.log2_eq_iff (by omega)]
    rw [show 52 + (54 + s) = 53 + s + 53 by omega, show 53 + s + 53 + 1 = 53 + s + 1 + 53 by omega,
      Nat.pow_add 2 (53 + s) 53, Nat.pow_add 2 (53 + s + 1) 53]
    exact ⟨Nat.mul_le_mul_right _ hbounds.1,
      Nat.mul_lt_mul_of_pos_right hbounds.2 (Nat.two_pow_pos _)⟩
  obtain ⟨m, e, hpos, hround, hlow, hhigh, he⟩ :=
    exists_roundWithAccuracy (e := -53) hlog (by omega)
  have hmodel : (Float.ofScientific n true 0).toModel =
      Float.Model.pack (.finite .positive m e hpos) := by
    have hslow : ¬ (n < 2 ^ 53 ∧ 0 ≤ 22) := by omega
    have hne : n ≠ 0 := by omega
    have hexponent : Int.negOfNat 0 = 0 := rfl
    have hgreat : ¬ (0 : Int) > 2 ^ 11 := by decide
    have hsmall : ¬ (0 : Int) < -(2 ^ 11 + n.log2) := by omega
    have hbits : Format.binary64.mantissaBits = 53 := rfl
    have hsign : Sign.positive * Sign.positive = Sign.positive := rfl
    have hstart : -((53 : Nat) : Int) + 0 = -53 := rfl
    rw [Float.ofScientific, dif_neg hslow]
    simp only [↓reduceIte, Float.Model.ofScientific, UnpackedFloat.ofScientific, hne, hexponent,
      hgreat, hsmall, ↓reduceDIte, Int.le_refl, hbits, Int.toNat_zero, Nat.pow_zero, mul, hsign,
      hstart, hround]
  rw [hmodel]
  by_cases hmax : e ≤ 971
  · exact .inr ⟨m, e, hpos, unpack_pack_finite hpos hlow hhigh (by omega) hmax, by omega⟩
  · exact .inl (unpack_pack_infinity hpos (by omega))

/-! ## Comparison -/

theorem log2_lt_log2_of_lt (hne : n ≠ 0) (h : p.log2 < n.log2) : p < n := by
  have hp : p < 2 ^ (p.log2 + 1) := Nat.lt_log2_self
  have hn := Nat.log2_self_le hne
  have hpow : 2 ^ (p.log2 + 1) ≤ 2 ^ n.log2 := Nat.pow_le_pow_right (by decide) h
  omega

theorem le_finite_iff {m m' : Nat} {e e' : Int} (hpos : 0 < m) (hpos' : 0 < m') :
    (finite .positive m e hpos).le (finite .positive m' e' hpos') = true ↔
      e < e' ∨ e = e' ∧ m ≤ m' := by
  have hcompare : (finite .positive m e hpos).le (finite .positive m' e' hpos') =
      ((compare e e').then (compare m m')).isLE :=
    rfl
  rw [hcompare, Ordering.isLE_then_iff_or, Int.compare_eq_lt, Int.compare_eq_eq, Nat.isLE_compare]

/-- Whole numbers are compared by their exponents first and then by their mantissas. -/
theorem le_whole_iff : (whole p).le (whole n) = true ↔ p ≤ n := by
  by_cases hp : p = 0
  · by_cases hn : n = 0
    · rw [hp, hn]
      decide
    · rw [hp, whole_zero, whole_of_ne_zero hn]
      exact iff_of_true rfl (Nat.zero_le n)
  · by_cases hn : n = 0
    · rw [hn, whole_zero, whole_of_ne_zero hp]
      exact iff_of_false Bool.false_ne_true (by omega)
    · rw [whole_of_ne_zero hp, whole_of_ne_zero hn, le_finite_iff]
      rcases Nat.lt_trichotomy p.log2 n.log2 with hlt | heq | hgt
      · have hlt' := log2_lt_log2_of_lt hn hlt
        omega
      · have hfilled : filled p ≤ filled n ↔ p ≤ n := by
          rw [filled, filled, heq]
          exact Nat.mul_le_mul_right_iff (Nat.two_pow_pos _)
        omega
      · have hgt' := log2_lt_log2_of_lt hp hgt
        omega

theorem le_iff_unpack (x y : Float) : x ≤ y ↔ x.toModel.unpack.le y.toModel.unpack = true :=
  decide_eq_true_iff

/-- Digits are read as a number that is no less than a whole number below `2 ^ 53` when they stand
for one that is no less. -/
theorem ofNat_le_ofScientific_iff (hp : p < 2 ^ 53) :
    Float.ofNat p ≤ Float.ofScientific n true 0 ↔ p ≤ n := by
  rw [le_iff_unpack, unpack_ofNat hp]
  by_cases hn : n < 2 ^ 53
  · rw [unpack_ofScientific hn, le_whole_iff]
  · refine iff_of_true ?_ (by omega)
    have hlog := log2_le_of_lt hp
    obtain hinfinite | ⟨m, e, hpos, hfinite, he⟩ := unpack_ofScientific_large (Nat.not_lt.1 hn)
    · rw [hinfinite]
      by_cases hzero : p = 0
      · rw [hzero]
        rfl
      · rw [whole_of_ne_zero hzero]
        rfl
    · rw [hfinite]
      by_cases hzero : p = 0
      · rw [hzero]
        rfl
      · rw [whole_of_ne_zero hzero, le_finite_iff]
        omega

/-! ## Equality -/

theorem beq_finite_iff {m m' : Nat} {e e' : Int} (hpos : 0 < m) (hpos' : 0 < m') :
    (finite .positive m e hpos).beq (finite .positive m' e' hpos') = true ↔ e = e' ∧ m = m' := by
  have hcompare : (finite .positive m e hpos).beq (finite .positive m' e' hpos') =
      (some ((compare e e').then (compare m m')) == some .eq) :=
    rfl
  rw [hcompare, beq_iff_eq, Option.some.injEq, Ordering.then_eq_eq, Int.compare_eq_eq,
    Nat.compare_eq_eq]

theorem beq_whole_iff : (whole n).beq (whole p) = true ↔ n = p := by
  by_cases hp : p = 0
  · by_cases hn : n = 0
    · rw [hp, hn]
      decide
    · rw [hp, whole_zero, whole_of_ne_zero hn]
      exact iff_of_false Bool.false_ne_true hn
  · by_cases hn : n = 0
    · rw [hn, whole_zero, whole_of_ne_zero hp]
      exact iff_of_false Bool.false_ne_true (Ne.symm hp)
    · rw [whole_of_ne_zero hn, whole_of_ne_zero hp, beq_finite_iff]
      constructor
      · rintro ⟨hexponent, hmantissa⟩
        have hlog : n.log2 = p.log2 := by omega
        rw [filled, filled, hlog] at hmantissa
        exact Nat.eq_of_mul_eq_mul_right (Nat.two_pow_pos _) hmantissa
      · rintro rfl
        exact ⟨rfl, rfl⟩

/-- Smaller whole numbers have no positive exponent. -/
theorem not_beq_two_pow (hp : p < 2 ^ 53) :
    ¬ (whole p).beq (.finite .positive (2 ^ 52) 1 (by decide)) = true ∧
      ¬ (UnpackedFloat.finite .positive (2 ^ 52) 1 (by decide)).beq (whole p) = true := by
  by_cases hzero : p = 0
  · rw [hzero]
    exact ⟨Bool.false_ne_true, Bool.false_ne_true⟩
  · have hlog := log2_le_of_lt hp
    rw [whole_of_ne_zero hzero, beq_finite_iff, beq_finite_iff]
    omega

theorem beq_iff_unpack (x y : Float) : (x == y) = x.toModel.unpack.beq y.toModel.unpack := rfl

/-- Whole numbers below `2 ^ 53` are equal only to themselves. -/
theorem ofNat_beq_ofNat_iff (hn : n < 2 ^ 53) (hp : p < 2 ^ 53) :
    (Float.ofNat n == Float.ofNat p) = true ↔ n = p := by
  rw [beq_iff_unpack, unpack_ofNat hn, unpack_ofNat hp, beq_whole_iff]

/-- Digits are read as equal to a whole number up to `2 ^ 53` only when they stand for it. -/
theorem ofScientific_beq_ofNat_iff (hn : n ≤ 2 ^ 53) (hp : p ≤ 2 ^ 53) :
    (Float.ofScientific n true 0 == Float.ofNat p) = true ↔ n = p := by
  have hread : (Float.ofScientific (2 ^ 53) true 0).toModel.unpack =
      .finite .positive (2 ^ 52) 1 (by decide) := rfl
  have hwritten : (Float.ofNat (2 ^ 53)).toModel.unpack =
      .finite .positive (2 ^ 52) 1 (by decide) := rfl
  rw [beq_iff_unpack]
  rcases Nat.lt_or_eq_of_le hn with hn | rfl <;> rcases Nat.lt_or_eq_of_le hp with hp | rfl
  · rw [unpack_ofScientific hn, unpack_ofNat hp, beq_whole_iff]
  · rw [unpack_ofScientific hn, hwritten]
    exact iff_of_false (not_beq_two_pow hn).1 (Nat.ne_of_lt hn)
  · rw [hread, unpack_ofNat hp]
    exact iff_of_false (not_beq_two_pow hp).2 (Nat.ne_of_gt hp)
  · rw [hread, hwritten, beq_finite_iff]
    exact iff_of_true ⟨rfl, rfl⟩ rfl

theorem ofDigits_toDigits (n : Nat) :
    ofDigits (Nat.toDigits 10 n) [] = Float.ofScientific n true 0 := by
  have hnumber : natOfDigits (Nat.toDigits 10 n) = n := by
    rw [natOfDigits, ← Nat.ofDigitChars_eq_foldl, Nat.ofDigitChars_ten_toDigits]
  rw [ofDigits, List.append_nil, hnumber]
  rfl

end MarkupQuery.Decimal
