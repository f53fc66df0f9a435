import MarkupQuery.Proofs.Decimal.Integers

/-!
# Digits are always a number

Reading decimal digits gives a number, however many they are: rounding leads to zero or to a finite
number, one that is too great is packed as infinity, and packing makes nothing else of a number.
-/

namespace MarkupQuery.Decimal

open Float.Model (UnpackedFloat)
open Float.Model.UnpackedFloat

/-! ## Packing and rounding -/

/-- Only the greatest exponent is left for what is no number. -/
theorem isNaN_unpack_packComponents (sign : Sign) {exponent : BitVec 11} (h : exponent ≠ -1#11)
    (mantissa : BitVec 52) :
    (unpack .binary64 (packComponents .binary64 sign exponent mantissa)).isNaN = false := by
  simp only [unpack, unpackExponent_packComponents, h, ↓reduceIte]
  split
  · split <;> rfl
  · rfl

/-- A number that is packed stays one. -/
theorem isNaN_unpack_pack {x : UnpackedFloat} (h : x.isNaN = false) :
    (Float.Model.pack x).unpack.isNaN = false := by
  rw [unpack_eq]
  cases x with
  | notANumber => cases h
  | infinity sign => cases sign <;> rfl
  | zero sign => cases sign <;> rfl
  | finite sign m e hpos =>
    have hzero : 0#11 ≠ -1#11 := by decide
    simp only [pack]
    split
    · cases sign <;> rfl
    · rename_i hfits
      split
      · refine isNaN_unpack_packComponents sign ?_ _
        rw [Ne, ← BitVec.toNat_inj, BitVec.toNat_ofNat]
        simp at hfits ⊢
        omega
      · exact isNaN_unpack_packComponents sign hzero _

theorem isNaN_roundWithAccuracy (sign : Sign) (m : Nat) (e : Int) (accuracy : Accuracy) :
    (roundWithAccuracy .binary64 sign m e accuracy).isNaN = false := by
  simp only [roundWithAccuracy]
  split <;> rfl

/-! ## Powers of ten -/

theorem unpack_powerOfTen (e : Fin 23) : ∃ m e' h,
    Float.exactlyRepresentablePowersOfTen[e].toModel.unpack = .finite .positive m e' h := by
  fin_cases e <;> exact ⟨_, _, _, rfl⟩

theorem isNaN_div_whole (n : Nat) {m : Nat} {e : Int} (h : 0 < m) :
    (div .binary64 (whole n) (.finite .positive m e h)).isNaN = false := by
  unfold whole
  split
  · rfl
  · exact isNaN_roundWithAccuracy ..

theorem isNaN_ofScientific (m : Nat) (e : Int) :
    (UnpackedFloat.ofScientific .binary64 m e).isNaN = false := by
  unfold UnpackedFloat.ofScientific
  split_ifs
  · rfl
  · rfl
  · rfl
  · exact isNaN_roundWithAccuracy ..
  · exact isNaN_roundWithAccuracy ..

/-! ## Digits -/

theorem isNaN_ofDigits (whole places : List Char) : (ofDigits whole places).isNaN = false := by
  rw [ofDigits]
  generalize natOfDigits (whole ++ places) = m
  generalize places.length = e
  change (Float.ofScientific m true e).toModel.unpack.isNaN = false
  by_cases hfast : m < 2 ^ 53 ∧ e ≤ 22
  · obtain ⟨m', e', hpos, hpower⟩ := unpack_powerOfTen ⟨e, Nat.lt_succ_of_le hfast.2⟩
    have hmodel : (Float.ofScientific m true e).toModel = Float.Model.pack (div .binary64
        m.toUInt64.toFloat.toModel.unpack (.finite .positive m' e' hpos)) := by
      rw [Float.ofScientific, dif_pos hfast, ← hpower]
      rfl
    rw [hmodel, unpack_toFloat hfast.1]
    exact isNaN_unpack_pack (isNaN_div_whole m hpos)
  · rw [Float.ofScientific, dif_neg hfast]
    exact isNaN_unpack_pack (isNaN_ofScientific ..)

theorem isNaN_notANumber : notANumber.isNaN = true := rfl

end MarkupQuery.Decimal
