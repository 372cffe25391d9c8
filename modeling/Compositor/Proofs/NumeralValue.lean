import Mathlib.Algebra.Group.Nat.Defs
import Compositor.Numeral

namespace Compositor

open Float.Model (Format UnpackedFloat)
open Float.Model.UnpackedFloat

/-! Which operations on doubles cannot give NaN. They are defined on unpacked
doubles, and packing keeps apart what is NaN and what is not. -/

namespace UnpackedDouble

variable {spec : Format}

theorem isNaN_unpack_of_ne_top {bits : BitVec spec.numBits}
    (below : unpackExponent bits ≠ -1#_) : (unpack spec bits).isNaN = false := by
  unfold unpack
  dsimp only
  rw [if_neg below]
  by_cases least : unpackExponent bits = 0#_
  · rw [if_pos least]
    by_cases zero : unpackMantissa bits = 0#_
    · rw [dif_pos zero]
      rfl
    · rw [dif_neg zero]
      rfl
  · rw [if_neg least]
    rfl

theorem isNaN_unpack_of_zero {bits : BitVec spec.numBits} (zero : unpackMantissa bits = 0#_) :
    (unpack spec bits).isNaN = false := by
  by_cases top : unpackExponent bits = -1#_
  · unfold unpack
    dsimp only
    rw [if_pos top, if_pos zero]
    rfl
  · exact isNaN_unpack_of_ne_top top

theorem ne_topExponent {exponent : BitVec spec.exponentBits}
    (below : exponent.toNat + 1 < 2 ^ spec.exponentBits) : exponent ≠ -1#_ := by
  rintro rfl
  rw [BitVec.neg_one_eq_allOnes, BitVec.toNat_allOnes] at below
  omega

theorem zero_ne_topExponent : (0#_ : BitVec spec.exponentBits) ≠ -1#_ := by
  apply ne_topExponent
  have := Nat.one_lt_two_pow (Nat.pos_iff_ne_zero.mp spec.he)
  simpa using this

theorem isNaN_unpack_pack {x : UnpackedFloat} (number : x.isNaN = false) :
    (unpack spec (pack spec x)).isNaN = false := by
  fun_cases pack spec x with
  | case1 => cases number
  | case2 sign => exact isNaN_unpack_of_zero (by simp [packedInfinity])
  | case3 sign => exact isNaN_unpack_of_zero (by simp [packedZero])
  | case4 sign m e positive biased top => exact isNaN_unpack_of_zero (by simp [packedInfinity])
  | case5 sign m e positive bits biased below normal =>
      apply isNaN_unpack_of_ne_top
      rw [unpackExponent_packComponents]
      apply ne_topExponent
      rw [BitVec.toNat_ofNat, Nat.mod_eq_of_lt (by omega)]
      omega
  | case6 sign m e positive bits biased below subnormal =>
      apply isNaN_unpack_of_ne_top
      rw [unpackExponent_packComponents]
      exact zero_ne_topExponent

theorem isNaN_roundWithAccuracy (spec : Format) (sign : UnpackedFloat.Sign) (mantissa : Nat)
    (exponent : Int) (accuracy : Accuracy) :
    (roundWithAccuracy spec sign mantissa exponent accuracy).isNaN = false := by
  unfold roundWithAccuracy
  dsimp only
  generalize ExtendedMantissa.mantissa _ = final
  by_cases zero : final = 0
  · rw [dif_pos zero]
    rfl
  · rw [dif_neg zero]
    rfl

theorem isNaN_ofNat (spec : Format) (n : Nat) : (UnpackedFloat.ofNat spec n).isNaN = false := by
  unfold UnpackedFloat.ofNat UnpackedFloat.ofInt UnpackedFloat.normalize
  split
  · exact isNaN_roundWithAccuracy ..
  · rfl
  · exact isNaN_roundWithAccuracy ..

/-- What may divide anything, and multiply even what is infinite. -/
def isFiniteNonzero : UnpackedFloat → Bool
  | .finite .. => true
  | _ => false

theorem isNaN_mul {x y : UnpackedFloat} (number : x.isNaN = false)
    (other : isFiniteNonzero y = true) (spec : Format) : (mul spec x y).isNaN = false := by
  cases y <;> cases other
  cases x with
  | notANumber => cases number
  | infinity => rfl
  | zero => rfl
  | finite => exact isNaN_roundWithAccuracy ..

theorem isNaN_div {x y : UnpackedFloat} (number : x.isNaN = false)
    (other : isFiniteNonzero y = true) (spec : Format) : (div spec x y).isNaN = false := by
  cases y <;> cases other
  cases x with
  | notANumber => cases number
  | infinity => rfl
  | zero => rfl
  | finite => exact isNaN_roundWithAccuracy ..

theorem isNaN_neg {x : UnpackedFloat} (number : x.isNaN = false) : x.neg.isNaN = false := by
  cases x with
  | notANumber => cases number
  | infinity => rfl
  | zero => rfl
  | finite => rfl

theorem isNaN_ofScientific (spec : Format) (m : Nat) (e : Int) :
    (UnpackedFloat.ofScientific spec m e).isNaN = false := by
  fun_cases UnpackedFloat.ofScientific spec m e with
  | case1 => rfl
  | case2 => rfl
  | case3 => rfl
  | case4 => exact isNaN_mul rfl rfl spec
  | case5 => exact isNaN_div rfl rfl spec

end UnpackedDouble

open UnpackedDouble

theorem isNaN_pack {x : UnpackedFloat} (number : x.isNaN = false) :
    (Float.ofModel (.pack x)).isNaN = false :=
  isNaN_unpack_pack number

theorem isFiniteNonzero_power {e : Nat} (small : e < Float.exactlyRepresentablePowersOfTen.size) :
    isFiniteNonzero Float.exactlyRepresentablePowersOfTen[e].toModel.unpack = true := by
  have each : Float.exactlyRepresentablePowersOfTen.all
      (fun power => isFiniteNonzero power.toModel.unpack) = true := by decide +kernel
  exact Array.all_eq_true.mp each e small

theorem isNaN_float_ofScientific (m : Nat) (s : Bool) (e : Nat) :
    (Float.ofScientific m s e).isNaN = false := by
  unfold Float.ofScientific
  split
  · rename_i small
    have whole : m.toUInt64.toFloat.isNaN = false := isNaN_pack (isNaN_ofNat _ _)
    split
    · exact isNaN_pack (isNaN_div whole (isFiniteNonzero_power _) _)
    · exact isNaN_pack (isNaN_mul whole (isFiniteNonzero_power _) _)
  · exact isNaN_pack (isNaN_ofScientific _ _ _)

theorem isNaN_neg {x : Float} (number : x.isNaN = false) : (-x).isNaN = false :=
  isNaN_pack (UnpackedDouble.isNaN_neg number)

theorem Decimal.isNaN_toFloat (d : Decimal) : d.toFloat.isNaN = false := by
  unfold toFloat
  split
  · decide +kernel
  split
  · decide +kernel
  split
  · decide +kernel
  · exact isNaN_float_ofScientific _ _ _

theorem Numeral.isNaN_toFloat (numeral : Numeral) : numeral.toFloat.isNaN = false := by
  unfold toFloat Decimal.toSignedFloat
  split
  · exact isNaN_neg numeral.decimal.isNaN_toFloat
  · exact numeral.decimal.isNaN_toFloat

theorem Numeral.digitsValue_eq (digits : List Char) :
    digitsValue digits = Nat.ofDigitChars 10 digits 0 :=
  Nat.ofDigitChars_eq_foldl.symm

end Compositor
