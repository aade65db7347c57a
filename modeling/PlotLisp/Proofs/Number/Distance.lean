import Mathlib
import PlotLisp.Atom

/-!
# Distances of numbers

Whether two numbers are near is settled by the size of their difference, with all its roundings. It
does not matter which of the two is subtracted from the other: the two differences are opposite before
they are rounded, and neither rounding nor the reading of the bits of a number looks at the sign before
the size is taken.
-/

namespace PlotLisp

open Float.Model

/-! ## Sizes before and after rounding -/

/-- The size of a rounded number does not depend on the sign that it is rounded with. -/
theorem abs_round (spec : Format) (sign sign' : UnpackedFloat.Sign) (mantissa : Nat)
    (exponent : Int) :
    (UnpackedFloat.round spec sign mantissa exponent).abs
      = (UnpackedFloat.round spec sign' mantissa exponent).abs := by
  unfold UnpackedFloat.round UnpackedFloat.roundWithAccuracy
  dsimp only
  split
  · rfl
  · rfl

theorem abs_normalize_neg (spec : Format) (mantissa exponent : Int)
    (zeroSign : UnpackedFloat.Sign) :
    (UnpackedFloat.normalize spec (-mantissa) exponent zeroSign).abs
      = (UnpackedFloat.normalize spec mantissa exponent zeroSign).abs := by
  unfold UnpackedFloat.normalize
  rcases lt_trichotomy mantissa 0 with h_negative | rfl | h_positive
  · rw [Int.compare_eq_lt.mpr h_negative, Int.compare_eq_gt.mpr (by omega : 0 < -mantissa)]
    exact abs_round spec _ _ _ exponent
  · rfl
  · rw [Int.compare_eq_gt.mpr h_positive, Int.compare_eq_lt.mpr (by omega : -mantissa < 0), neg_neg]
    exact abs_round spec _ _ _ exponent

/-- The two differences of two numbers have one size, rounded as they are. -/
theorem abs_unpacked_sub_comm (spec : Format) (x y : UnpackedFloat) :
    (UnpackedFloat.sub spec x y).abs = (UnpackedFloat.sub spec y x).abs := by
  cases x with
  | notANumber => cases y <;> rfl
  | infinity sign =>
    cases y with
    | infinity sign' => cases sign <;> cases sign' <;> rfl
    | _ => rfl
  | zero sign =>
    cases y with
    | zero sign' => cases sign <;> cases sign' <;> rfl
    | _ => rfl
  | finite sign mantissa exponent =>
    cases y with
    | finite sign' mantissa' exponent' =>
      -- both are brought to the smaller exponent, whatever their order
      simp only [UnpackedFloat.sub]
      rw [min_comm exponent' exponent, ← neg_sub, abs_normalize_neg]
    | _ => rfl

/-! ## Sizes in bits -/

/-- The size of what bits stand for is told by all of them but the sign. -/
theorem abs_unpack_congr {spec : Format} {bits bits' : BitVec spec.numBits}
    (h_exponent : UnpackedFloat.unpackExponent bits = UnpackedFloat.unpackExponent bits')
    (h_mantissa : UnpackedFloat.unpackMantissa bits = UnpackedFloat.unpackMantissa bits') :
    (UnpackedFloat.unpack spec bits).abs = (UnpackedFloat.unpack spec bits').abs := by
  simp only [UnpackedFloat.unpack, h_exponent, h_mantissa]
  by_cases h_top : UnpackedFloat.unpackExponent bits' = -BitVec.ofNat spec.exponentBits 1
  · rw [if_pos h_top, if_pos h_top]
    split
    · rfl
    · rfl
  · rw [if_neg h_top, if_neg h_top]
    by_cases h_bottom : UnpackedFloat.unpackExponent bits' = BitVec.ofNat spec.exponentBits 0
    · rw [if_pos h_bottom, if_pos h_bottom]
      split
      · rfl
      · rfl
    · rw [if_neg h_bottom, if_neg h_bottom]
      rfl

/-- Numbers of one size are written with the same bits but for the sign. -/
theorem abs_unpack_pack (spec : Format) (x : UnpackedFloat) :
    (UnpackedFloat.unpack spec (UnpackedFloat.pack spec x)).abs
      = (UnpackedFloat.unpack spec (UnpackedFloat.pack spec x.abs)).abs := by
  have h_signs (sign sign' : UnpackedFloat.Sign) (exponent : BitVec spec.exponentBits)
      (mantissa : BitVec spec.mantissaBitsWithoutImplicit) :
      (UnpackedFloat.unpack spec (UnpackedFloat.packComponents spec sign exponent mantissa)).abs
        = (UnpackedFloat.unpack spec
            (UnpackedFloat.packComponents spec sign' exponent mantissa)).abs := by
    apply abs_unpack_congr
    · rw [UnpackedFloat.unpackExponent_packComponents, UnpackedFloat.unpackExponent_packComponents]
    · rw [UnpackedFloat.unpackMantissa_packComponents, UnpackedFloat.unpackMantissa_packComponents]
  cases x with
  | notANumber => rfl
  | infinity sign => exact h_signs sign .positive _ _
  | zero sign => exact h_signs sign .positive _ _
  | finite sign mantissa exponent =>
    rw [UnpackedFloat.abs, UnpackedFloat.pack, UnpackedFloat.pack]
    split
    · exact h_signs sign .positive _ _
    · split
      · exact h_signs sign .positive _ _
      · exact h_signs sign .positive _ _

/-! ## Distances -/

theorem abs_difference_comm (x y : Float) : (x - y).abs = (y - x).abs := by
  show Float.ofModel (pack (UnpackedFloat.unpack .binary64 (UnpackedFloat.pack .binary64
      (UnpackedFloat.sub .binary64 x.toModel.unpack y.toModel.unpack))).abs)
    = Float.ofModel (pack (UnpackedFloat.unpack .binary64 (UnpackedFloat.pack .binary64
      (UnpackedFloat.sub .binary64 y.toModel.unpack x.toModel.unpack))).abs)
  rw [abs_unpack_pack, abs_unpacked_sub_comm, ← abs_unpack_pack]

/-- Nearness is mutual. -/
theorem Atom.near_comm (x y : Float) : near x y = near y x := by
  unfold near
  rw [abs_difference_comm]

end PlotLisp
