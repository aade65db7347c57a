import Mathlib
import PlotLisp.Number.Numeral

/-!
# Parts of numbers

Arithmetic takes a double for its parts: a sign, a mantissa and an exponent, or what it is else. What
comes out is rounded, packed into bits and read off them again.

* `parts` are those of a double, and `repacked` are parts that have been through bits.
* Packing makes no number of what is none and the other way round (`isNaN_repacked`), and it changes
  nothing of what has been read off bits (`repacked_parts`).
* A sum of a finite number and any other is a number (`isNaN_add`), and so is a product with a finite
  number that is not zero (`isNaN_mul_finite`). The natural numbers are numbers (`isNaN_ofNat`).
* What is below a natural number is cut to a smaller one (`toNat_toUInt64_lt`).
-/

namespace PlotLisp

open Float.Model
open Float.Model.UnpackedFloat (Sign unpackExponent unpackMantissa)

/-- What a double is in parts. -/
def parts (x : Float) : UnpackedFloat := x.toModel.unpack

/-- Parts as they are read off the bits that they are packed into. -/
def repacked (u : UnpackedFloat) : UnpackedFloat :=
  UnpackedFloat.unpack .binary64 (UnpackedFloat.pack .binary64 u)

/-! ## Operations -/

theorem parts_add (x y : Float) :
    parts (x + y) = repacked (UnpackedFloat.add .binary64 (parts x) (parts y)) := rfl

theorem parts_sub (x y : Float) :
    parts (x - y) = repacked (UnpackedFloat.sub .binary64 (parts x) (parts y)) := rfl

theorem parts_mul (x y : Float) :
    parts (x * y) = repacked (UnpackedFloat.mul .binary64 (parts x) (parts y)) := rfl

theorem parts_div (x y : Float) :
    parts (x / y) = repacked (UnpackedFloat.div .binary64 (parts x) (parts y)) := rfl

theorem parts_neg (x : Float) : parts (-x) = repacked (parts x).neg := rfl

theorem parts_abs (x : Float) : parts x.abs = repacked (parts x).abs := rfl

theorem parts_sqrt (x : Float) :
    parts x.sqrt = repacked (UnpackedFloat.sqrt .binary64 (parts x)) := rfl

theorem isNaN_eq_parts (x : Float) : x.isNaN = (parts x).isNaN := rfl

theorem isNaN_iff_parts {x : Float} : x.isNaN = true ↔ parts x = .notANumber :=
  UnpackedFloat.isNaN_iff

theorem le_iff_parts {x y : Float} : x ≤ y ↔ (parts x).le (parts y) = true :=
  decide_eq_true_iff.trans Iff.rfl

theorem lt_iff_parts {x y : Float} : x < y ↔ (parts x).lt (parts y) = true :=
  decide_eq_true_iff.trans Iff.rfl

/-! ## Packing -/

section Packing

variable {bits : BitVec Format.binary64.numBits}

/-- Only the greatest exponent is kept for what is no number. -/
theorem isNaN_unpack_of_exponent_ne (h_exponent : unpackExponent bits ≠ -1#11) :
    (UnpackedFloat.unpack .binary64 bits).isNaN = false := by
  simp only [UnpackedFloat.unpack]
  rw [if_neg h_exponent]
  split
  · split
    · rfl
    · rfl
  · rfl

theorem repacked_notANumber : repacked .notANumber = .notANumber := UnpackedFloat.unpack_packedNaN

theorem repacked_infinity (sign : Sign) : repacked (.infinity sign) = .infinity sign := by
  cases sign <;> rfl

theorem repacked_zero (sign : Sign) : repacked (.zero sign) = .zero sign :=
  UnpackedFloat.unpack_packedZero

theorem isNaN_repacked (u : UnpackedFloat) : (repacked u).isNaN = u.isNaN := by
  cases u with
  | notANumber => rw [repacked_notANumber]
  | infinity sign => rw [repacked_infinity]
  | zero sign => rw [repacked_zero]
  | finite sign mantissa exponent h_pos =>
    rw [repacked, UnpackedFloat.pack]
    dsimp only
    split
    · cases sign <;> rfl
    · rename_i h_range
      split
      · apply isNaN_unpack_of_exponent_ne
        rw [UnpackedFloat.unpackExponent_packComponents]
        intro h_top
        have h_value := congrArg BitVec.toNat h_top
        rw [BitVec.toNat_ofNat, Nat.mod_eq_of_lt (by omega)] at h_value
        exact h_range (Nat.le_of_eq (congrArg (· + 1) h_value).symm)
      · apply isNaN_unpack_of_exponent_ne
        rw [UnpackedFloat.unpackExponent_packComponents]
        decide

/-- The mantissa of what has been read off bits has as many bits as there are for it. -/
theorem mantissa_lt_of_unpack {sign : Sign} {mantissa : Nat} {exponent : Int}
    {h_pos : 0 < mantissa}
    (h_unpack : UnpackedFloat.unpack .binary64 bits = .finite sign mantissa exponent h_pos) :
    mantissa < 2 ^ 53 := by
  have h_stored : (unpackMantissa bits).toNat < 2 ^ 52 := (unpackMantissa bits).isLt
  have h_implicit : (1#1 ++ unpackMantissa bits).toNat < 2 ^ 53 := (1#1 ++ unpackMantissa bits).isLt
  simp only [UnpackedFloat.unpack] at h_unpack
  split at h_unpack
  · split at h_unpack <;> cases h_unpack
  · split at h_unpack
    · split at h_unpack
      · cases h_unpack
      · cases h_unpack
        omega
    · cases h_unpack
      omega

/-- What has been read off bits is packed into the same bits again. -/
theorem repacked_parts (x : Float) : repacked (parts x) = parts x :=
  congrArg (UnpackedFloat.unpack .binary64) (UnpackedFloat.pack_unpack_of_valid x.toModel.valid)

end Packing

/-! ## Results that are numbers -/

section IsNaN

variable (spec : Format)

theorem isNaN_roundWithAccuracy (sign : Sign) (mantissa : Nat) (exponent : Int)
    (accuracy : UnpackedFloat.Accuracy) :
    (UnpackedFloat.roundWithAccuracy spec sign mantissa exponent accuracy).isNaN = false := by
  unfold UnpackedFloat.roundWithAccuracy
  dsimp only
  split
  · rfl
  · rfl

theorem isNaN_normalize (mantissa exponent : Int) (zeroSign : Sign) :
    (UnpackedFloat.normalize spec mantissa exponent zeroSign).isNaN = false := by
  unfold UnpackedFloat.normalize
  split
  · exact isNaN_roundWithAccuracy spec _ _ _ _
  · rfl
  · exact isNaN_roundWithAccuracy spec _ _ _ _

/-- Nothing but numbers gives a number. -/
def IsStrict (operation : UnpackedFloat → UnpackedFloat → UnpackedFloat) : Prop :=
  ∀ u v, (operation u v).isNaN = false → u.isNaN = false ∧ v.isNaN = false

theorem isStrict_add : IsStrict (UnpackedFloat.add spec) := by
  intro u v h_number
  cases u <;> cases v <;> first | exact ⟨rfl, rfl⟩ | cases h_number

theorem isStrict_sub : IsStrict (UnpackedFloat.sub spec) := by
  intro u v h_number
  cases u <;> cases v <;> first | exact ⟨rfl, rfl⟩ | cases h_number

theorem isStrict_div : IsStrict (UnpackedFloat.div spec) := by
  intro u v h_number
  cases u <;> cases v <;> first | exact ⟨rfl, rfl⟩ | cases h_number

/-- A finite number can be added to whatever is a number. -/
theorem isNaN_add {u v : UnpackedFloat} (h_finite : u.isFinite = true)
    (h_number : v.isNaN = false) : (UnpackedFloat.add spec u v).isNaN = false := by
  cases u with
  | notANumber => cases h_finite
  | infinity sign => cases h_finite
  | zero sign =>
    cases v with
    | notANumber => cases h_number
    | zero sign' => cases sign <;> cases sign' <;> rfl
    | _ => rfl
  | finite sign mantissa exponent h_pos =>
    cases v with
    | notANumber => cases h_number
    | finite sign' mantissa' exponent' h_pos' => exact isNaN_normalize spec _ _ _
    | _ => rfl

/-- Whatever is a number can be multiplied by a finite one that is not zero. -/
theorem isNaN_mul_finite {u : UnpackedFloat} (h_number : u.isNaN = false) (sign : Sign)
    (mantissa : Nat) (exponent : Int) (h_pos : 0 < mantissa) :
    (UnpackedFloat.mul spec u (.finite sign mantissa exponent h_pos)).isNaN = false := by
  cases u with
  | notANumber => cases h_number
  | finite sign' mantissa' exponent' h_pos' => exact isNaN_roundWithAccuracy spec _ _ _ _
  | _ => rfl

theorem isNaN_ofScientific (digits : Nat) (power : Int) :
    (UnpackedFloat.ofScientific spec digits power).isNaN = false := by
  unfold UnpackedFloat.ofScientific
  split
  · rfl
  split
  · rfl
  split
  · rfl
  split
  · exact isNaN_roundWithAccuracy spec _ _ _ _
  · exact isNaN_roundWithAccuracy spec _ _ _ _

end IsNaN

theorem isNaN_ofNat (n : Nat) : (Float.ofNat n).isNaN = false := by
  show (Float.ofScientific n false 0).isNaN = false
  unfold Float.ofScientific
  split
  · refine (isNaN_repacked _).trans ?_
    have h_one : parts (Float.ofBits 0x3FF0000000000000)
        = .finite .positive (2 ^ 52) (-52) (by decide) := rfl
    show (UnpackedFloat.mul .binary64 (parts n.toUInt64.toFloat)
      (parts (Float.ofBits 0x3FF0000000000000))).isNaN = false
    rw [h_one]
    apply isNaN_mul_finite
    exact (isNaN_repacked _).trans (isNaN_normalize _ _ _ _)
  · exact (isNaN_repacked _).trans (isNaN_ofScientific _ _ _)

/-! ## Infinities -/

/-- No number is above infinity. -/
theorem unpacked_le_infinity {u : UnpackedFloat} (h_number : u.isNaN = false) :
    u.le (.infinity .positive) = true := by
  cases u with
  | notANumber => cases h_number
  | infinity sign => cases sign <;> rfl
  | zero sign => rfl
  | finite sign mantissa exponent h_pos => rfl

/-- A number above negative infinity is infinitely far from it. -/
theorem unpacked_sub_negative_infinity (spec : Format) {u : UnpackedFloat}
    (h_number : u.isNaN = false) (h_above : ¬ u.le (.infinity .negative) = true) :
    UnpackedFloat.sub spec u (.infinity .negative) = .infinity .positive := by
  cases u with
  | notANumber => cases h_number
  | infinity sign =>
    cases sign with
    | positive => rfl
    | negative => exact absurd rfl h_above
  | zero sign => rfl
  | finite sign mantissa exponent h_pos => rfl

/-! ## Whole parts -/

open UnpackedFloat (ExtendedMantissa) in
theorem mantissa_shiftRight (m : ExtendedMantissa) (n : Nat) :
    (m >>> n).mantissa = m.mantissa / 2 ^ n := by
  induction n with
  | zero => exact (Nat.div_one _).symm
  | succ n ih =>
    show (m >>> n).mantissa / 2 = m.mantissa / 2 ^ (n + 1)
    rw [ih, Nat.div_div_eq_div_mul, Nat.pow_succ]

theorem roundToInt_of_exponent_nonpos (sign : Sign) (mantissa k : Nat) :
    UnpackedFloat.roundToInt sign mantissa (-k : Int) = sign.apply (mantissa / 2 ^ k : Nat) := by
  have h_up : (-(k : Int) - 0).toNat = 0 := by omega
  have h_down : (0 - (-(k : Int) - (0 : Nat))).toNat = k := by omega
  simp only [UnpackedFloat.roundToInt, UnpackedFloat.decreaseExponent, h_up,
    UnpackedFloat.shiftToExponent, h_down, mantissa_shiftRight]
  rfl

theorem toNat_ofNatClamp_le (n : Nat) : (UInt64.ofNatClamp n).toNat ≤ n := by
  unfold UInt64.ofNatClamp
  split
  · exact le_of_eq UInt64.toNat_ofNatLT
  · rename_i h_size
    rw [UInt64.toNat_ofNatLT]
    omega

/-- What is below a natural number is cut to a smaller one. -/
theorem toNat_toUInt64_lt {x bound : Float} {n k : Nat} {h_pos : 0 < n * 2 ^ k}
    (h_bound : parts bound = .finite .positive (n * 2 ^ k) (-k) h_pos)
    (h_normal : 2 ^ 52 ≤ n * 2 ^ k) (h_number : x.isNaN = false) (h_below : ¬ bound ≤ x) :
    x.toUInt64.toNat < n := by
  have h_pos_n : 0 < n := Nat.pos_of_mul_pos_right h_pos
  refine Nat.lt_of_le_of_lt (toNat_ofNatClamp_le _) ?_
  change (parts x).isNaN = false at h_number
  rw [le_iff_parts, h_bound] at h_below
  show ((parts x).toInt 0 (UInt64.size - 1)).toNat < n
  cases h_parts : parts x with
  | notANumber => rw [h_parts] at h_number; cases h_number
  | zero sign => exact h_pos_n
  | infinity sign =>
    cases sign with
    | negative => exact h_pos_n
    | positive => rw [h_parts] at h_below; exact absurd rfl h_below
  | finite sign mantissa exponent h_mantissa =>
    have h_width : mantissa < 2 ^ 53 := mantissa_lt_of_unpack h_parts
    cases sign with
    | negative =>
      show (-((_ : Nat) : Int)).toNat < n
      rwa [Int.toNat_neg_natCast]
    | positive =>
      -- the bound has the greater exponent, or the same one and the greater mantissa
      have h_order : exponent < -k ∨ exponent = -k ∧ mantissa < n * 2 ^ k := by
        rw [h_parts] at h_below
        change ¬ ((compare (-k : Int) exponent).then (compare (n * 2 ^ k) mantissa)).isLE = true
          at h_below
        rwa [← Ordering.ne_gt_iff_isLE, not_not, Ordering.then_eq_gt, Int.compare_eq_gt,
          Int.compare_eq_eq, Nat.compare_eq_gt, eq_comm] at h_below
      obtain ⟨j, rfl⟩ : ∃ j : Nat, exponent = -j := ⟨exponent.natAbs, by omega⟩
      show (UnpackedFloat.roundToInt .positive mantissa (-j : Int)).toNat < n
      rw [roundToInt_of_exponent_nonpos]
      show mantissa / 2 ^ j < n
      rw [Nat.div_lt_iff_lt_mul (Nat.two_pow_pos j)]
      rcases h_order with h_exponent | ⟨h_exponent, h_mantissa⟩
      · calc mantissa < 2 * 2 ^ 52 := h_width
          _ ≤ 2 * (n * 2 ^ k) := Nat.mul_le_mul_left 2 h_normal
          _ = n * 2 ^ (k + 1) := by rw [Nat.pow_succ]; ring
          _ ≤ n * 2 ^ j := Nat.mul_le_mul_left n (Nat.pow_le_pow_right Nat.two_pos (by omega))
      · obtain rfl : j = k := by omega
        exact h_mantissa

end PlotLisp
