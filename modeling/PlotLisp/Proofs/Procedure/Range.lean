import PlotLisp.Procedure.Builtin
import PlotLisp.Proofs.Number.Parts

/-!
# Ranges

`range` settles how many steps it takes by a quotient, and each element by a product of its own. In
between stand comparisons, and a comparison with what is no number fails. What they leave over is this:

* `Admits` is that all comparisons let a range pass, and `rangeFrom_eq` that a range is made then.
* The step is a positive finite number, or positive infinity (`Admits.step_cases`).
* By a finite step one starts at a finite number (`Admits.isFinite_first`) and all elements are numbers.
* An infinite step is taken for reaching the end before it is taken once (`Admits.toUInt64_rangeSteps`),
  and the only element is no number, as zero times infinity is none.

`range_starts_at_first` is the conclusion.
-/

namespace PlotLisp

open Float.Model

/-- How many steps lead from the first number to the last, and by which fraction further. -/
def rangeSteps (first last step : Float) : Float := (last - first) / step + rangeTolerance

def rangeElement (first step : Float) (k : Nat) : Float := first + Float.ofNat k * step

/-- The comparisons that a range has to pass, as they come out. -/
structure Admits (first last step : Float) : Prop where
  rising : ¬ last ≤ first
  forward : ¬ step ≤ 0.0
  counted : (rangeSteps first last step).isNaN = false
  short : ¬ Float.ofNat longestRange ≤ rangeSteps first last step

/-! ## What the comparisons admit -/

section Admits

variable {first last step : Float}

theorem parts_longestRange :
    parts (Float.ofNat longestRange)
      = .finite .positive (1000000 * 2 ^ 33) (-(33 : Nat) : Int) (by decide) := rfl

theorem parts_rangeTolerance :
    parts rangeTolerance = .finite .positive 4835703278458517 (-82) (by decide) := rfl

theorem rangeFrom_eq (first last step : Float) :
    (∃ error, rangeFrom first last step = .error error) ∨
    Admits first last step ∧ rangeFrom first last step
      = .ok (.list (((List.range ((rangeSteps first last step).toUInt64.toNat + 1)).map
          (rangeElement first step)).map .number)) := by
  unfold rangeFrom
  split
  · exact .inl ⟨_, rfl⟩
  rename_i h_rising
  split
  · exact .inl ⟨_, rfl⟩
  rename_i h_forward
  dsimp only
  split
  · exact .inl ⟨_, rfl⟩
  rename_i h_steps
  rw [Bool.or_eq_true, decide_eq_true_iff, not_or, Bool.not_eq_true] at h_steps
  rw [List.map_map]
  exact .inr ⟨⟨h_rising, h_forward, h_steps.1, h_steps.2⟩, rfl⟩

theorem Admits.length_le (h_admits : Admits first last step) :
    (rangeSteps first last step).toUInt64.toNat + 1 ≤ longestRange :=
  toNat_toUInt64_lt parts_longestRange (by decide) h_admits.counted h_admits.short

/-- Without a quotient there is no counting. -/
theorem Admits.isNaN_quotient (h_admits : Admits first last step) :
    (UnpackedFloat.div .binary64 (parts (last - first)) (parts step)).isNaN = false := by
  have h_counted := h_admits.counted
  rw [isNaN_eq_parts, rangeSteps, parts_add, isNaN_repacked] at h_counted
  have h_quotient := (isStrict_add _ _ _ h_counted).1
  rwa [parts_div, isNaN_repacked] at h_quotient

/-- What is no number does not pass, wherever it stands. -/
theorem Admits.numbers (h_admits : Admits first last step) :
    (parts first).isNaN = false ∧ (parts last).isNaN = false ∧ (parts step).isNaN = false := by
  obtain ⟨h_distance, h_step⟩ := isStrict_div _ _ _ h_admits.isNaN_quotient
  rw [parts_sub, isNaN_repacked] at h_distance
  obtain ⟨h_last, h_first⟩ := isStrict_sub _ _ _ h_distance
  exact ⟨h_first, h_last, h_step⟩

theorem Admits.step_cases (h_admits : Admits first last step) :
    parts step = .infinity .positive ∨
      ∃ mantissa exponent h_pos, parts step = .finite .positive mantissa exponent h_pos := by
  have h_number := h_admits.numbers.2.2
  have h_forward := mt le_iff_parts.mpr h_admits.forward
  generalize parts step = u at h_number h_forward
  cases u with
  | notANumber => cases h_number
  | zero sign => exact absurd rfl h_forward
  | infinity sign =>
    cases sign with
    | positive => exact .inl rfl
    | negative => exact absurd rfl h_forward
  | finite sign mantissa exponent h_pos =>
    cases sign with
    | positive => exact .inr ⟨mantissa, exponent, h_pos, rfl⟩
    | negative => exact absurd rfl h_forward

/-- An infinite distance takes more steps than there may be. -/
theorem Admits.distance_ne_infinity (h_admits : Admits first last step) {mantissa : Nat}
    {exponent : Int} {h_pos : 0 < mantissa}
    (h_step : parts step = .finite .positive mantissa exponent h_pos) :
    parts (last - first) ≠ .infinity .positive := by
  intro h_distance
  have h_quotient : parts ((last - first) / step) = .infinity .positive := by
    rw [parts_div, h_distance, h_step]
    exact repacked_infinity .positive
  have h_steps : parts (rangeSteps first last step) = .infinity .positive := by
    rw [rangeSteps, parts_add, h_quotient, parts_rangeTolerance]
    exact repacked_infinity .positive
  apply h_admits.short
  rw [le_iff_parts, h_steps, parts_longestRange]
  rfl

/-- Nothing rises from infinity, and from below all numbers there is an infinite distance. -/
theorem Admits.isFinite_first (h_admits : Admits first last step) {mantissa : Nat} {exponent : Int}
    {h_pos : 0 < mantissa} (h_step : parts step = .finite .positive mantissa exponent h_pos) :
    (parts first).isFinite = true := by
  obtain ⟨h_first, h_last, -⟩ := h_admits.numbers
  have h_rising := mt le_iff_parts.mpr h_admits.rising
  cases h_parts : parts first with
  | notANumber => rw [h_parts] at h_first; cases h_first
  | zero sign => rfl
  | finite sign mantissa exponent h_pos => rfl
  | infinity sign =>
    rw [h_parts] at h_rising
    cases sign with
    | positive => exact absurd (unpacked_le_infinity h_last) h_rising
    | negative =>
      refine absurd ?_ (h_admits.distance_ne_infinity h_step)
      rw [parts_sub, h_parts, unpacked_sub_negative_infinity _ h_last h_rising, repacked_infinity]

/-- Whatever lies between the ends, an infinite step passes over it. -/
theorem Admits.toUInt64_rangeSteps (h_admits : Admits first last step)
    (h_step : parts step = .infinity .positive) : (rangeSteps first last step).toUInt64 = 0 := by
  have h_quotient : ∃ sign, parts ((last - first) / step) = .zero sign := by
    have h_number := h_admits.isNaN_quotient
    rw [parts_div]
    rw [h_step] at h_number ⊢
    generalize parts (last - first) = u at h_number
    cases u with
    | notANumber => cases h_number
    | infinity sign => cases h_number
    | zero sign => exact ⟨_, repacked_zero _⟩
    | finite sign mantissa exponent h_pos => exact ⟨_, repacked_zero _⟩
  obtain ⟨sign, h_quotient⟩ := h_quotient
  have h_steps : parts (rangeSteps first last step) = parts rangeTolerance := by
    rw [rangeSteps, parts_add, h_quotient, parts_rangeTolerance]
    show repacked (parts rangeTolerance) = parts rangeTolerance
    exact repacked_parts rangeTolerance
  show (parts (rangeSteps first last step)).toUInt64 = 0
  rw [h_steps]
  decide +kernel

end Admits

/-! ## Elements -/

section Elements

variable {first step : Float} {mantissa : Nat} {exponent : Int} {h_pos : 0 < mantissa}

theorem isNaN_rangeElement (h_first : (parts first).isFinite = true)
    (h_step : parts step = .finite .positive mantissa exponent h_pos) (k : Nat) :
    (rangeElement first step k).isNaN = false := by
  rw [isNaN_eq_parts, rangeElement, parts_add, isNaN_repacked]
  apply isNaN_add _ h_first
  rw [parts_mul, h_step, isNaN_repacked]
  exact isNaN_mul_finite _ (isNaN_ofNat k) _ _ _ _

/-- Nothing is added at first. -/
theorem rangeElement_zero_beq (h_first : (parts first).isFinite = true)
    (h_step : parts step = .finite .positive mantissa exponent h_pos) :
    (rangeElement first step 0 == first) = true := by
  show (parts (rangeElement first step 0)).beq (parts first) = true
  have h_nothing : parts (Float.ofNat 0 * step) = .zero .positive := by
    rw [parts_mul, h_step]
    exact repacked_zero .positive
  have h_same := repacked_parts first
  rw [rangeElement, parts_add, h_nothing]
  cases h_parts : parts first with
  | notANumber => rw [h_parts] at h_first; cases h_first
  | infinity sign => rw [h_parts] at h_first; cases h_first
  | zero sign => cases sign <;> rfl
  | finite sign mantissa exponent h_pos =>
    rw [h_parts] at h_same
    show (repacked (.finite sign mantissa exponent h_pos)).beq _ = true
    rw [h_same]
    cases sign <;> simp [UnpackedFloat.beq, UnpackedFloat.compare]

/-- Zero times infinity is no number. -/
theorem isNaN_rangeElement_zero (first : Float) (h_step : parts step = .infinity .positive) :
    (rangeElement first step 0).isNaN = true := by
  have h_product : parts (Float.ofNat 0 * step) = .notANumber := by
    rw [parts_mul, h_step]
    rfl
  rw [isNaN_eq_parts, rangeElement, parts_add, h_product, isNaN_repacked]
  refine Bool.of_not_eq_false fun h_number => ?_
  cases (isStrict_add _ _ _ h_number).2

end Elements

/-! ## Ranges -/

/-- Whatever three numbers are given, finite or not: there is an error, or a list of numbers that has at
least one and not too many. Unless the step is infinite, all elements are numbers and the first of them
is the one to start from. By an infinite step the only element is no number. -/
theorem range_starts_at_first (first last step : Float) :
    (∃ error, Builtin.range.call [.number first, .number last, .number step] = .error error) ∨
    ∃ elements : List Float,
      Builtin.range.call [.number first, .number last, .number step]
        = .ok (.list (elements.map .number)) ∧
      1 ≤ elements.length ∧ elements.length ≤ longestRange ∧
      if step.isInf then ∃ x, elements = [x] ∧ x.isNaN = true
      else (∀ x ∈ elements, x.isNaN = false) ∧ ∃ x ∈ elements.head?, (x == first) = true := by
  have h_call : Builtin.range.call [.number first, .number last, .number step]
    = rangeFrom first last step := rfl
  rw [h_call]
  refine (rangeFrom_eq first last step).imp_right fun ⟨h_admits, h_elements⟩ => ?_
  refine ⟨_, h_elements, ?_⟩
  rw [List.length_map, List.length_range]
  refine ⟨Nat.le_add_left 1 _, h_admits.length_le, ?_⟩
  show if (parts step).isInf then _ else _
  rcases h_admits.step_cases with h_step | ⟨mantissa, exponent, h_pos, h_step⟩
  · rw [h_admits.toUInt64_rangeSteps h_step, h_step]
    exact ⟨_, rfl, isNaN_rangeElement_zero first h_step⟩
  · have h_first := h_admits.isFinite_first h_step
    rw [h_step]
    constructor
    · intro x h_x
      obtain ⟨k, -, rfl⟩ := List.mem_map.mp h_x
      exact isNaN_rangeElement h_first h_step k
    · rw [List.range_succ_eq_map]
      exact ⟨_, rfl, rangeElement_zero_beq h_first h_step⟩

/-- From zero to ten by an infinite step there should be zero, and there is no number. -/
theorem range_by_infinite_step :
    Builtin.range.call [.number 0.0, .number 10.0, .number infinity]
      = .ok (.list [.number notANumber]) := rfl

end PlotLisp
