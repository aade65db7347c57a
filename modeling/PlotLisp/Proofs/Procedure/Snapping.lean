import PlotLisp.Proofs.Evaluation.Outcomes
import PlotLisp.Proofs.Number.Parts
import PlotLisp.Proofs.Procedure.Promotion

/-!
# Snapping

Division, powers, logarithms and the functions of an angle give complex results without parts that are
small, whichever way they come to them, and so do roots of complex numbers. The root of a negative real
number is given as it comes out, small or not.

* `IsSnapped` is said of a double, of a complex number by its parts, and of a result by its head.
* `squareRoot_yields` tells the roots that are snapped from those that are not.
* `complex_results_are_snapped` is the conclusion for all procedures in `Builtin.snapping`.
-/

namespace PlotLisp

open Float.Model

/-! ## Small numbers -/

/-- Zero, or nothing that may be taken for it. -/
def IsSnapped (x : Float) : Prop := x = 0.0 ∨ ¬ x.abs < 1e-15

theorem isSnapped_snap (x : Float) : IsSnapped (Scalar.snap x) := by
  unfold Scalar.snap
  split
  · exact .inl rfl
  · rename_i h_large
    exact .inr h_large

/-- What is no number is not small. -/
theorem isSnapped_of_isNaN {x : Float} (h_nan : x.isNaN = true) : IsSnapped x := by
  rw [isNaN_iff_parts] at h_nan
  have h_size : parts x.abs = .notANumber := by
    rw [parts_abs, h_nan]
    exact repacked_notANumber
  refine .inr fun h_small => ?_
  rw [lt_iff_parts, h_size] at h_small
  cases h_small

/-- Only what is no number is neither negative nor not. -/
theorem isNaN_of_not_ordered {x : Float} (h_not_nonnegative : ¬ x ≥ 0.0) (h_not_negative : ¬ x < 0.0) :
    x.isNaN = true := by
  have h_zero : parts 0.0 = .zero .positive := rfl
  have h_nonnegative := mt le_iff_parts.mpr h_not_nonnegative
  have h_negative := mt lt_iff_parts.mpr h_not_negative
  rw [h_zero] at h_nonnegative h_negative
  rw [isNaN_eq_parts]
  cases h_x : parts x with
  | notANumber => rfl
  | zero sign => rw [h_x] at h_nonnegative; exact absurd rfl h_nonnegative
  | infinity sign =>
    rw [h_x] at h_nonnegative h_negative
    cases sign with
    | positive => exact absurd rfl h_nonnegative
    | negative => exact absurd rfl h_negative
  | finite sign mantissa exponent h_pos =>
    rw [h_x] at h_nonnegative h_negative
    cases sign with
    | positive => exact absurd rfl h_nonnegative
    | negative => exact absurd rfl h_negative

/-- No root makes a number of what is none. -/
theorem isNaN_sqrt_neg {x : Float} (h_nan : x.isNaN = true) : (-x).sqrt.isNaN = true := by
  rw [isNaN_iff_parts] at h_nan ⊢
  have h_neg : parts (-x) = .notANumber := by
    rw [parts_neg, h_nan]
    exact repacked_notANumber
  rw [parts_sqrt, h_neg]
  exact repacked_notANumber

/-! ## Complex numbers -/

/-- Both parts are zero or large enough. -/
def ComplexNumber.IsSnapped (z : ComplexNumber) : Prop :=
  PlotLisp.IsSnapped z.re ∧ PlotLisp.IsSnapped z.im

/-- A complex number at the head has no small parts. -/
def Expression.IsSnapped (e : Expression) : Prop := ∀ z, e.head = .complex z → z.IsSnapped

namespace Scalar

theorem isSnapped_real (x : Float) : (Scalar.real x).expression.IsSnapped := by
  rintro z ⟨⟩

theorem isSnapped_complex {z : ComplexNumber} (h_snapped : z.IsSnapped) :
    (Scalar.complex z).expression.IsSnapped := by
  intro w h_head
  cases h_head
  exact h_snapped

theorem isSnapped_snapped (s : Scalar) : s.snapped.expression.IsSnapped := by
  cases s with
  | real x => exact isSnapped_real x
  | complex z => exact isSnapped_complex ⟨isSnapped_snap z.re, isSnapped_snap z.im⟩

/-- The power of a complex zero is zero or one, and neither is small. -/
theorem isSnapped_power (base exponent : Scalar) : (base.power exponent).expression.IsSnapped := by
  have h_complex (z w : ComplexNumber) :
      (if z.isZero then Scalar.complex ⟨if w.isZero then 1.0 else 0.0, 0.0⟩
        else (Scalar.complex (z.pow w)).snapped).expression.IsSnapped := by
    split
    · refine isSnapped_complex ⟨?_, .inl rfl⟩
      show PlotLisp.IsSnapped (if w.isZero then 1.0 else 0.0)
      split
      · exact .inr (by decide +kernel)
      · exact .inl rfl
    · exact isSnapped_snapped _
  cases base with
  | real x =>
    cases exponent with
    | real y => exact isSnapped_real _
    | complex w => exact h_complex (.ofReal x) w
  | complex z => exact h_complex z exponent.toComplex

end Scalar

/-! ## Procedures -/

/-- Unless it is an error, the outcome has `Q`. -/
abbrev Yields (Q : Expression → Prop) (outcome : Outcome) : Prop := Fulfils (fun _ => True) Q outcome

theorem yields_of_scalar {operation : String} {arg : Expression} {next : Scalar → Outcome}
    {Q : Expression → Prop} (h_next : ∀ s, Yields Q (next s)) :
    Yields Q (scalarOf operation arg >>= next) := by
  rcases scalarOf operation arg with error | s
  · trivial
  · exact h_next s

theorem divideBy_yields_snapped (dividend divisor : Scalar) :
    Yields Expression.IsSnapped (divideBy dividend divisor) := by
  unfold divideBy
  split
  · trivial
  · exact Scalar.isSnapped_snapped _

theorem logarithm_yields_snapped (arg : Expression) :
    Yields Expression.IsSnapped (logarithm arg) := by
  refine yields_of_scalar fun s => ?_
  cases s with
  | real x =>
    dsimp only
    split
    · trivial
    · exact Scalar.isSnapped_real _
  | complex z => exact Scalar.isSnapped_snapped (.complex z.log)

theorem elementary_yields_snapped (operation : String) (onReal : Float → Float)
    (onComplex : ComplexNumber → ComplexNumber) (arg : Expression) :
    Yields Expression.IsSnapped (elementary operation onReal onComplex arg) := by
  refine yields_of_scalar fun s => ?_
  cases s with
  | real x => exact Scalar.isSnapped_real _
  | complex z => exact Scalar.isSnapped_snapped (.complex (onComplex z))

/-- The result is the root of a negative real number, as it comes out. -/
def IsImaginaryRoot (arg result : Expression) : Prop :=
  ∃ x, arg.head = .number x ∧ x < 0.0 ∧ result = .complex ⟨0.0, (-x).sqrt⟩

theorem squareRoot_yields (arg : Expression) :
    Yields (fun result => result.IsSnapped ∨ IsImaginaryRoot arg result) (squareRoot arg) := by
  unfold squareRoot scalarOf
  cases h_head : arg.head with
  | number x =>
    show (if x ≥ 0.0 then Scalar.real x.sqrt else .complex ⟨0.0, (-x).sqrt⟩).expression.IsSnapped ∨
      IsImaginaryRoot arg (if x ≥ 0.0 then Scalar.real x.sqrt else .complex ⟨0.0, (-x).sqrt⟩).expression
    by_cases h_nonnegative : x ≥ 0.0
    · rw [if_pos h_nonnegative]
      exact .inl (Scalar.isSnapped_real _)
    rw [if_neg h_nonnegative]
    by_cases h_negative : x < 0.0
    · exact .inr ⟨x, h_head, h_negative, rfl⟩
    · have h_nan := isNaN_of_not_ordered h_nonnegative h_negative
      have h_root := isSnapped_of_isNaN (isNaN_sqrt_neg h_nan)
      exact .inl (Scalar.isSnapped_complex ⟨.inl rfl, h_root⟩)
  | complex z => exact .inl (Scalar.isSnapped_snapped (.complex z.sqrt))
  | _ => trivial

/-- The procedures that snap complex results. -/
def Builtin.snapping : List Builtin := [.divide, .sqrt, .power, .ln, .sin, .cos, .tan]

theorem Builtin.call_yields {procedure : Builtin} (h_procedure : procedure ∈ snapping)
    (args : List Expression) :
    Yields (fun result => result.IsSnapped ∨
      procedure = .sqrt ∧ ∃ arg, args = [arg] ∧ IsImaginaryRoot arg result) (procedure.call args) := by
  by_cases h_count : procedure.arity.accepts args.length = true
  swap
  · rw [call, if_neg h_count]
    trivial
  have h_single (h_one : procedure.arity = .exactly 1) : ∃ arg, args = [arg] := by
    rw [h_one] at h_count
    exact List.length_eq_one_iff.mp (beq_iff_eq.mp h_count)
  simp only [snapping, List.mem_cons, List.not_mem_nil, or_false] at h_procedure
  rcases h_procedure with rfl | rfl | rfl | rfl | rfl | rfl | rfl
  · rcases eq_of_accepts_between h_count with ⟨x, rfl⟩ | ⟨x, y, rfl⟩
    · show Yields _ (reciprocal x)
      exact yields_of_scalar fun s => (divideBy_yields_snapped _ s).mono fun _ => .inl
    · show Yields _ (quotient x y)
      exact yields_of_scalar fun s => yields_of_scalar fun t =>
        (divideBy_yields_snapped s t).mono fun _ => .inl
  · obtain ⟨arg, rfl⟩ := h_single rfl
    show Yields _ (squareRoot arg)
    exact (squareRoot_yields arg).mono fun result h_result =>
      h_result.imp_right fun h_root => ⟨rfl, arg, rfl, h_root⟩
  · obtain ⟨x, y, rfl⟩ := eq_of_accepts_two h_count
    show Yields _ (PlotLisp.power x y)
    exact yields_of_scalar fun s => yields_of_scalar fun t => .inl (Scalar.isSnapped_power s t)
  · obtain ⟨arg, rfl⟩ := h_single rfl
    exact (logarithm_yields_snapped arg).mono fun _ => .inl
  · obtain ⟨arg, rfl⟩ := h_single rfl
    exact (elementary_yields_snapped _ _ _ arg).mono fun _ => .inl
  · obtain ⟨arg, rfl⟩ := h_single rfl
    exact (elementary_yields_snapped _ _ _ arg).mono fun _ => .inl
  · obtain ⟨arg, rfl⟩ := h_single rfl
    exact (elementary_yields_snapped _ _ _ arg).mono fun _ => .inl

/-! ## Results -/

/-- Whatever mixture of arguments a complex result has come from, each of its parts is zero or not below
`1e-15` in size, except that the square root of a negative real number is given as it comes out. -/
theorem complex_results_are_snapped {procedure : Builtin} {args : List Expression}
    {result : Expression} {z : ComplexNumber} (h_procedure : procedure ∈ Builtin.snapping)
    (h_call : procedure.call args = .ok result) (h_head : result.head = .complex z) :
    (z.re = 0.0 ∨ ¬ z.re.abs < 1e-15) ∧ (z.im = 0.0 ∨ ¬ z.im.abs < 1e-15) ∨
      procedure = .sqrt ∧ ∃ arg x, args = [arg] ∧ arg.head = .number x ∧ x < 0.0 ∧
        z = ⟨0.0, (-x).sqrt⟩ := by
  have h_yields := Builtin.call_yields h_procedure args
  rw [h_call] at h_yields
  refine Or.imp (fun h_snapped => h_snapped z h_head) ?_ h_yields
  rintro ⟨h_sqrt, arg, h_args, x, h_number, h_negative, rfl⟩
  cases h_head
  exact ⟨h_sqrt, arg, x, h_args, h_number, h_negative, rfl⟩

/-- A small real part is gone from a quotient by a real number. -/
theorem quotient_without_small_part :
    Builtin.divide.call [.complex ⟨1e-20, 2.0⟩, .number 2.0] = .ok (.complex ⟨0.0, 1.0⟩) ∧
    (((0.0 : Float) = 0.0 ∨ ¬ (0.0 : Float).abs < 1e-15) ∧
      ((1.0 : Float) = 0.0 ∨ ¬ (1.0 : Float).abs < 1e-15) ∨
      Builtin.divide = .sqrt ∧ ∃ arg x,
        [Expression.complex ⟨1e-20, 2.0⟩, .number 2.0] = [arg] ∧ arg.head = .number x ∧ x < 0.0 ∧
        (⟨0.0, 1.0⟩ : ComplexNumber) = ⟨0.0, (-x).sqrt⟩) :=
  have h_call : Builtin.divide.call [.complex ⟨1e-20, 2.0⟩, .number 2.0]
    = .ok (.complex ⟨0.0, 1.0⟩) := rfl
  ⟨h_call, complex_results_are_snapped (by decide) h_call rfl⟩

/-- The root of `-1e-40` has an imaginary part that is below `1e-15`, and not zero. -/
theorem small_root_is_kept :
    ∃ z, Builtin.sqrt.call [.number (-1e-40)] = .ok (.complex z) ∧
      ¬ (z.im = 0.0 ∨ ¬ z.im.abs < 1e-15) := by
  refine ⟨⟨0.0, (-(-1e-40 : Float)).sqrt⟩, rfl, ?_⟩
  decide +kernel

end PlotLisp
