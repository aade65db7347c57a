import PlotLisp.Proofs.Evaluation.Likeness

/-!
# Calls with arguments that are alike

A built-in procedure that is called with values that are alike gives values that are alike, or the
same error: `Likeness.call_corresponds`. Numbers are computed from the heads of the arguments alone,
and lists and plots are made of whole arguments. `get-property` is the only procedure that looks into
the properties of an argument.
-/

namespace PlotLisp

/-! ## Arities and rules -/

/-- A procedure has a rule for every number of arguments that its arity admits. -/
theorem Builtin.exists_rule? {procedure : Builtin} {args : List Expression}
    (h_accepts : procedure.arity.accepts args.length = true) :
    ∃ outcome, procedure.rule? args = some outcome := by
  unfold Arity.accepts at h_accepts
  rcases args with _ | ⟨x, _ | ⟨y, _ | ⟨z, _ | ⟨w, rest⟩⟩⟩⟩ <;> cases procedure <;>
    first
    | exact ⟨_, rfl⟩
    | simp only [arity, List.length_cons, List.length_nil, beq_iff_eq, decide_eq_true_eq,
        Bool.and_eq_true] at h_accepts
      omega

/-! ## Arguments -/

theorem wrongKind_congr {e e' : Expression} (h_head : e.head = e'.head) (operation : String)
    (expected : Requirement) : wrongKind operation expected e = wrongKind operation expected e' := by
  simp only [wrongKind, Expression.kind, h_head]

theorem scalarOf_congr {e e' : Expression} (h_head : e.head = e'.head) (operation : String) :
    scalarOf operation e = scalarOf operation e' := by
  simp only [scalarOf, wrongKind_congr h_head, h_head]

theorem complexOf_congr {e e' : Expression} (h_head : e.head = e'.head) (operation : String) :
    complexOf operation e = complexOf operation e' := by
  simp only [complexOf, wrongKind_congr h_head, h_head]

theorem realOf_congr {e e' : Expression} (h_head : e.head = e'.head) (operation : String) :
    realOf operation e = realOf operation e' := by
  simp only [realOf, wrongKind_congr h_head, h_head]

namespace Likeness

variable {L : Likeness} {names : Set String} {e e' f f' g g' : Expression}

section Arguments

variable (h_values : L.Values names e e') (operation : String)

include h_values

/-- Both are lists, with items that are alike, or neither is a list. -/
theorem itemsOf_corresponds_list :
    Corresponds
      (fun items items' => e.head = .list ∧ List.Forall₂ (L.Values names) items items')
      (itemsOf operation e) (itemsOf operation e') := by
  unfold itemsOf
  rw [← wrongKind_congr h_values.head_eq, ← h_values.head_eq]
  cases e.head with
  | list => exact .ok ⟨rfl, h_values.tails⟩
  | _ => exact .error _

theorem itemsOf_corresponds :
    Corresponds (List.Forall₂ (L.Values names)) (itemsOf operation e) (itemsOf operation e') :=
  (itemsOf_corresponds_list h_values operation).mono fun _ _ => And.right

theorem keyOf_corresponds :
    Corresponds (fun key key' => key.head = key'.head) (keyOf operation e) (keyOf operation e') := by
  have h_head := h_values.head_eq
  unfold keyOf
  rw [← wrongKind_congr h_head, ← h_head]
  cases e.head with
  | string => exact .ok h_head
  | _ => exact .error _

/-- A number is computed from what the head of an argument says. -/
theorem scalarOf_bind_corresponds {next next' : Scalar → Outcome}
    (h_next : ∀ s, Corresponds (L.Values names) (next s) (next' s)) :
    Corresponds (L.Values names) (scalarOf operation e >>= next)
      (scalarOf operation e' >>= next') :=
  .bind_of_eq (scalarOf_congr h_values.head_eq operation) h_next

theorem complexOf_bind_corresponds {next next' : ComplexNumber → Outcome}
    (h_next : ∀ z, Corresponds (L.Values names) (next z) (next' z)) :
    Corresponds (L.Values names) (complexOf operation e >>= next)
      (complexOf operation e' >>= next') :=
  .bind_of_eq (complexOf_congr h_values.head_eq operation) h_next

theorem realOf_bind_corresponds {next next' : Float → Outcome}
    (h_next : ∀ x, Corresponds (L.Values names) (next x) (next' x)) :
    Corresponds (L.Values names) (realOf operation e >>= next) (realOf operation e' >>= next') :=
  .bind_of_eq (realOf_congr h_values.head_eq operation) h_next

end Arguments

/-! ## Arithmetic -/

theorem accumulate_corresponds {args args' : List Expression}
    (h_args : List.Forall₂ (L.Values names) args args') (operation : String)
    (combine : Scalar → Scalar → Scalar) (start : Scalar) :
    Corresponds (L.Values names) (accumulate operation combine start args)
      (accumulate operation combine start args') := by
  refine Corresponds.bind (V := (· = ·)) ?_ fun total total' h_same => ?_
  · refine .foldlM h_args rfl fun total total' arg arg' h_same h_arg => ?_
    rw [← h_same, ← scalarOf_congr h_arg.head_eq]
    exact .of_eq _
  · rw [← h_same]
    exact .ok (.scalar total)

theorem divideBy_corresponds (dividend divisor : Scalar) :
    Corresponds (L.Values names) (divideBy dividend divisor) (divideBy dividend divisor) := by
  unfold divideBy
  split
  · exact .error _
  · exact .ok (.scalar _)

theorem logarithm_corresponds (h_values : L.Values names e e') :
    Corresponds (L.Values names) (logarithm e) (logarithm e') := by
  refine scalarOf_bind_corresponds h_values "ln" fun s => ?_
  cases s with
  | real x =>
    by_cases h_negative : x < 0.0
    · simp only [if_pos h_negative]
      exact .error _
    · simp only [if_neg h_negative]
      exact .ok (.number _)
  | complex z => exact .ok (.scalar _)

/-! ## Lists -/

theorem firstAndRestOf_corresponds (h_values : L.Values names e e') (operation : String) :
    Corresponds
      (fun parts parts' => L.Values names parts.1 parts'.1 ∧
        List.Forall₂ (L.Values names) parts.2 parts'.2)
      (firstAndRestOf operation e) (firstAndRestOf operation e') := by
  refine (itemsOf_corresponds h_values operation).bind fun items items' h_items => ?_
  cases h_items with
  | nil => exact .error _
  | cons h_first h_rest => exact .ok ⟨h_first, h_rest⟩

theorem appendItem_corresponds (h_list : L.Values names e e') (h_item : L.Values names f f') :
    Corresponds (L.Values names) (appendItem e f) (appendItem e' f') := by
  refine (itemsOf_corresponds_list h_list "append").bind fun items items' h_items => ?_
  have h_append := h_list.append h_items.1 h_item
  rw [← wrongKind_congr h_item.head_eq, ← h_item.head_eq]
  cases f.head with
  | number | complex => exact .ok h_append
  | _ => exact .error _

theorem joinLists_corresponds (h_left : L.Values names e e') (h_right : L.Values names f f') :
    Corresponds (L.Values names) (joinLists e f) (joinLists e' f') := by
  refine (itemsOf_corresponds h_left "join").bind fun items items' h_items => ?_
  refine (itemsOf_corresponds h_right "join").bind fun others others' h_others => ?_
  exact .ok (.list (List.rel_append h_items h_others))

theorem rangeFrom_corresponds (first last step : Float) :
    Corresponds (L.Values names) (rangeFrom first last step) (rangeFrom first last step) := by
  unfold rangeFrom
  split
  · exact .error _
  split
  · exact .error _
  dsimp only
  split
  · exact .error _
  refine .ok (.list (List.forall₂_same.mpr fun item h_item => ?_))
  obtain ⟨k, -, rfl⟩ := List.mem_map.mp h_item
  exact .number _

/-! ## Properties and plots -/

theorem setProperty_corresponds (h_key : L.Values names e e') (h_value : L.Values names f f')
    (h_target : L.Values names g g') :
    Corresponds (L.Values names) (setProperty e f g) (setProperty e' f' g') :=
  (keyOf_corresponds h_key "set-property").bind fun _ _ h_head =>
    .ok (h_target.addProperty h_head h_value)

theorem getProperty_corresponds (h_reads : L.reads) (h_key : L.Values names e e')
    (h_target : L.Values names f f') :
    Corresponds (L.Values names) (getProperty e f) (getProperty e' f') := by
  refine (keyOf_corresponds h_key "get-property").bind fun key key' h_head => ?_
  have h_found := h_target.property? h_reads key.head.label
  refine .ok ?_
  unfold Expression.getProperty
  rw [← h_head]
  generalize f.property? key.head.label = found at h_found ⊢
  generalize f'.property? key.head.label = found' at h_found ⊢
  cases h_found with
  | none => exact .nothing
  | some h_values => exact h_values

section Options

variable (operation : String)

theorem addOption_corresponds (h_plot : L.Values names e e') (h_option : L.Values names f f') :
    Corresponds (L.Values names) (addOption operation e f) (addOption operation e' f') := by
  refine (itemsOf_corresponds h_option operation).bind fun items items' h_items => ?_
  rcases h_items with _ | ⟨h_key, _ | ⟨h_value, _ | ⟨_, _⟩⟩⟩
  case cons.cons.nil =>
    exact (keyOf_corresponds h_key operation).bind fun _ _ h_head =>
      .ok (h_plot.addProperty h_head h_value)
  all_goals exact .error _

theorem addOptions_corresponds {options options' : Option Expression} (h_plot : L.Values names e e')
    (h_options : Option.Rel (L.Values names) options options') :
    Corresponds (L.Values names) (addOptions operation e options)
      (addOptions operation e' options') := by
  cases h_options with
  | none => exact .ok h_plot
  | some h_list =>
    refine (itemsOf_corresponds h_list operation).bind fun items items' h_items => ?_
    exact .foldlM h_items h_plot fun _ _ _ _ h_plot h_option =>
      addOption_corresponds operation h_plot h_option

end Options

theorem heads_eq {items items' : List Expression}
    (h_items : List.Forall₂ (L.Values names) items items') :
    items.map Expression.head = items'.map Expression.head := by
  induction h_items with
  | nil => rfl
  | cons h_first _ ih => rw [List.map_cons, List.map_cons, h_first.head_eq, ih]

/-- Of two points that are alike both are points of numbers, or neither is. -/
theorem checkPoint_corresponds (h_point : L.Values names e e') :
    Corresponds (fun _ _ => True) (checkPoint e) (checkPoint e') := by
  refine (itemsOf_corresponds h_point "discrete-plot").bind fun items items' h_items => ?_
  have h_heads := heads_eq h_items
  rw [← wrongKind_congr h_point.head_eq]
  split
  case h_1 =>
    obtain ⟨_, _, _, _, rfl⟩ := eq_pair_of_heads h_heads.symm
    exact .ok trivial
  case h_2 h_none =>
  split
  case h_1 =>
    obtain ⟨_, _, _, _, rfl⟩ := eq_pair_of_heads h_heads
    exact absurd rfl (h_none _ _ _ _ _ _)
  case h_2 => exact .error _

theorem checkBounds_corresponds (h_bounds : L.Values names e e') :
    Corresponds (fun _ _ => True) (checkBounds e) (checkBounds e') := by
  refine (itemsOf_corresponds h_bounds "continuous-plot").bind fun items items' h_items => ?_
  have h_heads := heads_eq h_items
  rw [← wrongKind_congr h_bounds.head_eq]
  split
  case h_1 low _ _ high _ _ =>
    obtain ⟨_, _, _, _, rfl⟩ := eq_pair_of_heads h_heads.symm
    by_cases h_order : low < high
    · simp only [if_pos h_order]
      exact .ok trivial
    · simp only [if_neg h_order]
      exact .error _
  case h_2 h_none =>
  split
  case h_1 =>
    obtain ⟨_, _, _, _, rfl⟩ := eq_pair_of_heads h_heads
    exact absurd rfl (h_none _ _ _ _ _ _)
  case h_2 => exact .error _

section Plots

variable {options options' : Option Expression}
  (h_options : Option.Rel (L.Values names) options options')

include h_options

theorem discretePlot_corresponds (h_data : L.Values names e e') :
    Corresponds (L.Values names) (discretePlot e options) (discretePlot e' options') := by
  refine (itemsOf_corresponds h_data "discrete-plot").bind fun points points' h_points => ?_
  have h_checked : Corresponds (fun _ _ => True) (points.forM checkPoint)
      (points'.forM checkPoint) := .forM h_points fun _ _ => checkPoint_corresponds
  refine h_checked.bind fun _ _ _ => ?_
  exact addOptions_corresponds _ (.node nofun h_points) h_options

theorem continuousPlot_corresponds (h_function : L.Values names e e')
    (h_bounds : L.Values names f f') :
    Corresponds (L.Values names) (continuousPlot e f options) (continuousPlot e' f' options') := by
  have h_checked := checkBounds_corresponds h_bounds
  have h_plot : L.Values names ⟨.ofName "continuous-plot", [e, f], ∅⟩
      ⟨.ofName "continuous-plot", [e', f'], ∅⟩ :=
    .node nofun (.cons h_function (.cons h_bounds .nil))
  unfold continuousPlot
  rw [← wrongKind_congr h_function.head_eq, ← h_function.head_eq]
  cases e.head with
  | lambda => exact h_checked.bind fun _ _ _ => addOptions_corresponds _ h_plot h_options
  | _ => exact .error _

end Plots

/-! ## All procedures -/

section Calls

variable {args args' : List Expression} (h_args : List.Forall₂ (L.Values names) args args')

include h_args

theorem rule?_corresponds {procedure : Builtin} (h_reads : procedure = .getProperty → L.reads)
    {outcome outcome' : Outcome} (h_rule : procedure.rule? args = some outcome)
    (h_rule' : procedure.rule? args' = some outcome') :
    Corresponds (L.Values names) outcome outcome' := by
  have h_scalar (s : Scalar) : Corresponds (L.Values names) (.ok s.expression) (.ok s.expression) :=
    .ok (.scalar s)
  unfold Builtin.rule? at h_rule
  split at h_rule <;> cases h_rule
  -- sums and products take any number of arguments
  case h_1 | h_4 =>
    cases h_rule'
    exact accumulate_corresponds h_args _ _ _
  all_goals
    rcases h_args with _ | ⟨h_x, _ | ⟨h_y, _ | ⟨h_z, _ | ⟨_, _⟩⟩⟩⟩
    cases h_rule'
  -- differences and quotients
  · exact scalarOf_bind_corresponds h_x _ fun s => h_scalar _
  · exact scalarOf_bind_corresponds h_x _ fun s =>
      scalarOf_bind_corresponds h_y _ fun t => h_scalar _
  · exact scalarOf_bind_corresponds h_x _ fun s => divideBy_corresponds _ _
  · exact scalarOf_bind_corresponds h_x _ fun s =>
      scalarOf_bind_corresponds h_y _ fun t => divideBy_corresponds _ _
  -- powers and elementary functions
  · exact scalarOf_bind_corresponds h_x _ fun s => h_scalar _
  · exact scalarOf_bind_corresponds h_x _ fun s =>
      scalarOf_bind_corresponds h_y _ fun t => h_scalar _
  · exact logarithm_corresponds h_x
  · exact scalarOf_bind_corresponds h_x _ fun s => h_scalar _
  · exact scalarOf_bind_corresponds h_x _ fun s => h_scalar _
  · exact scalarOf_bind_corresponds h_x _ fun s => h_scalar _
  -- parts of complex numbers
  · exact complexOf_bind_corresponds h_x _ fun z => h_scalar (.real z.re)
  · exact complexOf_bind_corresponds h_x _ fun z => h_scalar (.real z.im)
  · exact complexOf_bind_corresponds h_x _ fun z => h_scalar (.real z.norm)
  · exact complexOf_bind_corresponds h_x _ fun z => h_scalar (.real z.angle)
  · exact complexOf_bind_corresponds h_x _ fun z => h_scalar (.complex z.conjugate)
  -- lists
  · exact (firstAndRestOf_corresponds h_x _).bind fun _ _ h_parts => .ok h_parts.1
  · exact (firstAndRestOf_corresponds h_x _).bind fun _ _ h_parts => .ok (.list h_parts.2)
  · refine (itemsOf_corresponds h_x "length").bind fun items items' h_items => ?_
    rw [← h_items.length_eq]
    exact .ok (.number _)
  · exact appendItem_corresponds h_x h_y
  · exact joinLists_corresponds h_x h_y
  · exact realOf_bind_corresponds h_x _ fun _ => realOf_bind_corresponds h_y _ fun _ =>
      realOf_bind_corresponds h_z _ fun _ => rangeFrom_corresponds _ _ _
  -- properties
  · exact setProperty_corresponds h_x h_y h_z
  · exact getProperty_corresponds (h_reads rfl) h_x h_y
  -- plots
  · exact discretePlot_corresponds .none h_x
  · exact discretePlot_corresponds (.some h_y) h_x
  · exact continuousPlot_corresponds .none h_x h_y
  · exact continuousPlot_corresponds (.some h_z) h_x h_y

/-- A call with values that are alike gives values that are alike, or the same error. -/
theorem call_corresponds {procedure : Builtin} (h_reads : procedure = .getProperty → L.reads) :
    Corresponds (L.Values names) (procedure.call args) (procedure.call args') := by
  unfold Builtin.call
  rw [← h_args.length_eq]
  by_cases h_accepts : procedure.arity.accepts args.length = true
  · obtain ⟨outcome, h_rule⟩ := Builtin.exists_rule? h_accepts
    obtain ⟨outcome', h_rule'⟩ := Builtin.exists_rule? (h_args.length_eq ▸ h_accepts)
    simp only [if_pos h_accepts, h_rule, h_rule', Option.getD_some]
    exact rule?_corresponds h_args h_reads h_rule h_rule'
  · simp only [if_neg h_accepts]
    exact .error _

end Calls

end Likeness

end PlotLisp
