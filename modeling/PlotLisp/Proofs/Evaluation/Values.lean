import PlotLisp.Proofs.Evaluation.Outcomes
import PlotLisp.Proofs.NameMap.Order

/-!
# Values

Programs and what they compute are trees of one type, but only some trees are values. `IsValue` says
which: numbers, lists of values, lambdas with symbols for parameters, plots of checked data, and
strings, each with values for properties. Two sorts hold program text that has not been evaluated,
the body of a lambda and whatever stands behind a string. That it is program text is said by the
parameter `code`.

Every built-in procedure takes values to a value, or fails with an error that is the fault of the
program (`Builtin.call_fulfils`). The procedures only make numbers and lists, set properties and put
plots together, so the same is said of any sort of trees that is closed under that
(`ClosedUnderCalls`).
-/

namespace PlotLisp

/-! ## Values -/

namespace Expression

/-- A list of two numbers. -/
def IsPair (e : Expression) : Prop :=
  e.head = .list ∧ ∃ x y, e.tail.map head = [.number x, .number y]

/-- A list of two numbers, the lower one first. -/
def IsInterval (e : Expression) : Prop :=
  e.head = .list ∧ ∃ low high, e.tail.map head = [.number low, .number high] ∧ low < high

end Expression

/-- A tree that an evaluation may result in, where `code` holds of program text. -/
inductive IsValue (code : Expression → Prop) : Expression → Prop where
  | nothing {properties} (h_properties : ∀ entry ∈ properties.entries, IsValue code entry.2) :
      IsValue code ⟨.nothing, [], properties⟩
  | number {x properties} (h_properties : ∀ entry ∈ properties.entries, IsValue code entry.2) :
      IsValue code ⟨.number x, [], properties⟩
  | complex {z properties} (h_properties : ∀ entry ∈ properties.entries, IsValue code entry.2) :
      IsValue code ⟨.complex z, [], properties⟩
  | list {items properties} (h_items : ∀ item ∈ items, IsValue code item)
      (h_properties : ∀ entry ∈ properties.entries, IsValue code entry.2) :
      IsValue code ⟨.list, items, properties⟩
  | lambda {names body properties} (h_names : ∀ name ∈ names, isParameter name) (h_body : code body)
      (h_properties : ∀ entry ∈ properties.entries, IsValue code entry.2) :
      IsValue code ⟨.lambda, [.list names, body], properties⟩
  | string {text tail properties} (h_tail : ∀ e ∈ tail, code e)
      (h_properties : ∀ entry ∈ properties.entries, IsValue code entry.2) :
      IsValue code ⟨.string text, tail, properties⟩
  | discretePlot {points properties} (h_pairs : ∀ point ∈ points, point.IsPair)
      (h_points : ∀ point ∈ points, IsValue code point)
      (h_properties : ∀ entry ∈ properties.entries, IsValue code entry.2) :
      IsValue code ⟨.symbol "discrete-plot", points, properties⟩
  | continuousPlot {function bounds properties} (h_kind : function.kind = .lambda)
      (h_function : IsValue code function) (h_interval : bounds.IsInterval)
      (h_bounds : IsValue code bounds)
      (h_properties : ∀ entry ∈ properties.entries, IsValue code entry.2) :
      IsValue code ⟨.symbol "continuous-plot", [function, bounds], properties⟩

namespace IsValue

variable {code : Expression → Prop} {e : Expression}

theorem properties (h_value : IsValue code e) :
    ∀ entry ∈ e.properties.entries, IsValue code entry.2 := by
  cases h_value <;> assumption

/-- Only the properties of a value stand free of its head. -/
theorem withProperties (h_value : IsValue code e) {properties : NameMap Expression}
    (h_properties : ∀ entry ∈ properties.entries, IsValue code entry.2) :
    IsValue code { e with properties } := by
  cases h_value with
  | nothing => exact .nothing h_properties
  | number => exact .number h_properties
  | complex => exact .complex h_properties
  | list h_items => exact .list h_items h_properties
  | lambda h_names h_body => exact .lambda h_names h_body h_properties
  | string h_tail => exact .string h_tail h_properties
  | discretePlot h_pairs h_points => exact .discretePlot h_pairs h_points h_properties
  | continuousPlot h_kind h_function h_interval h_bounds =>
    exact .continuousPlot h_kind h_function h_interval h_bounds h_properties

theorem addProperty (h_value : IsValue code e) (key : Expression) {value : Expression}
    (h_property : IsValue code value) : IsValue code (e.addProperty key value) :=
  h_value.withProperties (NameMap.forall_mem_insert h_value.properties h_property)

theorem items (h_value : IsValue code e) (h_head : e.head = .list) :
    ∀ item ∈ e.tail, IsValue code item := by
  cases h_value with
  | list h_items => exact h_items
  | _ => cases h_head

theorem parts_of_lambda (h_value : IsValue code e) (h_kind : e.kind = .lambda) :
    ∃ names body, e.tail = [.list names, body] ∧ (∀ name ∈ names, isParameter name) ∧
      code body := by
  cases h_value with
  | lambda h_names h_body => exact ⟨_, _, rfl, h_names, h_body⟩
  | _ => cases h_kind

end IsValue

theorem isValue_list {code : Expression → Prop} {items : List Expression}
    (h_items : ∀ item ∈ items, IsValue code item) : IsValue code (.list items) :=
  .list h_items nofun

/-- Something behind the items of a list makes a value of it again, with the same properties. -/
theorem IsValue.append {code : Expression → Prop} {list item : Expression}
    (h_list : IsValue code list) (h_head : list.head = .list) (h_item : IsValue code item) :
    IsValue code (list.append item) := by
  obtain ⟨head, items, properties⟩ := list
  cases h_head
  refine .list (List.forall_mem_append.mpr ⟨h_list.items rfl, ?_⟩) h_list.properties
  exact List.forall_mem_singleton.mpr h_item

/-! ## What procedures make -/

/-- A number of either sort, and nothing else about it. -/
def Expression.IsBareNumber (e : Expression) : Prop := (∃ x, e = .number x) ∨ ∃ z, e = .complex z

/-- What holds of all that a procedure makes, if it holds of what it is given. -/
structure ClosedUnderCalls (P : Expression → Prop) : Prop where
  nothing : P .nothing
  bareNumber : ∀ {e}, e.IsBareNumber → P e
  list : ∀ {items}, (∀ item ∈ items, P item) → P (.list items)
  items : ∀ {e}, P e → e.head = .list → ∀ item ∈ e.tail, P item
  append : ∀ {list item}, P list → list.head = .list → P item → P (list.append item)
  properties : ∀ {e}, P e → ∀ entry ∈ e.properties.entries, P entry.2
  addProperty : ∀ {e value}, P e → ∀ key, P value → P (e.addProperty key value)
  discretePlot : ∀ {points}, (∀ point ∈ points, point.IsPair) → (∀ point ∈ points, P point) →
    P { head := .symbol "discrete-plot", tail := points }
  continuousPlot : ∀ {function bounds}, function.kind = .lambda → P function → bounds.IsInterval →
    P bounds → P { head := .symbol "continuous-plot", tail := [function, bounds] }

theorem IsValue.closedUnderCalls (code : Expression → Prop) : ClosedUnderCalls (IsValue code) where
  nothing := .nothing nofun
  bareNumber h_number := by
    rcases h_number with ⟨x, rfl⟩ | ⟨z, rfl⟩
    · exact .number nofun
    · exact .complex nofun
  list h_items := isValue_list h_items
  items h_value h_head := h_value.items h_head
  append h_list h_head h_item := h_list.append h_head h_item
  properties h_value := h_value.properties
  addProperty h_value key h_property := h_value.addProperty key h_property
  discretePlot h_pairs h_points := .discretePlot h_pairs h_points nofun
  continuousPlot h_kind h_function h_interval h_bounds :=
    .continuousPlot h_kind h_function h_interval h_bounds nofun

/-! ## Faults of programs -/

/-- An error that no program causes: something is then wrong with the interpreter itself. -/
def SemanticError.IsInternal : SemanticError → Prop
  | .invalidTerminal _ | .nonSymbolBinding _ | .nonSymbolParameter _ | .parameterOutsideCall
  | .malformedLambda _ | .noProgram => True
  | .typeMismatch operation expected _ =>
    operation = SpecialForm.define.name ∧ expected = .ofKind .lambda
  | .arityMismatch function expected _ => function = SpecialForm.begin.name ∧ expected = .atLeast 1
  | _ => False

/-- The errors that programs cause. -/
def IsFault (error : SemanticError) : Prop := ¬ error.IsInternal

/-- What an operation says of its arguments is the fault of the program. -/
theorem isFault_typeMismatch {operation : String} (h_operation : operation ≠ "define")
    (expected : Requirement) (actual : Finding) :
    IsFault (.typeMismatch operation expected actual) := fun h => h_operation h.1

theorem isFault_arityMismatch (function : String) (count actual : Nat) :
    IsFault (.arityMismatch function (.exactly count) actual) := by
  rintro ⟨-, ⟨⟩⟩

/-! ## Arguments -/

section Arguments

variable {operation : String} (h_operation : operation ≠ "define")

include h_operation

theorem scalarOf_fulfils (arg : Expression) :
    Fulfils IsFault (fun _ => True) (scalarOf operation arg) := by
  unfold scalarOf
  split
  · trivial
  · trivial
  · exact isFault_typeMismatch h_operation _ _

theorem complexOf_fulfils (arg : Expression) :
    Fulfils IsFault (fun _ => True) (complexOf operation arg) := by
  unfold complexOf
  split
  · trivial
  · exact isFault_typeMismatch h_operation _ _

theorem realOf_fulfils (arg : Expression) :
    Fulfils IsFault (fun _ => True) (realOf operation arg) := by
  unfold realOf
  split
  · trivial
  · exact isFault_typeMismatch h_operation _ _

theorem keyOf_fulfils (arg : Expression) :
    Fulfils IsFault (fun _ => True) (keyOf operation arg) := by
  unfold keyOf
  split
  · trivial
  · exact isFault_typeMismatch h_operation _ _

theorem itemsOf_fulfils (arg : Expression) :
    Fulfils IsFault (fun items => arg.head = .list ∧ items = arg.tail) (itemsOf operation arg) := by
  unfold itemsOf
  split
  case h_1 h_head => exact ⟨h_head, rfl⟩
  case h_2 => exact isFault_typeMismatch h_operation _ _

variable {P : Expression → Prop} (h_closed : ClosedUnderCalls P) {arg : Expression} (h_arg : P arg)

include h_closed h_arg

theorem itemsOf_fulfils_items :
    Fulfils IsFault (fun items => ∀ item ∈ items, P item) (itemsOf operation arg) :=
  (itemsOf_fulfils h_operation arg).mono fun items h_items => by
    rw [h_items.2]
    exact h_closed.items h_arg h_items.1

theorem firstAndRestOf_fulfils :
    Fulfils IsFault (fun parts => P parts.1 ∧ ∀ item ∈ parts.2, P item)
      (firstAndRestOf operation arg) := by
  refine (itemsOf_fulfils_items h_operation h_closed h_arg).bind fun items h_items => ?_
  cases items with
  | nil => exact isFault_typeMismatch h_operation _ _
  | cons first rest => exact List.forall_mem_cons.mp h_items

end Arguments

/-! ## Arithmetic -/

theorem Scalar.isBareNumber_expression (s : Scalar) : s.expression.IsBareNumber := by
  cases s with
  | real x => exact .inl ⟨x, rfl⟩
  | complex z => exact .inr ⟨z, rfl⟩

section Arithmetic

variable {operation : String} (h_operation : operation ≠ "define")

include h_operation

/-- A procedure that computes a number from one argument. -/
theorem scalarOf_bind_fulfils {next : Scalar → Outcome} (arg : Expression)
    (h_next : ∀ s, Fulfils IsFault Expression.IsBareNumber (next s)) :
    Fulfils IsFault Expression.IsBareNumber (scalarOf operation arg >>= next) :=
  (scalarOf_fulfils h_operation arg).bind fun s _ => h_next s

theorem accumulate_fulfils (combine : Scalar → Scalar → Scalar) (start : Scalar)
    (args : List Expression) :
    Fulfils IsFault Expression.IsBareNumber (accumulate operation combine start args) := by
  refine Fulfils.bind (Q := fun _ => True) (.foldlM trivial fun total _ arg _ => ?_) fun total _ => ?_
  · exact (scalarOf_fulfils h_operation arg).bind fun _ _ => trivial
  · exact total.isBareNumber_expression

theorem elementary_fulfils (onReal : Float → Float) (onComplex : ComplexNumber → ComplexNumber)
    (arg : Expression) :
    Fulfils IsFault Expression.IsBareNumber (elementary operation onReal onComplex arg) :=
  scalarOf_bind_fulfils h_operation arg fun _ => Scalar.isBareNumber_expression _

/-- A procedure that computes a real number from a complex one. -/
theorem complexOf_bind_fulfils {next : ComplexNumber → Outcome} (arg : Expression)
    (h_next : ∀ z, Fulfils IsFault Expression.IsBareNumber (next z)) :
    Fulfils IsFault Expression.IsBareNumber (complexOf operation arg >>= next) :=
  (complexOf_fulfils h_operation arg).bind fun z _ => h_next z

end Arithmetic

theorem divideBy_fulfils (dividend divisor : Scalar) :
    Fulfils IsFault Expression.IsBareNumber (divideBy dividend divisor) := by
  unfold divideBy
  split
  · exact id
  · exact Scalar.isBareNumber_expression _

theorem logarithm_fulfils (arg : Expression) :
    Fulfils IsFault Expression.IsBareNumber (logarithm arg) := by
  refine scalarOf_bind_fulfils (by decide) arg fun s => ?_
  cases s with
  | real x =>
    by_cases h_negative : x < 0.0
    · simp only [if_pos h_negative]
      exact isFault_typeMismatch (by decide) _ _
    · simp only [if_neg h_negative]
      exact .inl ⟨_, rfl⟩
  | complex z => exact Scalar.isBareNumber_expression _

/-! ## Lists and properties -/

theorem lengthOf_fulfils (arg : Expression) :
    Fulfils IsFault Expression.IsBareNumber (lengthOf arg) :=
  (itemsOf_fulfils (by decide) arg).bind fun _ _ => .inl ⟨_, rfl⟩

section Procedures

variable {P : Expression → Prop} (h_closed : ClosedUnderCalls P)
  {arg left right key value target : Expression}

include h_closed

theorem firstItem_fulfils (h_arg : P arg) : Fulfils IsFault P (firstItem arg) :=
  (firstAndRestOf_fulfils (by decide) h_closed h_arg).bind fun _ h_parts => h_parts.1

theorem restItems_fulfils (h_arg : P arg) : Fulfils IsFault P (restItems arg) :=
  (firstAndRestOf_fulfils (by decide) h_closed h_arg).bind fun _ h_parts => h_closed.list h_parts.2

theorem appendItem_fulfils (h_list : P left) (h_item : P right) :
    Fulfils IsFault P (appendItem left right) := by
  refine (itemsOf_fulfils (by decide) left).bind fun items h_items => ?_
  split
  · exact h_closed.append h_list h_items.1 h_item
  · exact h_closed.append h_list h_items.1 h_item
  · exact isFault_typeMismatch (by decide) _ _

theorem joinLists_fulfils (h_left : P left) (h_right : P right) :
    Fulfils IsFault P (joinLists left right) := by
  refine (itemsOf_fulfils_items (by decide) h_closed h_left).bind fun items h_items => ?_
  refine (itemsOf_fulfils_items (by decide) h_closed h_right).bind fun others h_others => ?_
  exact h_closed.list (List.forall_mem_append.mpr ⟨h_items, h_others⟩)

theorem rangeFrom_fulfils (first last step : Float) :
    Fulfils IsFault P (rangeFrom first last step) := by
  unfold rangeFrom
  split
  · exact id
  split
  · exact id
  dsimp only
  split
  · exact id
  refine h_closed.list fun item h_item => ?_
  obtain ⟨k, -, rfl⟩ := List.mem_map.mp h_item
  exact h_closed.bareNumber (.inl ⟨_, rfl⟩)

theorem range_fulfils (first last step : Expression) : Fulfils IsFault P (range first last step) :=
  (realOf_fulfils (by decide) first).bind fun _ _ =>
    (realOf_fulfils (by decide) last).bind fun _ _ =>
      (realOf_fulfils (by decide) step).bind fun _ _ => rangeFrom_fulfils h_closed _ _ _

theorem setProperty_fulfils (h_value : P value) (h_target : P target) :
    Fulfils IsFault P (setProperty key value target) :=
  (keyOf_fulfils (by decide) key).bind fun key _ => h_closed.addProperty h_target key h_value

theorem getProperty_fulfils (h_target : P target) : Fulfils IsFault P (getProperty key target) := by
  refine (keyOf_fulfils (by decide) key).bind fun key _ => ?_
  change P ((target.properties.get? key.head.label).getD .nothing)
  rcases h_found : target.properties.get? key.head.label with _ | property
  · exact h_closed.nothing
  · exact h_closed.properties h_target _ (NameMap.mem_entries_of_get? h_found)

/-! ## Plots -/

theorem addOption_fulfils {operation : String} (h_operation : operation ≠ "define")
    {plot option : Expression} (h_plot : P plot) (h_option : P option) :
    Fulfils IsFault P (addOption operation plot option) := by
  refine (itemsOf_fulfils_items h_operation h_closed h_option).bind fun items h_items => ?_
  split
  case h_1 key value =>
    refine (keyOf_fulfils h_operation key).bind fun key _ => h_closed.addProperty h_plot key ?_
    exact h_items value (by simp)
  case h_2 => exact isFault_typeMismatch h_operation _ _

theorem addOptions_fulfils {operation : String} (h_operation : operation ≠ "define")
    {plot : Expression} {options : Option Expression} (h_plot : P plot)
    (h_options : ∀ e ∈ options, P e) : Fulfils IsFault P (addOptions operation plot options) := by
  cases options with
  | none => exact h_plot
  | some options =>
    have h_items := itemsOf_fulfils_items h_operation h_closed (h_options options rfl)
    refine h_items.bind fun items h_items => ?_
    exact .foldlM h_plot fun plot h_plot option h_option =>
      addOption_fulfils h_closed h_operation h_plot (h_items option h_option)

omit h_closed in
theorem checkPoint_fulfils (point : Expression) :
    Fulfils IsFault (fun _ => point.IsPair) (checkPoint point) := by
  refine (itemsOf_fulfils (by decide) point).bind fun items h_items => ?_
  obtain ⟨h_head, rfl⟩ := h_items
  split
  case h_1 x _ _ y _ _ h_tail => exact ⟨h_head, x, y, by rw [h_tail]; rfl⟩
  case h_2 => exact isFault_typeMismatch (by decide) _ _

omit h_closed in
theorem checkBounds_fulfils (bounds : Expression) :
    Fulfils IsFault (fun _ => bounds.IsInterval) (checkBounds bounds) := by
  refine (itemsOf_fulfils (by decide) bounds).bind fun items h_items => ?_
  obtain ⟨h_head, rfl⟩ := h_items
  split
  case h_1 low _ _ high _ _ h_tail =>
    split
    case isTrue h_order => exact ⟨h_head, low, high, by rw [h_tail]; rfl, h_order⟩
    case isFalse => exact id
  case h_2 => exact isFault_typeMismatch (by decide) _ _

theorem discretePlot_fulfils {data : Expression} {options : Option Expression} (h_data : P data)
    (h_options : ∀ e ∈ options, P e) : Fulfils IsFault P (discretePlot data options) := by
  refine (itemsOf_fulfils_items (by decide) h_closed h_data).bind fun points h_points => ?_
  refine Fulfils.bind (.forM fun point _ => checkPoint_fulfils point) fun _ h_pairs => ?_
  exact addOptions_fulfils h_closed (by decide) (h_closed.discretePlot h_pairs h_points) h_options

theorem continuousPlot_fulfils {function bounds : Expression} {options : Option Expression}
    (h_function : P function) (h_bounds : P bounds) (h_options : ∀ e ∈ options, P e) :
    Fulfils IsFault P (continuousPlot function bounds options) := by
  unfold continuousPlot
  split
  case h_1 h_head =>
    have h_kind : function.kind = .lambda := by rw [Expression.kind, h_head]; rfl
    refine (checkBounds_fulfils bounds).bind fun _ h_interval => ?_
    exact addOptions_fulfils h_closed (by decide)
      (h_closed.continuousPlot h_kind h_function h_interval h_bounds) h_options
  case h_2 => exact isFault_typeMismatch (by decide) _ _

end Procedures

/-! ## All procedures -/

section Calls

variable {P : Expression → Prop} (h_closed : ClosedUnderCalls P) {args : List Expression}
  (h_args : ∀ arg ∈ args, P arg)

include h_closed h_args

theorem Builtin.rule?_fulfils {procedure : Builtin} {outcome : Outcome}
    (h_rule : procedure.rule? args = some outcome) : Fulfils IsFault P outcome := by
  have h_number {outcome : Outcome} (h_outcome : Fulfils IsFault Expression.IsBareNumber outcome) :
      Fulfils IsFault P outcome := h_outcome.mono fun _ h_bare => h_closed.bareNumber h_bare
  have h_scalar (s : Scalar) := s.isBareNumber_expression
  unfold Builtin.rule? at h_rule
  split at h_rule <;> cases h_rule
  -- the four operations
  · exact h_number (accumulate_fulfils (by decide) _ _ _)
  · exact h_number (scalarOf_bind_fulfils (by decide) _ fun s => h_scalar _)
  · exact h_number (scalarOf_bind_fulfils (by decide) _ fun s =>
      scalarOf_bind_fulfils (by decide) _ fun t => h_scalar _)
  · exact h_number (accumulate_fulfils (by decide) _ _ _)
  · exact h_number (scalarOf_bind_fulfils (by decide) _ fun s => divideBy_fulfils _ _)
  · exact h_number (scalarOf_bind_fulfils (by decide) _ fun s =>
      scalarOf_bind_fulfils (by decide) _ fun t => divideBy_fulfils _ _)
  -- powers and elementary functions
  · exact h_number (scalarOf_bind_fulfils (by decide) _ fun s => h_scalar _)
  · exact h_number (scalarOf_bind_fulfils (by decide) _ fun s =>
      scalarOf_bind_fulfils (by decide) _ fun t => h_scalar _)
  · exact h_number (logarithm_fulfils _)
  · exact h_number (elementary_fulfils (by decide) _ _ _)
  · exact h_number (elementary_fulfils (by decide) _ _ _)
  · exact h_number (elementary_fulfils (by decide) _ _ _)
  -- parts of complex numbers
  · exact h_number (complexOf_bind_fulfils (by decide) _ fun z => .inl ⟨_, rfl⟩)
  · exact h_number (complexOf_bind_fulfils (by decide) _ fun z => .inl ⟨_, rfl⟩)
  · exact h_number (complexOf_bind_fulfils (by decide) _ fun z => .inl ⟨_, rfl⟩)
  · exact h_number (complexOf_bind_fulfils (by decide) _ fun z => .inl ⟨_, rfl⟩)
  · exact h_number (complexOf_bind_fulfils (by decide) _ fun z => .inr ⟨_, rfl⟩)
  -- lists
  · exact firstItem_fulfils h_closed (h_args _ (by simp))
  · exact restItems_fulfils h_closed (h_args _ (by simp))
  · exact h_number (lengthOf_fulfils _)
  · exact appendItem_fulfils h_closed (h_args _ (by simp)) (h_args _ (by simp))
  · exact joinLists_fulfils h_closed (h_args _ (by simp)) (h_args _ (by simp))
  · exact range_fulfils h_closed _ _ _
  -- properties
  · exact setProperty_fulfils h_closed (h_args _ (by simp)) (h_args _ (by simp))
  · exact getProperty_fulfils h_closed (h_args _ (by simp))
  -- plots
  · exact discretePlot_fulfils h_closed (h_args _ (by simp)) nofun
  · exact discretePlot_fulfils h_closed (h_args _ (by simp)) fun _ h_e => h_args _ (by simp_all)
  · exact continuousPlot_fulfils h_closed (h_args _ (by simp)) (h_args _ (by simp)) nofun
  · exact continuousPlot_fulfils h_closed (h_args _ (by simp)) (h_args _ (by simp)) fun _ h_e =>
      h_args _ (by simp_all)

/-- A call of a built-in procedure gives something of the sort that its arguments are of, or an error
that the program causes. -/
theorem Builtin.call_fulfils (procedure : Builtin) : Fulfils IsFault P (procedure.call args) := by
  have h_mismatch : IsFault (.arityMismatch procedure.name procedure.arity args.length) := by
    rintro ⟨h_name, -⟩
    revert h_name
    cases procedure <;> decide
  unfold Builtin.call
  split
  case isFalse => exact h_mismatch
  rcases h_rule : procedure.rule? args with _ | outcome
  · exact h_mismatch
  · exact rule?_fulfils h_closed h_args h_rule

end Calls

end PlotLisp
