import PlotLisp.Proofs.Evaluation.Values

/-!
# Plots of checked data

A plot is made if its data are what they have to be and every option is a pair of a key and a value, and
only then. It has the data for children, as they were given, and what its options say for properties: of
two options for one key the later counts.

* `Expression.IsPair`, `Expression.IsInterval`, `Expression.IsOptionList` are the conditions.
* `IsPlot` describes the plot, with `LastGives` for its properties.
* `plots_are_exact` is the conclusion, for both procedures.
-/

namespace PlotLisp

/-! ## Conditions -/

namespace Expression

def IsPointList (e : Expression) : Prop := e.head = .list ∧ ∀ point ∈ e.tail, point.IsPair

/-- A list of two: a user string, which is the name, and the value. -/
def Gives (option : Expression) (name : String) (value : Expression) : Prop :=
  option.head = .list ∧ ∃ key, key.head = .string name ∧ option.tail = [key, value]

def IsOption (e : Expression) : Prop := ∃ name value, e.Gives name value

def IsOptionList (e : Expression) : Prop := e.head = .list ∧ ∀ option ∈ e.tail, option.IsOption

theorem Gives.unique {option : Expression} {name other : String} {value another : Expression}
    (h_gives : option.Gives name value) (h_other : option.Gives other another) :
    name = other ∧ value = another := by
  obtain ⟨-, key, h_key, h_tail⟩ := h_gives
  obtain ⟨-, second, h_second, h_same⟩ := h_other
  rw [h_tail, List.cons.injEq, List.cons.injEq] at h_same
  rw [← h_same.1, h_key, Atom.string.injEq] at h_second
  exact ⟨h_second, h_same.2.1⟩

end Expression

/-- Among the options for this name the last has this value. -/
def LastGives (options : List Expression) (name : String) (value : Expression) : Prop :=
  ∃ before option after, options = before ++ option :: after ∧ option.Gives name value ∧
    ∀ later ∈ after, ∀ other, ¬ later.Gives name other

theorem not_lastGives_nil (name : String) (value : Expression) : ¬ LastGives [] name value := by
  intro h_last
  obtain ⟨before, option, after, h_options, -⟩ := h_last
  exact absurd h_options.symm (List.append_ne_nil_of_right_ne_nil _ (List.cons_ne_nil _ _))

/-- One option more says all there is about its own name, and nothing about the others. -/
theorem lastGives_concat {options : List Expression} {option value other : Expression}
    {name another : String} (h_gives : option.Gives name value) :
    LastGives (options ++ [option]) another other
      ↔ if name = another then value = other else LastGives options another other := by
  constructor
  · intro h_last
    obtain ⟨before, last, after, h_options, h_last, h_after⟩ := h_last
    rcases List.eq_nil_or_concat after with rfl | ⟨others, final, rfl⟩
    · -- the new option is the one that counts
      obtain ⟨-, h_same⟩ := List.append_inj' h_options rfl
      rw [List.singleton_inj] at h_same
      obtain ⟨h_name, h_value⟩ := h_gives.unique (h_same ▸ h_last)
      rwa [if_pos h_name]
    · -- it is one of those that come later
      rw [List.concat_eq_append] at h_options h_after
      rw [← List.cons_append, ← List.append_assoc] at h_options
      obtain ⟨h_before, h_same⟩ := List.append_inj' h_options rfl
      rw [List.singleton_inj] at h_same
      have h_final := h_after final (List.mem_append_right _ (List.mem_singleton_self _))
      have h_ne : name ≠ another := by
        intro h_name
        rw [← h_same, ← h_name] at h_final
        exact h_final value h_gives
      rw [if_neg h_ne]
      exact ⟨before, last, others, h_before, h_last, fun later h_later =>
        h_after later (List.mem_append_left _ h_later)⟩
  · intro h_says
    by_cases h_name : name = another
    · rw [if_pos h_name] at h_says
      rw [h_name, h_says] at h_gives
      exact ⟨options, option, [], rfl, h_gives, fun later h_later => absurd h_later List.not_mem_nil⟩
    · rw [if_neg h_name] at h_says
      obtain ⟨before, last, after, rfl, h_last, h_after⟩ := h_says
      refine ⟨before, last, after ++ [option], by rw [List.append_assoc]; rfl, h_last, ?_⟩
      intro later h_later other h_other
      rcases List.mem_append.mp h_later with h_old | h_new
      · exact h_after later h_old other h_other
      · rw [List.mem_singleton.mp h_new] at h_other
        exact h_name (h_gives.unique h_other).1

/-! ## Plots -/

/-- A node with this head, these children, and what the options say for properties. -/
structure IsPlot (head : Atom) (children options : List Expression) (plot : Expression) : Prop where
  head : plot.head = head
  tail : plot.tail = children
  isOrdered : plot.properties.IsOrdered
  properties : ∀ name value, (name, value) ∈ plot.properties.entries ↔ LastGives options name value

section IsPlot

variable {head : Atom} {children options : List Expression}

theorem isPlot_nil : IsPlot head children [] { head, tail := children } where
  head := rfl
  tail := rfl
  isOrdered := NameMap.isOrdered_empty
  properties name value := by
    constructor
    · intro h_entry
      exact absurd h_entry List.not_mem_nil
    · intro h_last
      exact absurd h_last (not_lastGives_nil name value)

theorem IsPlot.insert {plot option value : Expression} {name : String}
    (h_plot : IsPlot head children options plot) (h_gives : option.Gives name value) :
    IsPlot head children (options ++ [option])
      { plot with properties := plot.properties.insert name value } where
  head := h_plot.head
  tail := h_plot.tail
  isOrdered := h_plot.isOrdered.insert name value
  properties another other := by
    rw [(h_plot.isOrdered.insert name value).mem_entries_iff, NameMap.get?_insert,
      lastGives_concat h_gives, ← h_plot.properties, h_plot.isOrdered.mem_entries_iff]
    split
    · rw [Option.some.injEq]
    · rfl

end IsPlot

/-! ## What the checks let pass -/

section Checks

variable {operation : String}

theorem itemsOf_eq_ok {arg : Expression} {items : List Expression} :
    itemsOf operation arg = .ok items ↔ arg.head = .list ∧ arg.tail = items := by
  unfold itemsOf
  split
  case h_1 h_head => rw [Except.ok.injEq, and_iff_right h_head]
  case h_2 h_head =>
    constructor
    · nofun
    · intro h_items
      exact absurd h_items.1 h_head

theorem keyOf_eq_ok {arg key : Expression} :
    keyOf operation arg = .ok key ↔ (∃ name, arg.head = .string name) ∧ arg = key := by
  unfold keyOf
  split
  case h_1 name h_head => rw [Except.ok.injEq, and_iff_right ⟨name, h_head⟩]
  case h_2 h_head =>
    constructor
    · nofun
    · intro h_key
      obtain ⟨name, h_name⟩ := h_key.1
      exact absurd h_name (h_head name)

theorem addOption_eq_ok {plot option result : Expression} :
    addOption operation plot option = .ok result
      ↔ ∃ name value, option.Gives name value ∧
          { plot with properties := plot.properties.insert name value } = result := by
  rw [addOption, outcome_bind_eq_ok]
  constructor
  · intro h_added
    obtain ⟨items, h_items, h_added⟩ := h_added
    obtain ⟨h_head, rfl⟩ := itemsOf_eq_ok.mp h_items
    split at h_added
    case h_1 key value h_tail =>
      obtain ⟨_, h_key, h_result⟩ := outcome_bind_eq_ok.mp h_added
      obtain ⟨⟨name, h_name⟩, rfl⟩ := keyOf_eq_ok.mp h_key
      refine ⟨name, value, ⟨h_head, key, h_name, h_tail⟩, ?_⟩
      rw [← Except.ok.inj h_result, Expression.addProperty, h_name]
      rfl
    case h_2 => cases h_added
  · intro h_gives
    obtain ⟨name, value, ⟨h_head, key, h_name, h_tail⟩, rfl⟩ := h_gives
    refine ⟨[key, value], itemsOf_eq_ok.mpr ⟨h_head, h_tail⟩, ?_⟩
    refine outcome_bind_eq_ok.mpr ⟨key, keyOf_eq_ok.mpr ⟨⟨name, h_name⟩, rfl⟩, ?_⟩
    rw [Expression.addProperty, h_name]
    rfl

theorem checkPoint_eq_ok {point : Expression} : checkPoint point = .ok () ↔ point.IsPair := by
  constructor
  · intro h_check
    have h_pair := checkPoint_fulfils point
    rwa [h_check] at h_pair
  · intro h_pair
    obtain ⟨h_head, x, y, h_tail⟩ := h_pair
    obtain ⟨_, _, _, _, h_items⟩ := eq_pair_of_heads h_tail
    exact outcome_bind_eq_ok.mpr ⟨_, itemsOf_eq_ok.mpr ⟨h_head, h_items⟩, rfl⟩

theorem checkBounds_eq_ok {bounds : Expression} :
    checkBounds bounds = .ok () ↔ bounds.IsInterval := by
  constructor
  · intro h_check
    have h_interval := checkBounds_fulfils bounds
    rwa [h_check] at h_interval
  · intro h_interval
    obtain ⟨h_head, low, high, h_tail, h_order⟩ := h_interval
    obtain ⟨_, _, _, _, h_items⟩ := eq_pair_of_heads h_tail
    refine outcome_bind_eq_ok.mpr ⟨_, itemsOf_eq_ok.mpr ⟨h_head, h_items⟩, ?_⟩
    exact if_pos h_order

end Checks

/-! ## Plots that are made -/

/-- The options that an argument holds, if it is given. -/
def optionsOf : Option Expression → List Expression
  | none => []
  | some options => options.tail

section Options

variable {operation : String} {head : Atom} {children : List Expression} {plot : Expression}
  {options : Option Expression}

theorem exists_foldlM_addOption {items : List Expression} :
    (∃ result, items.foldlM (addOption operation) plot = .ok result)
      ↔ ∀ option ∈ items, option.IsOption := by
  induction items generalizing plot with
  | nil => exact ⟨fun _ => nofun, fun _ => ⟨plot, rfl⟩⟩
  | cons option rest ih =>
    simp only [List.foldlM_cons, outcome_bind_eq_ok, addOption_eq_ok, List.forall_mem_cons]
    constructor
    · intro h_run
      obtain ⟨result, _, ⟨name, value, h_gives, rfl⟩, h_rest⟩ := h_run
      exact ⟨⟨name, value, h_gives⟩, ih.mp ⟨result, h_rest⟩⟩
    · intro h_options
      obtain ⟨⟨name, value, h_gives⟩, h_rest⟩ := h_options
      obtain ⟨result, h_rest⟩ := ih.mpr h_rest
      exact ⟨result, _, ⟨name, value, h_gives, rfl⟩, h_rest⟩

theorem isPlot_of_foldlM_addOption {items : List Expression}
    (h_run : items.foldlM (addOption operation) { head, tail := children } = .ok plot) :
    IsPlot head children items plot := by
  induction items using List.reverseRecOn generalizing plot with
  | nil =>
    cases h_run
    exact isPlot_nil
  | append_singleton items option ih =>
    rw [List.foldlM_append, outcome_bind_eq_ok] at h_run
    obtain ⟨before, h_before, h_last⟩ := h_run
    simp only [List.foldlM_cons, List.foldlM_nil, bind_pure, addOption_eq_ok] at h_last
    obtain ⟨name, value, h_gives, rfl⟩ := h_last
    exact (ih h_before).insert h_gives

theorem exists_addOptions :
    (∃ result, addOptions operation plot options = .ok result)
      ↔ ∀ e ∈ options, e.IsOptionList := by
  cases options with
  | none => exact ⟨fun _ => nofun, fun _ => ⟨plot, rfl⟩⟩
  | some e =>
    have h_fold := @exists_foldlM_addOption operation plot e.tail
    simp only [addOptions, outcome_bind_eq_ok, itemsOf_eq_ok, Option.mem_some_iff, forall_eq',
      Expression.IsOptionList, ← h_fold]
    constructor
    · intro h_run
      obtain ⟨result, items, ⟨h_head, rfl⟩, h_items⟩ := h_run
      exact ⟨h_head, result, h_items⟩
    · intro h_run
      obtain ⟨h_head, result, h_items⟩ := h_run
      exact ⟨result, e.tail, ⟨h_head, rfl⟩, h_items⟩

theorem isPlot_of_addOptions
    (h_run : addOptions operation { head, tail := children } options = .ok plot) :
    IsPlot head children (optionsOf options) plot := by
  cases options with
  | none =>
    cases h_run
    exact isPlot_nil
  | some e =>
    obtain ⟨items, h_items, h_run⟩ := outcome_bind_eq_ok.mp h_run
    obtain ⟨-, rfl⟩ := itemsOf_eq_ok.mp h_items
    exact isPlot_of_foldlM_addOption h_run

theorem discretePlot_eq_ok {data : Expression} :
    discretePlot data options = .ok plot ↔ data.IsPointList ∧
      addOptions "discrete-plot" { head := .symbol "discrete-plot", tail := data.tail } options
        = .ok plot := by
  simp only [discretePlot, outcome_bind_eq_ok, itemsOf_eq_ok]
  constructor
  · intro h_plot
    obtain ⟨points, ⟨h_head, rfl⟩, _, h_points, h_options⟩ := h_plot
    refine ⟨⟨h_head, fun point h_point => ?_⟩, h_options⟩
    exact checkPoint_eq_ok.mp (outcome_forM_eq_ok.mp h_points point h_point)
  · intro h_plot
    obtain ⟨⟨h_head, h_points⟩, h_options⟩ := h_plot
    refine ⟨data.tail, ⟨h_head, rfl⟩, (), ?_, h_options⟩
    exact outcome_forM_eq_ok.mpr fun point h_point => checkPoint_eq_ok.mpr (h_points point h_point)

theorem continuousPlot_eq_ok {function bounds : Expression} :
    continuousPlot function bounds options = .ok plot ↔
      (function.kind = .lambda ∧ bounds.IsInterval) ∧
      addOptions "continuous-plot"
        { head := .symbol "continuous-plot", tail := [function, bounds] } options = .ok plot := by
  obtain ⟨head, tail, properties⟩ := function
  cases head with
  | lambda =>
    simp only [continuousPlot, outcome_bind_eq_ok]
    constructor
    · intro h_plot
      obtain ⟨_, h_bounds, h_options⟩ := h_plot
      exact ⟨⟨rfl, checkBounds_eq_ok.mp h_bounds⟩, h_options⟩
    · intro h_plot
      obtain ⟨⟨-, h_bounds⟩, h_options⟩ := h_plot
      exact ⟨(), checkBounds_eq_ok.mpr h_bounds, h_options⟩
  | _ => exact ⟨nofun, fun h_plot => nomatch h_plot.1.1⟩

end Options

/-! ## Calls -/

/-- Where one argument may be left out, it is the last. -/
theorem eq_append_toList_of_accepts {count : Nat} {args : List Expression}
    (h_count : (Arity.between count (count + 1)).accepts args.length = true) :
    ∃ required, ∃ optional : Option Expression,
      required.length = count ∧ args = required ++ optional.toList := by
  simp only [Arity.accepts, Bool.and_eq_true, decide_eq_true_eq] at h_count
  have h_rest : (args.drop count).length ≤ 1 := by
    rw [List.length_drop]
    omega
  refine ⟨args.take count, (args.drop count).head?, List.length_take_of_le h_count.1, ?_⟩
  calc args = args.take count ++ args.drop count := (List.take_append_drop count args).symm
    _ = args.take count ++ (args.drop count).head?.toList := by
      congr 1
      rcases h_drop : args.drop count with _ | ⟨last, others⟩
      · rfl
      · rw [h_drop, List.length_cons] at h_rest
        rw [List.eq_nil_of_length_eq_zero (l := others) (by omega)]
        rfl

namespace Builtin

theorem call_discretePlot (data : Expression) (options : Option Expression) :
    discretePlot.call (data :: options.toList) = PlotLisp.discretePlot data options := by
  cases options with
  | none => rfl
  | some _ => rfl

theorem call_continuousPlot (function bounds : Expression) (options : Option Expression) :
    continuousPlot.call (function :: bounds :: options.toList)
      = PlotLisp.continuousPlot function bounds options := by
  cases options with
  | none => rfl
  | some _ => rfl

end Builtin

/-- With as many arguments as the arity admits, a discrete plot is made exactly of a list of pairs of
numbers, and a continuous one exactly of a lambda and an interval; either takes a list of options besides.
The plot has the name of the procedure at the head and the data for children, and among its properties
is for each option's key the value that the last option for it gives, and nothing else. -/
theorem plots_are_exact (args : List Expression) :
    (Builtin.discretePlot.arity.accepts args.length = true →
      ∃ data options, args = data :: options.toList ∧
        ((∃ plot, Builtin.discretePlot.call args = .ok plot) ↔
          data.IsPointList ∧ ∀ e ∈ options, e.IsOptionList) ∧
        ∀ plot, Builtin.discretePlot.call args = .ok plot →
          IsPlot (.symbol "discrete-plot") data.tail (optionsOf options) plot) ∧
    (Builtin.continuousPlot.arity.accepts args.length = true →
      ∃ function bounds options, args = function :: bounds :: options.toList ∧
        ((∃ plot, Builtin.continuousPlot.call args = .ok plot) ↔
          (function.kind = .lambda ∧ bounds.IsInterval) ∧ ∀ e ∈ options, e.IsOptionList) ∧
        ∀ plot, Builtin.continuousPlot.call args = .ok plot →
          IsPlot (.symbol "continuous-plot") [function, bounds] (optionsOf options) plot) := by
  constructor
  · intro h_count
    obtain ⟨required, options, h_length, h_args⟩ := eq_append_toList_of_accepts h_count
    obtain ⟨data, rfl⟩ := List.length_eq_one_iff.mp h_length
    rw [List.singleton_append] at h_args
    subst h_args
    refine ⟨data, options, rfl, ?_, ?_⟩
    · simp only [Builtin.call_discretePlot, discretePlot_eq_ok, exists_and_left, exists_addOptions]
    · intro plot h_plot
      rw [Builtin.call_discretePlot, discretePlot_eq_ok] at h_plot
      exact isPlot_of_addOptions h_plot.2
  · intro h_count
    obtain ⟨required, options, h_length, h_args⟩ := eq_append_toList_of_accepts h_count
    obtain ⟨function, bounds, rfl⟩ := List.length_eq_two.mp h_length
    rw [List.cons_append, List.singleton_append] at h_args
    subst h_args
    refine ⟨function, bounds, options, rfl, ?_, ?_⟩
    · simp only [Builtin.call_continuousPlot, continuousPlot_eq_ok, exists_and_left,
        exists_addOptions]
    · intro plot h_plot
      rw [Builtin.call_continuousPlot, continuousPlot_eq_ok] at h_plot
      exact isPlot_of_addOptions h_plot.2

/-- A list of two numbers, with a mark as some point of a drawing. -/
def markedPair (x y : Float) : Expression where
  head := .list
  tail := [.number x, .number y]
  properties := NameMap.ofList [(Expression.objectNameProperty, .ofAtom (.string "point"))]

def titleOption (title : String) : Expression :=
  .list [.ofAtom (.string "title"), .ofAtom (.string title)]

/-- Of two titles the second is the plot's, and the points of a plot keep their marks. Nothing is plotted
over bounds in the wrong order. -/
theorem second_title_prevails :
    (∃ plot, Builtin.discretePlot.call
        [.list [markedPair 0.0 0.0, markedPair 1.0 2.0],
          .list [titleOption "first", titleOption "second"]] = .ok plot ∧
      plot.tail = [markedPair 0.0 0.0, markedPair 1.0 2.0] ∧
      ∀ title, ("title", title) ∈ plot.properties.entries ↔ title = .ofAtom (.string "second")) ∧
    ¬ ∃ plot, Builtin.continuousPlot.call
      [.lambda (.list []) .nothing, .list [.number 1.0, .number 0.0]] = .ok plot := by
  have h_title (title : String) :
      (titleOption title).Gives "title" (.ofAtom (.string title)) := ⟨rfl, _, rfl, rfl⟩
  constructor
  · obtain ⟨data, options, h_args, h_made, h_plots⟩ := (plots_are_exact
      [.list [markedPair 0.0 0.0, markedPair 1.0 2.0],
        .list [titleOption "first", titleOption "second"]]).1 (by decide)
    rcases options with _ | options
    · cases h_args
    · cases h_args
      have h_points : (Expression.list [markedPair 0.0 0.0, markedPair 1.0 2.0]).IsPointList := by
        refine ⟨rfl, fun point h_point => ?_⟩
        rcases List.mem_pair.mp h_point with rfl | rfl
        · exact ⟨rfl, 0.0, 0.0, rfl⟩
        · exact ⟨rfl, 1.0, 2.0, rfl⟩
      have h_options :
          (Expression.list [titleOption "first", titleOption "second"]).IsOptionList := by
        refine ⟨rfl, fun option h_option => ?_⟩
        rcases List.mem_pair.mp h_option with rfl | rfl
        · exact ⟨_, _, h_title "first"⟩
        · exact ⟨_, _, h_title "second"⟩
      obtain ⟨plot, h_plot⟩ := h_made.mpr ⟨h_points, fun e h_e => by cases h_e; exact h_options⟩
      refine ⟨plot, h_plot, (h_plots plot h_plot).tail, fun title => ?_⟩
      have h_last : LastGives ([titleOption "first"] ++ [titleOption "second"]) "title" title
          ↔ .ofAtom (.string "second") = title := by
        rw [lastGives_concat (h_title "second"), if_pos rfl]
      rw [(h_plots plot h_plot).properties, eq_comm]
      exact h_last
  · obtain ⟨function, bounds, options, h_args, h_made, -⟩ := (plots_are_exact
      [.lambda (.list []) .nothing, .list [.number 1.0, .number 0.0]]).2 (by decide)
    rcases options with _ | options
    · cases h_args
      intro h_plot
      obtain ⟨⟨-, -, low, high, h_tail, h_order⟩, -⟩ := h_made.mp h_plot
      cases h_tail
      exact absurd h_order (by decide +kernel)
    · cases h_args

end PlotLisp
