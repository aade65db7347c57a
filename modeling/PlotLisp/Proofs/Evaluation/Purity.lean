import PlotLisp.Proofs.Evaluation.Coincidence
import PlotLisp.Proofs.Evaluation.Values

/-!
# Evaluation without definitions

Only `define` binds a name for longer than a call. An expression that is free of it, in an environment
that holds nothing but what is free of it, leaves the environment as it was, whether it ends with a
value or an error; and a value that it ends with is free of it again.

That a name does not stand at the head of any node is said of all that is inside of an expression,
properties included: a lambda can be taken out of a property and called. Calls are why the whole
environment has to be free of `define`, not only the names that the expression mentions. Of the values
in it no more is needed than that their lambdas define nothing: the rules are shown for any property of
values that sees to that (`ExcludesDefinitions`).
-/

namespace PlotLisp

open Evaluation

/-! ## Names that head no node -/

/-- No node inside of the expression has the name at its head. -/
def Expression.IsFreeOf (name : String) (e : Expression) : Prop :=
  ∀ part, IsInside e part → part.head ≠ .symbol name

namespace Expression.IsFreeOf

variable {name : String} {e : Expression}

theorem head (h_free : e.IsFreeOf name) : e.head ≠ .symbol name := h_free e (.whole e)

theorem child (h_free : e.IsFreeOf name) : ∀ child ∈ e.tail, child.IsFreeOf name :=
  fun _ h_child part h_part => h_free part (.child h_child h_part)

theorem property (h_free : e.IsFreeOf name) :
    ∀ entry ∈ e.properties.entries, entry.2.IsFreeOf name :=
  fun _ h_entry part h_part => h_free part (.property h_entry h_part)

theorem inside {part : Expression} (h_inside : IsInside e part) (h_free : e.IsFreeOf name) :
    part.IsFreeOf name := by
  induction h_inside with
  | whole => exact h_free
  | child h_child _ ih => exact ih (h_free.child _ h_child)
  | property h_entry _ ih => exact ih (h_free.property _ h_entry)

theorem of_parts (h_head : e.head ≠ .symbol name) (h_tail : ∀ child ∈ e.tail, child.IsFreeOf name)
    (h_properties : ∀ entry ∈ e.properties.entries, entry.2.IsFreeOf name) : e.IsFreeOf name := by
  intro part h_part
  cases h_part with
  | whole => exact h_head
  | child h_child h_below => exact h_tail _ h_child part h_below
  | property h_entry h_below => exact h_properties _ h_entry part h_below

/-- A node that is made new has no properties. -/
theorem node {head : Atom} {tail : List Expression} (h_head : head ≠ .symbol name)
    (h_tail : ∀ child ∈ tail, child.IsFreeOf name) :
    Expression.IsFreeOf name { head, tail } :=
  of_parts h_head h_tail NameMap.forall_mem_empty

theorem atom {head : Atom} (h_head : head ≠ .symbol name) : (ofAtom head).IsFreeOf name :=
  node h_head (List.forall_mem_nil _)

/-- Procedures put no symbol at the head of a node, except for the two names of plots. -/
theorem closedUnderCalls (h_discrete : name ≠ "discrete-plot")
    (h_continuous : name ≠ "continuous-plot") :
    ClosedUnderCalls (Expression.IsFreeOf name) where
  nothing := atom nofun
  bareNumber h_number := by
    rcases h_number with ⟨x, rfl⟩ | ⟨z, rfl⟩
    · exact atom nofun
    · exact atom nofun
  list h_items := node nofun h_items
  items h_list _ := h_list.child
  append h_list _ h_item :=
    of_parts h_list.head
      (List.forall_mem_append.mpr ⟨h_list.child, List.forall_mem_singleton.mpr h_item⟩)
      h_list.property
  properties h_e := h_e.property
  addProperty h_e _ h_value :=
    of_parts h_e.head h_e.child (NameMap.forall_mem_insert h_e.property h_value)
  discretePlot _ h_points := node (fun h => h_discrete (Atom.symbol.inj h).symm) h_points
  continuousPlot _ h_function _ h_bounds :=
    node (fun h => h_continuous (Atom.symbol.inj h).symm)
      (List.forall_mem_cons.mpr ⟨h_function, List.forall_mem_singleton.mpr h_bounds⟩)

end Expression.IsFreeOf

/-- A property of values that leaves no room for a definition: what is free of `define` has it, calls of
procedures keep it, and in a lambda that has it neither the parameters nor the body define anything. -/
structure ExcludesDefinitions (V : Expression → Prop) : Prop where
  closed : ClosedUnderCalls V
  ofFree : ∀ {e}, e.IsFreeOf "define" → V e
  parts : ∀ {e}, V e → e.kind = .lambda → ∀ part ∈ e.tail, part.IsFreeOf "define"

theorem Expression.IsFreeOf.excludesDefinitions :
    ExcludesDefinitions (Expression.IsFreeOf "define") where
  closed := closedUnderCalls (by decide) (by decide)
  ofFree := id
  parts h_e _ := h_e.child

/-! ## Environments -/

/-- No node of what is bound has the name at its head. -/
def Binding.IsFreeOf (name : String) (binding : Binding) : Prop :=
  ∀ e ∈ binding.expression?, e.IsFreeOf name

/-- The expression is what a name stands for, among the globals or in a frame. -/
inductive Environment.Holds (env : Environment) : Expression → Prop where
  | inGlobals {name binding e} (h_bound : env.globals.get? name = some binding)
      (h_value : binding.expression? = some e) : Holds env e
  | inFrames {frame name e} (h_frame : frame ∈ env.frames) (h_bound : frame.get? name = some e) :
      Holds env e

namespace Environment

variable {env : Environment} {name : String} {e : Expression}

theorem holds_of_local? (h_found : env.local? name = some e) : env.Holds e := by
  obtain ⟨frame, h_frame, h_value⟩ := List.exists_of_findSome?_eq_some h_found
  exact .inFrames h_frame h_value

theorem holds_of_value? (h_found : env.value? name = some e) : env.Holds e := by
  unfold value? at h_found
  split at h_found
  · rename_i h_local
    exact holds_of_local? (h_local.trans h_found)
  · obtain ⟨binding, h_bound, h_value⟩ := Option.bind_eq_some_iff.mp h_found
    refine .inGlobals h_bound ?_
    cases binding <;> cases h_value <;> rfl

theorem holds_of_procedure? (h_found : env.procedure? name = some (.lambda e)) : env.Holds e := by
  unfold procedure? at h_found
  split at h_found
  · rename_i value h_local
    split at h_found
    · cases h_found
      exact holds_of_local? h_local
    · cases h_found
  · obtain ⟨binding, h_bound, h_lambda⟩ := Option.bind_eq_some_iff.mp h_found
    refine .inGlobals h_bound ?_
    cases binding <;> cases h_lambda
    rfl

theorem holds_of_lookup? (h_found : env.lookup? name = some e) : env.Holds e := by
  unfold lookup? at h_found
  split at h_found
  · rename_i h_value
    exact holds_of_value? (h_value.trans h_found)
  · split at h_found
    · rename_i h_procedure
      cases h_found
      exact holds_of_procedure? h_procedure
    · cases h_found

/-- No node of what the environment holds has the name at its head. -/
def IsFreeOf (name : String) (env : Environment) : Prop := ∀ e, env.Holds e → e.IsFreeOf name

theorem IsFreeOf.of_entries
    (h_globals : ∀ entry ∈ env.globals.entries, entry.2.IsFreeOf name)
    (h_frames : ∀ frame ∈ env.frames, ∀ entry ∈ frame.entries, entry.2.IsFreeOf name) :
    env.IsFreeOf name := by
  intro e h_holds
  cases h_holds with
  | inGlobals h_bound h_value => exact h_globals _ (NameMap.mem_entries_of_get? h_bound) e h_value
  | inFrames h_frame h_bound => exact h_frames _ h_frame _ (NameMap.mem_entries_of_get? h_bound)

/-- What is bound from the start is free of all names: it is a number, or no expression. -/
theorem isFreeOf_of_initial (name : String) :
    ∀ entry ∈ initialGlobals.entries, entry.2.IsFreeOf name := by
  refine NameMap.forall_mem_ofList (List.forall_mem_append.mpr ⟨?_, ?_⟩)
  · intro entry h_entry e h_e
    obtain ⟨⟨key, value⟩, h_constant, rfl⟩ := List.mem_map.mp h_entry
    cases h_e
    simp only [Builtin.constants, List.mem_cons, List.not_mem_nil, or_false] at h_constant
    rcases h_constant with h | h | h <;> cases h <;> exact .atom nofun
  · intro entry h_entry e h_e
    obtain ⟨procedure, -, rfl⟩ := List.mem_map.mp h_entry
    cases h_e

/-- All that the environment holds has the property, and what can be called by a global name defines
nothing. -/
structure HoldsOnly (V : Expression → Prop) (env : Environment) : Prop where
  values : ∀ e, env.Holds e → V e
  parts : ∀ {name lambda}, env.globals.get? name = some (.lambda lambda) →
    ∀ part ∈ lambda.tail, part.IsFreeOf "define"

theorem IsFreeOf.holdsOnly (h_env : env.IsFreeOf "define") :
    env.HoldsOnly (Expression.IsFreeOf "define") where
  values := h_env
  parts h_bound := (h_env _ (.inGlobals h_bound rfl)).child

/-- Wherever the name of a lambda is found, the lambda defines nothing. -/
theorem HoldsOnly.procedure? {V : Expression → Prop} (h_values : ExcludesDefinitions V)
    (h_env : env.HoldsOnly V) {lambda : Expression}
    (h_found : env.procedure? name = some (.lambda lambda)) :
    ∀ part ∈ lambda.tail, part.IsFreeOf "define" := by
  unfold Environment.procedure? at h_found
  split at h_found
  · rename_i h_local
    split at h_found
    · rename_i h_kind
      cases h_found
      exact h_values.parts (h_env.values _ (holds_of_local? h_local)) h_kind
    · cases h_found
  · obtain ⟨binding, h_bound, h_lambda⟩ := Option.bind_eq_some_iff.mp h_found
    cases binding <;> cases h_lambda
    exact h_env.parts h_bound

/-- Inside of a call that was made in `env`, with nothing but parameters bound so far. -/
def IsCallIn (V : Expression → Prop) (env inner : Environment) : Prop :=
  inner.popFrame = env ∧ inner.HoldsOnly V

section Calls

variable {V : Expression → Prop}

theorem HoldsOnly.isCallIn_pushFrame (h_env : env.HoldsOnly V) : IsCallIn V env env.pushFrame := by
  refine ⟨rfl, fun e h_holds => h_env.values e ?_, h_env.parts⟩
  cases h_holds with
  | inGlobals h_bound h_value => exact .inGlobals h_bound h_value
  | inFrames h_frame h_bound =>
    rcases List.mem_cons.mp h_frame with rfl | h_outer
    · cases h_bound
    · exact .inFrames h_outer h_bound

theorem IsCallIn.bindParameter {inner : Environment} (h_inner : IsCallIn V env inner)
    (parameter : Atom) {value : Expression} (h_value : V value) :
    Fulfils (fun _ => True) (IsCallIn V env) (inner.bindParameter parameter value) := by
  obtain ⟨rfl, h_holds⟩ := h_inner
  obtain ⟨globals, frames⟩ := inner
  cases parameter with
  | symbol parameter =>
    cases frames with
    | nil => trivial
    | cons frame outer =>
      refine ⟨rfl, fun e h_e => ?_, h_holds.parts⟩
      cases h_e with
      | inGlobals h_bound h_global => exact h_holds.values e (.inGlobals h_bound h_global)
      | @inFrames found other _ h_frame h_bound =>
        rcases List.mem_cons.mp h_frame with rfl | h_outer
        · rw [NameMap.get?_insert] at h_bound
          split at h_bound
          · cases h_bound
            exact h_value
          · exact h_holds.values e (.inFrames List.mem_cons_self h_bound)
        · exact h_holds.values e (.inFrames (List.mem_cons_of_mem _ h_outer) h_bound)
  | _ => trivial

end Calls

end Environment

/-! ## Rules of evaluation -/

/-- Begun in `env`, the computation leaves it as it is, and a result of it satisfies `Q`. -/
abbrev LeavesAlone {α : Type} (env : Environment) (Q : α → Prop) (computation : Evaluation α) : Prop :=
  Upholds (· = env) (fun _ => True) Q computation

theorem makeLambda_isFreeOf {name : String} {children : List Expression}
    (h_children : ∀ child ∈ children, child.IsFreeOf name) :
    Fulfils (fun _ => True) (Expression.IsFreeOf name) (makeLambda children) := by
  unfold makeLambda
  split
  case h_2 => trivial
  rename_i parameters body
  dsimp only
  split
  · trivial
  obtain ⟨h_parameters, h_body⟩ := List.forall_mem_cons.mp h_children
  refine .node nofun (List.forall_mem_cons.mpr ⟨.node nofun ?_, h_body⟩)
  unfold parametersOf
  split
  · exact h_parameters.child
  · exact List.forall_mem_cons.mpr ⟨.atom h_parameters.head, h_parameters.child⟩

section Rules

variable {V : Expression → Prop} {eval : Evaluator} {env : Environment}
  (h_values : ExcludesDefinitions V)
  (h_eval : ∀ e env, e.IsFreeOf "define" → env.HoldsOnly V → LeavesAlone env V (eval e))
  (h_env : env.HoldsOnly V)

include h_values h_env

theorem evalTerminal_leavesAlone {e : Expression} (h_e : e.IsFreeOf "define") :
    LeavesAlone env V (evalTerminal e) := by
  unfold evalTerminal
  split
  · refine .environment_bind fun here h_here => ?_
    subst h_here
    split
    · rename_i value h_found
      exact .pure (h_env.values value (Environment.holds_of_lookup? h_found))
    · exact .fail trivial
  · exact .pure (h_values.ofFree h_e)
  · exact .fail trivial

include h_eval

omit h_values in
theorem callLambda_leavesAlone (name : String) {lambda : Expression} {args : List Expression}
    (h_lambda : ∀ part ∈ lambda.tail, part.IsFreeOf "define") (h_args : ∀ arg ∈ args, V arg) :
    LeavesAlone env V (callLambda eval name lambda args) := by
  unfold callLambda
  split
  case h_2 => exact .fail trivial
  rename_i parameters body h_tail
  split
  case isFalse => exact .fail trivial
  have h_body : body.IsFreeOf "define" := h_lambda body (by simp [h_tail])
  refine .inFrame (J := Environment.IsCallIn V env) ?_ ?_ fun inner h_inner => h_inner.1
  · rintro _ rfl
    exact h_env.isCallIn_pushFrame
  refine Upholds.bind (.forM fun pair h_pair => .update fun inner h_inner => ?_) fun _ _ => ?_
  · exact h_inner.bindParameter _ (h_args _ (List.of_mem_zip h_pair).2)
  · intro inner result left h_inner h_run
    obtain ⟨rfl, h_result⟩ := h_eval body inner h_body h_inner.2 inner result left rfl h_run
    exact ⟨h_inner, h_result⟩

theorem callProcedure_leavesAlone (head : Atom) {args : List Expression}
    (h_args : ∀ arg ∈ args, V arg) : LeavesAlone env V (callProcedure eval head args) := by
  unfold callProcedure
  split
  case h_2 => exact .fail trivial
  refine .environment_bind fun here h_here => ?_
  subst h_here
  split
  case h_1 procedure _ =>
    have h_call := Builtin.call_fulfils h_values.closed h_args procedure
    exact .ofExcept (h_call.mono_error fun _ _ => trivial)
  case h_2 lambda h_found =>
    exact callLambda_leavesAlone h_eval h_env _ (h_env.procedure? h_values h_found) h_args
  case h_3 => exact .fail trivial

/-! ### Special forms -/

section SpecialForms

variable {children : List Expression} (h_children : ∀ child ∈ children, child.IsFreeOf "define")

include h_children

omit h_values in
theorem evalBegin_leavesAlone : LeavesAlone env V (evalBegin eval children) := by
  induction children with
  | nil => exact .fail trivial
  | cons first rest ih =>
    obtain ⟨h_first, h_rest⟩ := List.forall_mem_cons.mp h_children
    cases rest with
    | nil => exact h_eval first env h_first h_env
    | cons second others => exact (h_eval first env h_first h_env).bind fun _ _ => ih h_rest

theorem procedureAndItems_leavesAlone (form : SpecialForm) :
    LeavesAlone env (fun found => ∀ item ∈ found.2, V item)
      (procedureAndItems eval form children) := by
  unfold procedureAndItems
  split
  case h_2 => exact .fail trivial
  case h_3 => exact .fail trivial
  rename_i name _ list
  refine .environment_bind fun _ _ => ?_
  split
  · exact .fail trivial
  refine (h_eval list env (h_children list (by simp)) h_env).bind fun value h_value => ?_
  refine Upholds.bind (Q := fun items => ∀ item ∈ items, V item) (.ofExcept ?_)
    fun items h_items => .pure h_items
  -- a list is asked for, and anything else is an error
  unfold itemsOf
  split
  · rename_i h_list
    exact h_values.closed.items h_value h_list
  · trivial

theorem evalSpecialForm_leavesAlone {form : SpecialForm} (h_form : form ≠ .define) :
    LeavesAlone env V (evalSpecialForm eval form children) := by
  have h_found := procedureAndItems_leavesAlone h_values h_eval h_env h_children
  cases form with
  | define => exact absurd rfl h_form
  | begin => exact evalBegin_leavesAlone h_eval h_env h_children
  | apply =>
    exact (h_found .apply).bind fun found h_items =>
      callProcedure_leavesAlone h_values h_eval h_env found.1 h_items
  | map =>
    refine (h_found .map).bind fun found h_items => ?_
    refine Upholds.bind (.mapM fun item h_item => ?_) fun results h_results =>
      .pure (h_values.closed.list h_results)
    exact callProcedure_leavesAlone h_values h_eval h_env found.1
      (List.forall_mem_singleton.mpr (h_items item h_item))

end SpecialForms

/-! ### Nodes -/

theorem evalNode_leavesAlone {e : Expression} (h_e : e.IsFreeOf "define") :
    LeavesAlone env V (evalNode eval e) := by
  have h_tail : LeavesAlone env _ (e.tail.mapM eval) :=
    .mapM fun child h_child => h_eval child env (h_e.child child h_child) h_env
  unfold evalNode
  split
  · exact evalTerminal_leavesAlone h_values h_env h_e
  split
  case h_1 form h_name =>
    refine evalSpecialForm_leavesAlone h_values h_eval h_env h_e.child fun h_define => h_e.head ?_
    subst h_define
    obtain ⟨name, h_symbol, h_form⟩ := Option.bind_eq_some_iff.mp h_name
    obtain rfl : name = "define" := SpecialForm.ofName?_eq_some_iff.mp h_form
    cases h_head : e.head <;> rw [h_head] at h_symbol <;> cases h_symbol
    rfl
  case h_2 =>
  split
  · exact .ofExcept ((makeLambda_isFreeOf h_e.child).mono fun _ => h_values.ofFree)
  · exact h_tail.bind fun values h_items => .pure (h_values.closed.list h_items)
  · exact .pure (h_values.ofFree h_e)
  · exact h_tail.bind fun values h_args => callProcedure_leavesAlone h_values h_eval h_env _ h_args

end Rules

/-! ## Evaluations -/

/-- What is free of `define` leaves the environment alone where all values have a property that excludes
definitions, and it comes to such a value. -/
theorem evalWithin_leavesAlone_of_holdsOnly {V : Expression → Prop}
    (h_values : ExcludesDefinitions V) (depth : Nat) (e : Expression) (env : Environment)
    (h_e : e.IsFreeOf "define") (h_env : env.HoldsOnly V) :
    LeavesAlone env V (evalWithin depth e) := by
  induction depth generalizing e env with
  | zero =>
    intro here result left _ h_run
    cases h_run
  | succ depth ih => exact evalNode_leavesAlone h_values ih h_env h_e

theorem evalWithin_leavesAlone (depth : Nat) (e : Expression) (env : Environment)
    (h_e : e.IsFreeOf "define") (h_env : env.IsFreeOf "define") :
    LeavesAlone env (Expression.IsFreeOf "define") (evalWithin depth e) :=
  evalWithin_leavesAlone_of_holdsOnly Expression.IsFreeOf.excludesDefinitions depth e env h_e
    h_env.holdsOnly

/-- An expression that is free of `define`, in an environment that holds nothing but what is free of it,
leaves the environment as it was, with a value as with an error, and a value is free of it again. -/
theorem evaluation_without_define_is_pure {env left : Environment} {e : Expression}
    {result : Outcome} (h_e : e.IsFreeOf "define") (h_env : env.IsFreeOf "define")
    (h_run : Evaluates env e result left) :
    left = env ∧ ∀ value, result = .ok value → value.IsFreeOf "define" := by
  obtain ⟨depth, h_run⟩ := h_run
  obtain ⟨h_left, h_result⟩ :=
    evalWithin_leavesAlone depth e env h_e h_env env result left rfl h_run
  refine ⟨h_left, ?_⟩
  rintro value rfl
  exact h_result

/-- A lambda that reads a property of its argument. -/
def propertyReader : Expression :=
  .lambda (.list [.ofAtom (.symbol "x")])
    { head := .symbol "get-property", tail := [.ofAtom (.string "k"), .ofAtom (.symbol "x")] }

/-- A list with a lambda in a property. -/
def listWithLambda : Expression :=
  { Expression.list [] with properties := NameMap.ofList [("k", propertyReader)] }

/-- Inside of a call that was given the list. -/
def insideCallWithList : Environment where
  globals := Environment.initialGlobals.insert "f" (.lambda propertyReader)
  frames := [NameMap.ofList [("p", listWithLambda)]]

/-- Reads the property off the list, and calls what it finds. -/
def callOfProperty : Expression where
  head := .symbol "map"
  tail := [.ofAtom (.symbol "f"), .list [.ofAtom (.symbol "p")]]

/-- A call finds a lambda in a property, binds a parameter on the way, and leaves no trace. -/
theorem evaluation_without_define_of_call :
    Evaluates insideCallWithList callOfProperty (.ok (.list [propertyReader])) insideCallWithList ∧
      (Expression.list [propertyReader]).IsFreeOf "define" := by
  have h_symbol (name : String) (h_name : name ≠ "define") :
      (Expression.ofAtom (.symbol name)).IsFreeOf "define" :=
    .atom fun h => h_name (Atom.symbol.inj h)
  have h_reader : propertyReader.IsFreeOf "define" := by
    refine .node nofun (List.forall_mem_cons.mpr ⟨?_, List.forall_mem_singleton.mpr ?_⟩)
    · exact .node nofun (List.forall_mem_singleton.mpr (h_symbol "x" (by decide)))
    · refine .node (by decide) (List.forall_mem_cons.mpr ⟨.atom nofun, ?_⟩)
      exact List.forall_mem_singleton.mpr (h_symbol "x" (by decide))
  have h_list : listWithLambda.IsFreeOf "define" :=
    .of_parts nofun (List.forall_mem_nil _)
      (NameMap.forall_mem_ofList (List.forall_mem_singleton.mpr h_reader))
  have h_env : insideCallWithList.IsFreeOf "define" := by
    refine .of_entries (NameMap.forall_mem_insert (Environment.isFreeOf_of_initial _) ?_) ?_
    · rintro e ⟨⟩
      exact h_reader
    · exact List.forall_mem_singleton.mpr
        (NameMap.forall_mem_ofList (List.forall_mem_singleton.mpr h_list))
  have h_call : callOfProperty.IsFreeOf "define" := by
    refine .node (by decide) (List.forall_mem_cons.mpr ⟨h_symbol "f" (by decide), ?_⟩)
    refine List.forall_mem_singleton.mpr (.node nofun (List.forall_mem_singleton.mpr ?_))
    exact h_symbol "p" (by decide)
  have h_ends : Evaluates insideCallWithList callOfProperty (.ok (.list [propertyReader]))
      insideCallWithList := ⟨5, rfl⟩
  exact ⟨h_ends, (evaluation_without_define_is_pure h_call h_env h_ends).2 _ rfl⟩

end PlotLisp
