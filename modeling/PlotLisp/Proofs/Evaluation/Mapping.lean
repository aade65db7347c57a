import PlotLisp.Proofs.Evaluation.Application
import PlotLisp.Proofs.Evaluation.Purity

/-!
# Mapping a procedure over a list

`map` evaluates all arguments and then calls its procedure on one value after the other, while a list of
calls takes turns: an argument, its call, the next argument. Where nothing is defined on the way, no
evaluation and no call finds the environment changed, so that their order does not matter, and both come
to the same list. Which error comes up first may still depend on the order, and so nothing is said of
errors.

* `Expression.HasFreeBodies` is what is needed of the values in the environment: their lambdas define
  nothing. Of other values nothing is needed, as they are never evaluated again.
* `mapM_bind_mapM_iff` is the change of order, for any computations that leave the environment alone.
* `map_agrees_with_calls` is the conclusion.
-/

namespace PlotLisp

open Evaluation

/-! ## Values whose lambdas define nothing -/

/-- No node of the parameters or of the body of a lambda, wherever it is inside of the expression, has the
name at its head. -/
def Expression.HasFreeBodies (name : String) (e : Expression) : Prop :=
  ∀ lambda, IsInside e lambda → lambda.kind = .lambda → ∀ part ∈ lambda.tail, part.IsFreeOf name

namespace Expression.HasFreeBodies

variable {name : String} {e : Expression}

theorem of_isFreeOf (h_free : e.IsFreeOf name) : e.HasFreeBodies name :=
  fun _ h_inside _ => (h_free.inside h_inside).child

theorem child (h_e : e.HasFreeBodies name) : ∀ child ∈ e.tail, child.HasFreeBodies name :=
  fun _ h_child lambda h_inside => h_e lambda (.child h_child h_inside)

theorem property (h_e : e.HasFreeBodies name) :
    ∀ entry ∈ e.properties.entries, entry.2.HasFreeBodies name :=
  fun _ h_entry lambda h_inside => h_e lambda (.property h_entry h_inside)

theorem of_parts (h_lambda : e.kind = .lambda → ∀ part ∈ e.tail, part.IsFreeOf name)
    (h_tail : ∀ child ∈ e.tail, child.HasFreeBodies name)
    (h_properties : ∀ entry ∈ e.properties.entries, entry.2.HasFreeBodies name) :
    e.HasFreeBodies name := by
  intro lambda h_inside
  cases h_inside with
  | whole => exact h_lambda
  | child h_child h_below => exact h_tail _ h_child lambda h_below
  | property h_entry h_below => exact h_properties _ h_entry lambda h_below

/-- A node that is made new has no properties. -/
theorem node {head : Atom} {tail : List Expression} (h_head : head.kind ≠ .lambda)
    (h_tail : ∀ child ∈ tail, child.HasFreeBodies name) :
    Expression.HasFreeBodies name { head, tail } :=
  of_parts (fun h_lambda => absurd h_lambda h_head) h_tail NameMap.forall_mem_empty

theorem closedUnderCalls (name : String) : ClosedUnderCalls (Expression.HasFreeBodies name) where
  nothing := node nofun nofun
  bareNumber h_number := by
    rcases h_number with ⟨x, rfl⟩ | ⟨z, rfl⟩
    · exact node nofun nofun
    · exact node nofun nofun
  list h_items := node nofun h_items
  items h_list _ := h_list.child
  append {list item} h_list h_head h_item := by
    refine of_parts (fun h_lambda => ?_) ?_ h_list.property
    · change list.head.kind = .lambda at h_lambda
      rw [h_head] at h_lambda
      cases h_lambda
    · exact List.forall_mem_append.mpr ⟨h_list.child, List.forall_mem_singleton.mpr h_item⟩
  properties h_e := h_e.property
  addProperty {e value} h_e _ h_value :=
    of_parts (h_e e (.whole e)) h_e.child (NameMap.forall_mem_insert h_e.property h_value)
  discretePlot _ h_points := node nofun h_points
  continuousPlot _ h_function _ h_bounds :=
    node nofun (List.forall_mem_cons.mpr ⟨h_function, List.forall_mem_singleton.mpr h_bounds⟩)

theorem excludesDefinitions : ExcludesDefinitions (Expression.HasFreeBodies "define") where
  closed := closedUnderCalls "define"
  ofFree := of_isFreeOf
  parts {e} h_e := h_e e (.whole e)

end Expression.HasFreeBodies

/-- It is enough to look at the lambdas that can be got at through the names. -/
theorem Environment.holdsOnly_of_lambdas {env : Environment}
    (h_lambdas : ∀ name lambda, env.HasLambda IsInside name lambda → lambda.IsFreeOf "define") :
    env.HoldsOnly (Expression.HasFreeBodies "define") where
  values e h_holds lambda h_inside h_kind := by
    have h_free : lambda.IsFreeOf "define" := by
      cases h_holds with
      | inGlobals h_bound h_value =>
        exact h_lambdas _ lambda (.inGlobals h_bound h_value h_inside h_kind)
      | @inFrames frame name _ h_frame h_bound =>
        have h_found : some e ∈ env.inFrames name := List.mem_map.mpr ⟨frame, h_frame, h_bound⟩
        exact h_lambdas name lambda (.inFrames h_found h_inside h_kind)
    exact h_free.child
  parts {name lambda} h_bound := (h_lambdas name lambda (.called h_bound)).child

/-! ## Changing the order -/

section Order

variable {α β γ : Type} {env left : Environment}

theorem bind_eq_ok_iff {computation : Evaluation α} {next : α → Evaluation β} {b : β} :
    (computation >>= next) env = some (.ok b, left)
      ↔ ∃ a middle, computation env = some (.ok a, middle) ∧ next a middle = some (.ok b, left) := by
  rw [bind_apply]
  rcases computation env with _ | ⟨error | a, middle⟩ <;> simp

theorem bind_pure_eq_ok_iff {computation : Evaluation α} {result : α → β} {b : β} :
    (computation >>= fun a => pure (result a)) env = some (.ok b, left)
      ↔ ∃ a, computation env = some (.ok a, left) ∧ b = result a := by
  simp only [bind_eq_ok_iff, pure_apply, Option.some.injEq, Prod.mk.injEq, Except.ok.injEq]
  constructor
  · rintro ⟨a, _, h_a, rfl, rfl⟩
    exact ⟨a, h_a, rfl⟩
  · rintro ⟨a, h_a, rfl⟩
    exact ⟨a, left, h_a, rfl, rfl⟩

/-- Where all leave the environment alone, all that is done first may be done before all that is done next,
or the two in turns. -/
theorem mapM_bind_mapM_iff {Q : β → Prop} {R : γ → Prop} {f : α → Evaluation β}
    {g : β → Evaluation γ} {items : List α} {results : List γ}
    (h_first : ∀ a ∈ items, LeavesAlone env Q (f a)) (h_next : ∀ b, Q b → LeavesAlone env R (g b)) :
    (items.mapM f >>= fun values => values.mapM g) env = some (.ok results, left)
      ↔ (items.mapM fun a => f a >>= g) env = some (.ok results, left) := by
  induction items generalizing results with
  | nil => rfl
  | cons a rest ih =>
    obtain ⟨h_a, h_rest⟩ := List.forall_mem_cons.mp h_first
    have h_values := Upholds.mapM h_rest
    simp only [List.mapM_cons, bind_assoc, pure_bind, bind_eq_ok_iff, pure_apply, Option.some.injEq,
      Prod.mk.injEq, Except.ok.injEq] at ih ⊢
    constructor
    · rintro ⟨b, _, h_b, values, _, h_run, c, _, h_c, others, _, h_calls, rfl, rfl⟩
      -- nothing has been changed before the first call, so that it may as well come at once
      obtain ⟨rfl, h_q⟩ := h_a _ _ _ rfl h_b
      obtain ⟨rfl, -⟩ := h_values _ _ _ rfl h_run
      obtain ⟨rfl, -⟩ := h_next b h_q _ _ _ rfl h_c
      exact ⟨b, _, h_b, c, _, h_c, others, _, (ih h_rest).mp ⟨values, _, h_run, h_calls⟩, rfl, rfl⟩
    · rintro ⟨b, _, h_b, c, _, h_c, others, _, h_turns, rfl, rfl⟩
      obtain ⟨rfl, h_q⟩ := h_a _ _ _ rfl h_b
      obtain ⟨rfl, -⟩ := h_next b h_q _ _ _ rfl h_c
      obtain ⟨values, _, h_run, h_calls⟩ := (ih h_rest).mpr h_turns
      obtain ⟨rfl, -⟩ := h_values _ _ _ rfl h_run
      exact ⟨b, _, h_b, values, _, h_run, c, _, h_c, others, _, h_calls, rfl, rfl⟩

end Order

/-! ## The two forms -/

/-- The application of a procedure to each item of a list, which is written out. -/
def mapOf (name : String) (args : List Expression) : Expression :=
  { head := .symbol SpecialForm.map.name, tail := [.ofAtom (.symbol name), .list args] }

/-- A list of calls of a procedure, each with one argument. -/
def listOfCalls (name : String) (args : List Expression) : Expression :=
  .list (args.map fun arg => callOf name [arg])

section Forms

variable {name : String} {env left : Environment} {args : List Expression} {value : Expression}

theorem evalWithin_mapOf (h_procedure : (env.procedure? name).isSome) (args : List Expression)
    (depth : Nat) :
    evalWithin (depth + 2) (mapOf name args) env
      = ((args.mapM (evalWithin depth) >>= fun values =>
          values.mapM fun value => callProcedure (evalWithin (depth + 1)) (.symbol name) [value])
        >>= fun results => pure (.list results)) env := by
  show (procedureAndItems (evalWithin (depth + 1)) .map [.ofAtom (.symbol name), .list args] >>=
    fun found => (found.2.mapM fun item =>
      callProcedure (evalWithin (depth + 1)) found.1 [item]) >>=
      fun results => pure (Expression.list results)) env = _
  rw [bind_apply, procedureAndItems_of_procedure h_procedure, ← bind_apply, bind_assoc, bind_assoc]
  rfl

/-- The values of all arguments come first, and then all calls. -/
theorem evaluates_mapOf_iff (h_procedure : (env.procedure? name).isSome) :
    Evaluates env (mapOf name args) (.ok value) left
      ↔ ∃ depth results,
        (args.mapM (evalWithin depth) >>= fun values =>
          values.mapM fun arg => callProcedure (evalWithin depth) (.symbol name) [arg]) env
            = some (.ok results, left) ∧ value = .list results := by
  constructor
  · rintro ⟨depth, h_map⟩
    have h_deeper := evalWithin_mono (Nat.le_add_right depth 2) _ env _ h_map
    rw [evalWithin_mapOf h_procedure, bind_pure_eq_ok_iff] at h_deeper
    obtain ⟨results, h_results, h_value⟩ := h_deeper
    -- the arguments have their values one level further up as well, where the calls are made
    have h_extends := (Extends.mapM (evalWithin_extends_succ depth) args).bind fun values =>
      .refl (values.mapM fun arg => callProcedure (evalWithin (depth + 1)) (.symbol name) [arg])
    exact ⟨depth + 1, results, h_extends env _ h_results, h_value⟩
  · rintro ⟨depth, results, h_results, h_value⟩
    have h_extends := (Extends.refl (args.mapM (evalWithin depth))).bind fun values =>
      Extends.mapM (fun arg =>
        callProcedure_extends (evalWithin_extends_succ depth) (.symbol name) [arg]) values
    refine ⟨depth + 2, ?_⟩
    rw [evalWithin_mapOf h_procedure, bind_pure_eq_ok_iff]
    exact ⟨results, h_extends env _ h_results, h_value⟩

theorem evalWithin_listOfCalls (h_name : ∀ form : SpecialForm, name ≠ form.name)
    (args : List Expression) (depth : Nat) :
    evalWithin (depth + 2) (listOfCalls name args)
      = (args.mapM fun arg => evalWithin depth arg >>= fun value =>
          callProcedure (evalWithin depth) (.symbol name) [value])
        >>= fun results => pure (.list results) := by
  have h_call (arg : Expression) : evalWithin (depth + 1) (callOf name [arg])
      = evalWithin depth arg >>= fun value =>
          callProcedure (evalWithin depth) (.symbol name) [value] := by
    rw [evalWithin_callOf h_name (List.cons_ne_nil arg [])]
    simp only [List.mapM_cons, List.mapM_nil, bind_assoc, pure_bind]
  rw [listOfCalls, evalWithin_list, List.mapM_map]
  simp only [Function.comp_def, h_call]

/-- The value of each argument is followed by its call. -/
theorem evaluates_listOfCalls_iff (h_name : ∀ form : SpecialForm, name ≠ form.name) :
    Evaluates env (listOfCalls name args) (.ok value) left
      ↔ ∃ depth results,
        (args.mapM fun arg => evalWithin depth arg >>= fun value =>
          callProcedure (evalWithin depth) (.symbol name) [value]) env
            = some (.ok results, left) ∧ value = .list results := by
  constructor
  · rintro ⟨depth, h_list⟩
    have h_deeper := evalWithin_mono (Nat.le_add_right depth 2) _ env _ h_list
    rw [evalWithin_listOfCalls h_name, bind_pure_eq_ok_iff] at h_deeper
    exact ⟨depth, h_deeper⟩
  · rintro ⟨depth, h_results⟩
    refine ⟨depth + 2, ?_⟩
    rwa [evalWithin_listOfCalls h_name, bind_pure_eq_ok_iff]

end Forms

/-! ## Their agreement -/

/-- Where neither the arguments nor any lambda that can be got at define anything, `map` comes to a value
exactly when the list of calls comes to that value, for every procedure but the special forms, and for
any number of arguments. -/
theorem map_agrees_with_calls {name : String} {env left : Environment} {args : List Expression}
    {value : Expression} (h_name : ∀ form : SpecialForm, name ≠ form.name)
    (h_procedure : (env.procedure? name).isSome)
    (h_args : ∀ arg ∈ args, arg.IsFreeOf "define")
    (h_lambdas : ∀ name lambda, env.HasLambda IsInside name lambda → lambda.IsFreeOf "define") :
    Evaluates env (mapOf name args) (.ok value) left
      ↔ Evaluates env (listOfCalls name args) (.ok value) left := by
  have h_values := Expression.HasFreeBodies.excludesDefinitions
  have h_env := Environment.holdsOnly_of_lambdas h_lambdas
  have h_alone := evalWithin_leavesAlone_of_holdsOnly h_values
  rw [evaluates_mapOf_iff h_procedure, evaluates_listOfCalls_iff h_name]
  refine exists_congr fun depth => exists_congr fun results => and_congr_left fun _ => ?_
  have h_call (value : Expression) (h_value : value.HasFreeBodies "define") :
      LeavesAlone env (Expression.HasFreeBodies "define")
        (callProcedure (evalWithin depth) (.symbol name) [value]) :=
    callProcedure_leavesAlone h_values (h_alone depth) h_env (.symbol name)
      (List.forall_mem_singleton.mpr h_value)
  exact mapM_bind_mapM_iff (fun arg h_arg => h_alone depth arg env (h_args arg h_arg) h_env) h_call

/-- A string with a definition behind it, which is carried along and never evaluated. -/
def quotedDefinition : Expression where
  head := .string "s"
  tail := [{ head := .symbol "define", tail := [.ofAtom (.symbol "f"), .ofAtom (.string "t")] }]

/-- Inside of a call that was given the string, where `f` gives its argument back. -/
def insideCallWithQuote : Environment where
  globals := whereIdentityIsCalled.globals
  frames := [NameMap.ofList [("p", quotedDefinition)]]

theorem quotedDefinition_holds_no_lambda {part : Expression}
    (h_inside : IsInside quotedDefinition part) : part.kind ≠ .lambda := by
  rcases h_inside with _ | ⟨h_child, h_inside⟩ | h_property
  · decide
  · cases List.mem_singleton.mp h_child
    rcases h_inside with _ | ⟨h_child, h_inside⟩ | h_property
    · decide
    · rcases List.mem_pair.mp h_child with rfl | rfl
      · cases h_inside.eq_ofAtom
        decide
      · cases h_inside.eq_ofAtom
        decide
    · cases h_property
  · cases h_property

theorem insideCallWithQuote_lambdas {name : String} {lambda : Expression}
    (h_has : insideCallWithQuote.HasLambda IsInside name lambda) : lambda.IsFreeOf "define" := by
  have h_symbol : (Expression.ofAtom (.symbol "x")).IsFreeOf "define" := .atom (by decide)
  have h_globals : ∀ entry ∈ insideCallWithQuote.globals.entries, entry.2.IsFreeOf "define" := by
    refine NameMap.forall_mem_insert (Environment.isFreeOf_of_initial _) ?_
    rintro e ⟨⟩
    refine .node nofun (List.forall_mem_cons.mpr ⟨?_, List.forall_mem_singleton.mpr h_symbol⟩)
    exact .node nofun (List.forall_mem_singleton.mpr h_symbol)
  cases h_has with
  | called h_bound => exact h_globals _ (NameMap.mem_entries_of_get? h_bound) lambda rfl
  | inGlobals h_bound h_value h_inside =>
    exact (h_globals _ (NameMap.mem_entries_of_get? h_bound) _ h_value).inside h_inside
  | inFrames h_bound h_inside h_kind =>
    obtain ⟨frame, h_frame, h_found⟩ := List.mem_map.mp h_bound
    cases List.mem_singleton.mp h_frame
    cases List.mem_singleton.mp (NameMap.mem_entries_of_get? h_found)
    exact absurd h_kind (quotedDefinition_holds_no_lambda h_inside)

/-- The definition behind a string disturbs neither form. -/
theorem map_agrees_past_quoted_definition :
    Evaluates insideCallWithQuote (mapOf "f" [.ofAtom (.symbol "p"), .ofAtom (.string "t")])
        (.ok (.list [quotedDefinition, .ofAtom (.string "t")])) insideCallWithQuote ∧
      Evaluates insideCallWithQuote (listOfCalls "f" [.ofAtom (.symbol "p"), .ofAtom (.string "t")])
        (.ok (.list [quotedDefinition, .ofAtom (.string "t")])) insideCallWithQuote := by
  have h_name : ∀ form : SpecialForm, "f" ≠ form.name := SpecialForm.ofName?_eq_none_iff.mp rfl
  have h_args : ∀ arg ∈ [Expression.ofAtom (.symbol "p"), .ofAtom (.string "t")],
      arg.IsFreeOf "define" :=
    List.forall_mem_cons.mpr ⟨.atom (by decide), List.forall_mem_singleton.mpr (.atom nofun)⟩
  have h_map : Evaluates insideCallWithQuote
      (mapOf "f" [.ofAtom (.symbol "p"), .ofAtom (.string "t")])
      (.ok (.list [quotedDefinition, .ofAtom (.string "t")])) insideCallWithQuote := ⟨5, rfl⟩
  have h_procedure : (insideCallWithQuote.procedure? "f").isSome := rfl
  exact ⟨h_map, (map_agrees_with_calls h_name h_procedure h_args
    fun _ _ => insideCallWithQuote_lambdas).mp h_map⟩

end PlotLisp
