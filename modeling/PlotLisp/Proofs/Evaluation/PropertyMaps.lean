import PlotLisp.Proofs.Evaluation.AlikeRuns
import PlotLisp.Proofs.Evaluation.Protection
import PlotLisp.Proofs.Evaluation.Soundness
import PlotLisp.Proofs.Evaluation.UserBindings

/-!
# Properties do not influence evaluation

Properties say how a value is drawn. They are carried along by evaluations, and added to, but only
`get-property` reads one. Where a program never comes to the name of that procedure, evaluation takes
the same course whatever the properties of the program and of all values are.
-/

namespace PlotLisp

/-! ## Trees without their properties -/

/-- The two expressions are the same tree, node by node, whatever properties the nodes have. -/
inductive Expression.SameTree : Expression → Expression → Prop where
  | node {head tail tail' properties properties'} (h_tail : List.Forall₂ SameTree tail tail') :
      SameTree ⟨head, tail, properties⟩ ⟨head, tail', properties'⟩

namespace Expression.SameTree

variable {e e' item item' key key' value value' : Expression}

theorem head_eq (h_same : e.SameTree e') : e.head = e'.head := by
  cases h_same
  rfl

theorem tails (h_same : e.SameTree e') : List.Forall₂ SameTree e.tail e'.tail := by
  cases h_same with
  | node h_tail => exact h_tail

theorem of_parts (h_head : e.head = e'.head) (h_tails : List.Forall₂ SameTree e.tail e'.tail) :
    e.SameTree e' := by
  obtain ⟨head, tail, properties⟩ := e
  obtain ⟨head', tail', properties'⟩ := e'
  cases h_head
  exact .node h_tails

mutual

theorem refl : (e : Expression) → e.SameTree e
  | ⟨_, tail, _⟩ => .node (refl_children tail)

theorem refl_children : (children : List Expression) → List.Forall₂ SameTree children children
  | [] => .nil
  | child :: rest => .cons (refl child) (refl_children rest)

end

theorem append (h_same : e.SameTree e') (h_item : item.SameTree item') :
    (e.append item).SameTree (e'.append item') :=
  of_parts h_same.head_eq (List.rel_append h_same.tails (.cons h_item .nil))

/-- Properties may be set differently on the two sides. -/
theorem addProperty (h_same : e.SameTree e') :
    (e.addProperty key value).SameTree (e'.addProperty key' value') :=
  of_parts h_same.head_eq h_same.tails

end Expression.SameTree

/-- Whatever is part of a text mentions no more than the text does. -/
theorem IsPart.namedIn {names : Set String} {whole part : Expression} (h_part : IsPart whole part)
    (h_whole : whole.NamedIn names) : part.NamedIn names := by
  induction h_part with
  | whole => exact h_whole
  | child _ h_child ih => exact (Expression.namedIn_iff.mp ih).2 _ h_child

/-- The same trees, with no regard to their properties. -/
def Likeness.sameTree : Likeness where
  same := Expression.SameTree
  inside := IsPart
  reads := False
  inside_iff := isPart_iff.trans (by rw [false_and, or_false])
  same_head := Expression.SameTree.head_eq
  same_tail := Expression.SameTree.tails
  same_node := .node
  same_append := Expression.SameTree.append
  same_addProperty h_same _ _ := h_same.addProperty
  same_property? _ := False.elim

/-! ## The name of a procedure -/

/-- Built-in procedures are bound to their own names only. -/
def Environment.NamesBuiltins (env : Environment) : Prop :=
  ∀ name procedure, env.globals.get? name = some (.builtin procedure) → procedure.name = name

theorem KeepsUserNames.namesBuiltins {before after : Environment}
    (h_keeps : KeepsUserNames before after) (h_before : before.NamesBuiltins) :
    after.NamesBuiltins := by
  intro name procedure h_bound
  rcases h_keeps name with h_same | ⟨binding, h_found, h_user⟩
  · exact h_before name procedure (h_same ▸ h_bound)
  · -- what a program has bound is no built-in procedure
    rw [h_found] at h_bound
    cases h_bound
    cases h_user

theorem Environment.namesBuiltins_initial : Environment.initial.NamesBuiltins := by
  intro name procedure h_bound
  have h_entry := NameMap.mem_of_mem_ofList (NameMap.mem_entries_of_get? h_bound)
  rcases List.mem_append.mp h_entry with h_constant | h_procedure
  · obtain ⟨constant, -, h_binding⟩ := List.mem_map.mp h_constant
    cases h_binding
  · obtain ⟨procedure', -, h_binding⟩ := List.mem_map.mp h_procedure
    cases h_binding
    rfl

/-- No history binds a built-in procedure to another name. -/
theorem Environment.Reached.namesBuiltins {env : Environment} (h_env : env.Reached) :
    env.NamesBuiltins := by
  induction h_env with
  | initial | reset => exact namesBuiltins_initial
  | @evaluated env depth e result left _ h_eval ih =>
    have h_keeps := evalWithin_leaves (R := KeepsUserNames) depth e env result left h_eval
    exact h_keeps.namesBuiltins ih
  | @called env depth head args result left _ h_call ih =>
    have h_effect := callProcedure_leaves (R := KeepsUserNames) depth head args env result left h_call
    exact h_effect.effect.namesBuiltins ih
  | @boundValue env symbol value bound _ h_bound ih =>
    obtain ⟨name, -, -, ⟨-, rfl⟩ | ⟨frame, outer, -, rfl⟩⟩ := eq_of_bindValue h_bound
    · have h_keeps : KeepsUserNames env
          { env with globals := env.globals.insert name (.value value) } := .insert _ _ rfl
      exact h_keeps.namesBuiltins ih
    · exact ih
  | @boundLambda env symbol lambda bound _ h_bound ih =>
    obtain ⟨name, rfl, -⟩ := eq_of_bindLambda h_bound
    have h_keeps : KeepsUserNames env bound := IsEffect.lambda h_bound
    exact h_keeps.namesBuiltins ih
  | unwound _ ih | opened _ ih | closed _ ih => exact ih
  | boundParameter _ h_bound ih =>
    rcases bindParameter_sameButInnermost h_bound with rfl | ⟨old, new, outer, globals, rfl, rfl⟩
    · exact ih
    · exact ih

/-! ## Evaluation -/

/-- All names but that of the procedure which reads properties. -/
def namesButReader : Set String := {name | name ≠ "get-property"}

theorem namedIn_namesButReader_iff {e : Expression} :
    e.NamedIn namesButReader ↔ ¬ e.Mentions "get-property" := by
  constructor
  · intro h_named h_mentions
    exact h_named "get-property" h_mentions rfl
  · rintro h_not name h_mentions rfl
    exact h_not h_mentions

/-- Of two environments that differ in properties only, each leaves its own under the names that the
runs never come to, and both leave the same trees under all others. -/
theorem Environment.AlikeOn.of_changed {names : Set String} {env other left left' : Environment}
    (h_env : env.AlikeOn Expression.SameTree Set.univ other)
    (h_changed : Likeness.Matches.Changed .sameTree names env other left left') :
    left.AlikeOn Expression.SameTree Set.univ left' := by
  obtain ⟨h_left, h_kept, h_kept'⟩ := h_changed
  have h_alike := h_left.alikeOn
  refine ⟨h_alike.depth, fun name _ => ?_, fun name _ => ?_⟩
  · by_cases h_name : name ∈ names
    · exact h_alike.frames name h_name
    · rw [← h_kept.frames name h_name, ← h_kept'.frames name h_name]
      exact h_env.frames name trivial
  · by_cases h_name : name ∈ names
    · exact h_alike.globals name h_name
    · rw [← h_kept.globals name h_name, ← h_kept'.globals name h_name]
      exact h_env.globals name trivial

/-- If two programs and two environments are the same but for properties, and `get-property` is
mentioned neither in the programs nor in any lambda that the environments hold, then one evaluation ends
exactly when the other does: with the same error, or with results that are the same but for properties,
and in environments that are the same but for properties.

The procedure has no other name in any environment that can be got to
(`Environment.Reached.namesBuiltins`). -/
theorem evaluation_ignores_properties {env other : Environment} {e e' : Expression}
    (h_builtins : env.NamesBuiltins) (h_e : ¬ e.Mentions "get-property")
    (h_lambdas : ∀ name lambda, env.HasLambda IsPart name lambda → ¬ lambda.Mentions "get-property")
    (h_same : e.SameTree e') (h_env : env.AlikeOn Expression.SameTree Set.univ other) :
    (∀ result left, Evaluates env e result left → ∃ result' left', Evaluates other e' result' left' ∧
      Corresponds Expression.SameTree result result' ∧
      left.AlikeOn Expression.SameTree Set.univ left') ∧
    ∀ result' left', Evaluates other e' result' left' → ∃ result left, Evaluates env e result left ∧
      Corresponds Expression.SameTree result result' ∧
      left.AlikeOn Expression.SameTree Set.univ left' := by
  have h_named := namedIn_namesButReader_iff.mpr h_e
  have h_texts : Likeness.sameTree.Texts namesButReader e e' :=
    ⟨⟨h_named, fun part h_part _ => h_part.namedIn h_named⟩, h_same⟩
  have h_matches : Likeness.sameTree.Matches namesButReader env other := by
    refine Likeness.matches_of_alikeOn ?_ (fun name _ lambda h_has => ?_) fun name h_name h_bound => ?_
    · exact ⟨h_env.depth, fun name _ => h_env.frames name trivial,
        fun name _ => h_env.globals name trivial⟩
    · exact namedIn_namesButReader_iff.mpr (h_lambdas name lambda h_has)
    · exact h_name (h_builtins name _ h_bound).symm
  obtain ⟨h_forth, h_back⟩ := Likeness.evaluates_alike h_texts h_matches
  refine ⟨fun result left h_run => ?_, fun result' left' h_run => ?_⟩
  · obtain ⟨result', left', h_run', h_results, h_changed⟩ := h_forth result left h_run
    exact ⟨result', left', h_run', h_results.mono fun _ _ => And.right, h_env.of_changed h_changed⟩
  · obtain ⟨result, left, h_run', h_results, h_changed⟩ := h_back result' left' h_run
    exact ⟨result, left, h_run', h_results.mono fun _ _ => And.right, h_env.of_changed h_changed⟩

/-! ## A value with and without a colour -/

/-- A procedure that sets properties, the lambda, and a value with the properties. -/
def canvas (properties : NameMap Expression) : Environment where
  globals :=
    (NameMap.ofList [("f", .lambda identityLambda), ("set-property", .builtin .setProperty)]).insert
      "p" (.value ⟨.string "s", [], properties⟩)

/-- Sets a property of what the lambda gives back. -/
def resizing (properties : NameMap Expression) : Expression where
  head := .symbol "set-property"
  tail := [.ofAtom (.string "size"), .ofAtom (.string "big"),
    ⟨.symbol "f", [.ofAtom (.symbol "p")], properties⟩]
  properties := properties

def coloured : NameMap Expression := .ofList [("color", .ofAtom (.string "red"))]

theorem canvas_alikeOn (properties properties' : NameMap Expression) :
    (canvas properties).AlikeOn Expression.SameTree Set.univ (canvas properties') where
  depth := rfl
  frames _ _ := .nil
  globals name _ := by
    rw [canvas, canvas, NameMap.get?_insert, NameMap.get?_insert]
    split
    · exact .some (.value (.node .nil))
    · exact rel_refl (Binding.Alike.refl Expression.SameTree.refl) _

theorem canvas_bindings {properties : NameMap Expression} {name : String} {binding : Binding}
    (h_bound : (canvas properties).globals.get? name = some binding) :
    binding = .value ⟨.string "s", [], properties⟩ ∨ binding = .lambda identityLambda ∨
      name = "set-property" ∧ binding = .builtin .setProperty := by
  rcases NameMap.mem_insertEntry (NameMap.mem_entries_of_get? h_bound) with h_value | h_other
  · cases h_value
    exact .inl rfl
  · rcases List.mem_pair.mp h_other with h_lambda | h_procedure
    · cases h_lambda
      exact .inr (.inl rfl)
    · cases h_procedure
      exact .inr (.inr ⟨rfl, rfl⟩)

theorem hasLambda_canvas {properties : NameMap Expression} {name : String} {lambda : Expression}
    (h_has : (canvas properties).HasLambda IsPart name lambda) : ¬ lambda.Mentions "get-property" := by
  have h_symbol : Likeness.sameTree.Texts namesButReader (.ofAtom (.symbol "x"))
      (.ofAtom (.symbol "x")) := .symbol (show "x" ≠ "get-property" by decide) .nil
  have h_parameters : Likeness.sameTree.Texts namesButReader (.list [.ofAtom (.symbol "x")])
      (.list [.ofAtom (.symbol "x")]) := .node nofun (.cons h_symbol .nil)
  have h_identity : Likeness.sameTree.Texts namesButReader identityLambda identityLambda :=
    .node nofun (.cons h_parameters (.cons h_symbol .nil))
  refine namedIn_namesButReader_iff.mp ?_
  cases h_has with
  | called h_bound =>
    rcases canvas_bindings h_bound with h | h | ⟨-, h⟩ <;> cases h
    exact h_identity.1.1
  | inGlobals h_bound h_value h_part h_kind =>
    rcases canvas_bindings h_bound with rfl | rfl | ⟨-, rfl⟩ <;> cases h_value
    · rcases isPart_iff.mp h_part with rfl | ⟨child, h_child, -⟩
      · cases h_kind
      · cases h_child
    · exact h_part.namedIn h_identity.1.1
  | inFrames h_bound => cases h_bound

theorem evaluation_ignores_colour :
    ∃ value left', Evaluates (canvas coloured) (resizing coloured) (.ok value) left' ∧
      (Expression.ofAtom (.string "s")).SameTree value ∧
      (canvas ∅).AlikeOn Expression.SameTree Set.univ left' := by
  have h_ends : Evaluates (canvas ∅) (resizing ∅) (.ok ⟨.string "s", [], _⟩) (canvas ∅) := ⟨4, rfl⟩
  have h_same : (resizing ∅).SameTree (resizing coloured) :=
    .node (.cons (.refl _) (.cons (.refl _) (.cons (.node (.cons (.refl _) .nil)) .nil)))
  have h_builtins : (canvas ∅).NamesBuiltins := by
    intro name procedure h_bound
    rcases canvas_bindings h_bound with h | h | ⟨rfl, h⟩ <;> cases h
    rfl
  have h_resizing : Likeness.sameTree.Texts namesButReader (resizing ∅) (resizing ∅) := by
    have h_value : Likeness.sameTree.Texts namesButReader (.ofAtom (.symbol "p"))
        (.ofAtom (.symbol "p")) := .symbol (show "p" ≠ "get-property" by decide) .nil
    refine .symbol (show "set-property" ≠ "get-property" by decide)
      (.cons (.node nofun .nil) (.cons (.node nofun .nil) (.cons ?_ .nil)))
    exact .symbol (show "f" ≠ "get-property" by decide) (.cons h_value .nil)
  obtain ⟨result', left', h_other, h_results, h_left⟩ := (evaluation_ignores_properties
    h_builtins (namedIn_namesButReader_iff.mp h_resizing.1.1) (fun _ _ => hasLambda_canvas) h_same
    (canvas_alikeOn ∅ coloured)).1 _ _ h_ends
  cases h_results with
  | @ok _ value h_value =>
    exact ⟨value, left', h_other, .of_parts h_value.head_eq h_value.tails, h_left⟩

end PlotLisp
