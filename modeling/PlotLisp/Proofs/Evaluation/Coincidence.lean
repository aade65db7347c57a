import PlotLisp.Proofs.Evaluation.AlikeRuns
import PlotLisp.Proofs.Evaluation.Frames

/-!
# Names that a program does not mention

What an expression evaluates to depends on the names that it mentions, and on those that the lambdas
mention which it can get at: directly, through the names, and inside of values, be it among their
children or in their properties. All other names may be bound to anything, in the frames and among the
globals, and stay bound as they are.

Scope is dynamic, so a lambda looks its names up in the frames of its callers. That is why the names of
all lambdas count which may be called on the way.
-/

namespace PlotLisp

/-! ## Inside of expressions -/

/-- The second expression is the first one, or is inside of it: among the children or in the properties
of a node. -/
inductive IsInside : Expression → Expression → Prop where
  | whole (e) : IsInside e e
  | child {e child part} (h_child : child ∈ e.tail) (h_part : IsInside child part) : IsInside e part
  | property {e entry part} (h_entry : entry ∈ e.properties.entries)
      (h_part : IsInside entry.2 part) : IsInside e part

theorem isInside_iff {e part : Expression} :
    IsInside e part ↔ part = e ∨ (∃ child ∈ e.tail, IsInside child part) ∨
      True ∧ ∃ entry ∈ e.properties.entries, IsInside entry.2 part := by
  constructor
  · intro h_inside
    cases h_inside with
    | whole => exact .inl rfl
    | child h_child h_part => exact .inr (.inl ⟨_, h_child, h_part⟩)
    | property h_entry h_part => exact .inr (.inr ⟨trivial, _, h_entry, h_part⟩)
  · rintro (rfl | ⟨child, h_child, h_part⟩ | ⟨-, entry, h_entry, h_part⟩)
    · exact .whole part
    · exact .child h_child h_part
    · exact .property h_entry h_part

/-- There is nothing inside of an atom. -/
theorem IsInside.eq_ofAtom {atom : Atom} {part : Expression}
    (h_inside : IsInside (.ofAtom atom) part) : part = .ofAtom atom := by
  rcases h_inside with _ | h_child | h_property
  · rfl
  · cases h_child
  · cases h_property

/-! ## Equal expressions -/

theorem eq_of_rel {α : Type} {first second : Option α} (h_related : Option.Rel (· = ·) first second) :
    first = second := by
  cases h_related with
  | none => rfl
  | some h_same => rw [h_same]

/-- Expressions that are equal, properties included. -/
def Likeness.equal : Likeness where
  same := (· = ·)
  inside := IsInside
  reads := True
  inside_iff := isInside_iff
  same_head := congrArg Expression.head
  same_tail h_same := List.forall₂_eq_eq_eq ▸ congrArg Expression.tail h_same
  same_node h_tails := by
    rw [List.forall₂_eq_eq_eq] at h_tails
    rw [h_tails]
  same_append h_same h_item := by rw [h_same, h_item]
  same_addProperty h_same h_key h_value := by
    rw [Expression.addProperty, Expression.addProperty, h_same, h_key, h_value]
  same_property? name _ h_same := h_same ▸ rel_refl (fun _ => rfl) _

theorem Environment.AlikeOn.agreesOn {names : Set String} {env other : Environment}
    (h_alike : env.AlikeOn (· = ·) names other) : env.AgreesOn names other where
  depth := h_alike.depth
  frames name h_name := by
    have h_found := (h_alike.frames name h_name).imp fun _ _ => eq_of_rel
    rwa [List.forall₂_eq_eq_eq] at h_found
  globals name h_name := by
    refine eq_of_rel (rel_imp (h_alike.globals name h_name) fun binding binding' h_bindings => ?_)
    cases h_bindings with
    | builtin => rfl
    | _ h_same => rw [h_same]

/-! ## Coincidence -/

/-- An expression ends in one environment exactly when it ends in another, and with the same value or
error, if the two agree on names that include all those which the expression mentions, and which the
lambdas mention that are inside of the expression or that can be got at through one of the names. The
environments that are left agree on the names again, and hold under all other names what they held. -/
theorem evaluation_coincides {names : Set String} {env other : Environment} {e : Expression}
    (h_e : e.NamedIn names)
    (h_inside : ∀ lambda, IsInside e lambda → lambda.kind = .lambda → lambda.NamedIn names)
    (h_bound : ∀ name ∈ names, ∀ lambda, env.HasLambda IsInside name lambda → lambda.NamedIn names)
    (h_agrees : env.AgreesOn names other) :
    (∀ result left, Evaluates env e result left → ∃ left', Evaluates other e result left' ∧
      left.AgreesOn names left' ∧ env.AgreesOn namesᶜ left ∧ other.AgreesOn namesᶜ left') ∧
    ∀ result left', Evaluates other e result left' → ∃ left, Evaluates env e result left ∧
      left.AgreesOn names left' ∧ env.AgreesOn namesᶜ left ∧ other.AgreesOn namesᶜ left' := by
  have h_texts : Likeness.equal.Texts names e e := ⟨⟨h_e, h_inside⟩, rfl⟩
  have h_env : Likeness.equal.Matches names env other :=
    Likeness.matches_of_alikeOn (h_agrees.alikeOn fun _ => rfl) h_bound fun _ _ _ => trivial
  obtain ⟨h_forth, h_back⟩ := Likeness.evaluates_alike h_texts h_env
  refine ⟨fun result left h_run => ?_, fun result left' h_run => ?_⟩
  · obtain ⟨result', left', h_run', h_results, h_left, h_kept⟩ := h_forth result left h_run
    have h_same : result = result' := (h_results.mono fun _ _ => And.right).eq
    rw [← h_same] at h_run'
    exact ⟨left', h_run', h_left.alikeOn.agreesOn, h_kept⟩
  · obtain ⟨result', left, h_run', h_results, h_left, h_kept⟩ := h_back result left' h_run
    have h_same : result' = result := (h_results.mono fun _ _ => And.right).eq
    rw [h_same] at h_run'
    exact ⟨left, h_run', h_left.alikeOn.agreesOn, h_kept⟩

/-! ## A call that fails among other names -/

/-- What a program mentions that calls the failing lambda, and what the lambda does. -/
def namesOfCall : List String := ["begin", "define", "c", "f", "x", "y", "z"]

/-- The calls again, with a global and a parameter bound to something else. -/
def insideOtherCalls : Environment where
  globals := insideCalls.globals.insert "a" (.value (.ofAtom (.string "u")))
  frames := [NameMap.ofList [("a", failingLambda)], NameMap.ofList [("b", failingLambda)]]

/-- The failing lambda, and the program that calls it, are texts of these names. -/
theorem texts_of_call (L : Likeness) {names : Set String}
    (h_names : ∀ name ∈ namesOfCall, name ∈ names) :
    L.Texts names failingLambda failingLambda ∧ L.Texts names defineAndCall defineAndCall := by
  have h_symbol (name : String) (h_name : name ∈ namesOfCall) :
      L.Texts names (.ofAtom (.symbol name)) (.ofAtom (.symbol name)) :=
    .symbol (h_names name h_name) .nil
  have h_string : L.Texts names (.ofAtom (.string "t")) (.ofAtom (.string "t")) := .node nofun .nil
  have h_parameters : L.Texts names (.list [.ofAtom (.symbol "x")]) (.list [.ofAtom (.symbol "x")]) :=
    .node nofun (.cons (h_symbol "x" (by decide)) .nil)
  have h_begin := h_names "begin" (by decide)
  have h_define := h_names "define" (by decide)
  have h_call := h_names "f" (by decide)
  constructor
  · refine .node nofun (.cons h_parameters (.cons ?_ .nil))
    refine .symbol h_begin (.cons (.symbol h_define ?_) (.cons (h_symbol "z" (by decide)) .nil))
    exact .cons (h_symbol "y" (by decide)) (.cons (h_symbol "x" (by decide)) .nil)
  · refine .symbol h_begin (.cons (.symbol h_define ?_) (.cons (.symbol h_call ?_) .nil))
    · exact .cons (h_symbol "c" (by decide)) (.cons h_string .nil)
    · exact .cons (h_symbol "c" (by decide)) .nil

theorem insideCalls_agreesOn : insideCalls.AgreesOn {name | name ∈ namesOfCall} insideOtherCalls := by
  have h_not : "a" ∉ {name | name ∈ namesOfCall} := show "a" ∉ namesOfCall by decide
  have h_global := Environment.AgreesOn.insert_global insideCalls h_not
    (.value (.ofAtom (.string "u")))
  exact IsTrans.trans _ _ _ h_global (Environment.AgreesOn.insert_local _ _ _ h_not failingLambda)

theorem hasLambda_insideCalls {name : String} {lambda : Expression}
    (h_has : insideCalls.HasLambda IsInside name lambda) :
    lambda.NamedIn {name | name ∈ namesOfCall} := by
  have h_lambda : failingLambda.NamedIn {name | name ∈ namesOfCall} ∧
      Likeness.equal.Confined {name | name ∈ namesOfCall} failingLambda :=
    (texts_of_call .equal fun _ h_name => h_name).1.1
  cases h_has with
  | called h_bound =>
    cases List.mem_singleton.mp (NameMap.mem_entries_of_get? h_bound)
    exact h_lambda.1
  | inGlobals h_bound h_value h_inside h_kind =>
    cases List.mem_singleton.mp (NameMap.mem_entries_of_get? h_bound)
    cases h_value
    exact h_lambda.2 lambda h_inside h_kind
  | inFrames h_bound h_inside h_kind =>
    obtain ⟨frame, h_frame, h_found⟩ := List.mem_map.mp h_bound
    have h_entry := NameMap.mem_entries_of_get? h_found
    rcases List.mem_pair.mp h_frame with rfl | rfl
    · cases List.mem_singleton.mp h_entry
      cases h_inside.eq_ofAtom
      cases h_kind
    · cases List.mem_singleton.mp h_entry
      exact h_lambda.2 lambda h_inside h_kind

theorem evaluation_coincides_of_failing_call :
    ∃ left left', Evaluates insideCalls defineAndCall (.error (.unknownSymbol "z")) left ∧
      Evaluates insideOtherCalls defineAndCall (.error (.unknownSymbol "z")) left' ∧
      left.AgreesOn {name | name ∈ namesOfCall} left' ∧
      left.inFrames "c" = [some (.ofAtom (.string "t")), none] := by
  have h_ends : Evaluates insideCalls defineAndCall (.error (.unknownSymbol "z")) _ := ⟨8, rfl⟩
  have h_program : defineAndCall.NamedIn {name | name ∈ namesOfCall} ∧
      Likeness.equal.Confined {name | name ∈ namesOfCall} defineAndCall :=
    (texts_of_call .equal fun _ h_name => h_name).2.1
  have h_coincides := evaluation_coincides h_program.1 h_program.2
    (fun _ _ _ => hasLambda_insideCalls) insideCalls_agreesOn
  obtain ⟨left', h_other, h_left, -⟩ := h_coincides.1 _ _ h_ends
  exact ⟨_, left', h_ends, h_other, h_left, rfl⟩

end PlotLisp
