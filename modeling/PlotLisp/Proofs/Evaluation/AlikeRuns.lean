import PlotLisp.Proofs.Evaluation.AlikeEnvironments

/-!
# Runs that are alike

Program text that is alike, evaluated in environments that hold what is alike under the names that
the text may use, takes the same course on both sides: `Likeness.evalWithin_alike` for every depth, and
`Likeness.evaluates_alike` without one. The results are alike, the environments that are left hold what
is alike under those names again, and under all other names each run leaves what it found.
-/

namespace PlotLisp

open Evaluation

namespace Likeness

variable {L : Likeness} {names : Set String}

/-! ## Rules of evaluation -/

variable (L names) in
/-- The two computations take the same course, with values that are alike. -/
def Alike {α β : Type} (V : α → β → Prop) (first : Evaluation α) (second : Evaluation β) : Prop :=
  InStep (L.Matches names) (Environment.AgreesOn namesᶜ) V first second

variable {e e' : Expression}

theorem evalTerminal_alike (h_texts : L.Texts names e e') :
    Alike L names (L.Values names) (evalTerminal e) (evalTerminal e') := by
  unfold evalTerminal
  rw [← h_texts.head_eq]
  rcases h_head : e.head with _ | _ | _ | name | _ | _ | _
  case symbol =>
    refine InStep.environment_bind fun env other h_env => ?_
    have h_found := h_env.lookup? (h_texts.name_mem h_head)
    generalize env.lookup? name = found at h_found
    generalize other.lookup? name = found' at h_found
    cases h_found with
    | none => exact .fail _
    | some h_values => exact .pure h_values
  case number => exact .pure h_texts.values
  all_goals exact .fail _

/-! ### Lambdas -/

theorem forall₂_zip {α β γ δ : Type} {V : α → β → Prop} {W : γ → δ → Prop} {first : List α}
    {first' : List β} {second : List γ} {second' : List δ} (h_first : List.Forall₂ V first first')
    (h_second : List.Forall₂ W second second') :
    List.Forall₂ (fun pair pair' => V pair.1 pair'.1 ∧ W pair.2 pair'.2) (first.zip second)
      (first'.zip second') := by
  induction h_first generalizing second second' with
  | nil => exact .nil
  | cons h_left _ ih =>
    cases h_second with
    | nil => exact .nil
    | cons h_right h_rest => exact .cons ⟨h_left, h_right⟩ (ih h_rest)

theorem isParameter_eq (h_texts : L.Texts names e e') : isParameter e = isParameter e' := by
  simp only [isParameter, Expression.kind, h_texts.head_eq, h_texts.isEmpty_tail_eq]

theorem parametersOf_alike (h_texts : L.Texts names e e') :
    List.Forall₂ (L.Texts names) (parametersOf e) (parametersOf e') := by
  have h_head := h_texts.ofAtom
  unfold parametersOf
  rw [← h_texts.head_eq] at h_head ⊢
  generalize e.head = head at h_head
  cases head with
  | list => exact h_texts.tails
  | _ => exact .cons h_head h_texts.tails

/-- The first node that can be no parameter is in the same place on both sides. -/
theorem find?_not_isParameter {parameters parameters' : List Expression}
    (h_parameters : List.Forall₂ (L.Texts names) parameters parameters') :
    Option.Rel (L.Texts names) (parameters.find? (!isParameter ·))
      (parameters'.find? (!isParameter ·)) := by
  induction h_parameters with
  | nil => exact .none
  | @cons parameter parameter' _ _ h_first _ ih =>
    rw [List.find?_cons, List.find?_cons, isParameter_eq h_first]
    cases isParameter parameter' with
    | true => exact ih
    | false => exact .some h_first

theorem makeLambda_corresponds {children children' : List Expression}
    (h_children : List.Forall₂ (L.Texts names) children children') :
    Corresponds (L.Values names) (makeLambda children) (makeLambda children') := by
  rcases h_children with _ | ⟨h_first, _ | ⟨h_body, _ | ⟨h_third, h_rest⟩⟩⟩
  · exact .error _
  · exact .error _
  · have h_parameters := parametersOf_alike h_first
    have h_bad := find?_not_isParameter h_parameters
    unfold makeLambda
    dsimp only
    generalize List.find? (!isParameter ·) _ = bad at h_bad
    generalize List.find? (!isParameter ·) _ = bad' at h_bad
    cases h_bad with
    | none => exact .ok (.lambda h_parameters h_body)
    | some h_texts =>
      dsimp only
      rw [wrongKind_congr h_texts.head_eq]
      exact .error _
  · simp only [makeLambda, List.length_cons, h_rest.length_eq]
    exact .error _

section Rules

variable {eval : Evaluator} {children children' args args' : List Expression}
  (h_eval : ∀ e e', L.Texts names e e' → Alike L names (L.Values names) (eval e) (eval e'))

include h_eval

/-! ### Calls -/

theorem callLambda_alike (name : String) {lambda lambda' : Expression}
    (h_lambda : List.Forall₂ (L.Texts names) lambda.tail lambda'.tail)
    (h_args : List.Forall₂ (L.Values names) args args') :
    Alike L names (L.Values names) (callLambda eval name lambda args)
      (callLambda eval name lambda' args') := by
  unfold callLambda
  generalize lambda.tail = parts at h_lambda
  generalize lambda'.tail = parts' at h_lambda
  rcases h_lambda with _ | ⟨h_first, _ | ⟨h_body, _ | ⟨h_third, h_rest⟩⟩⟩
  case cons.cons.nil =>
    have h_parameters := h_first.tails
    dsimp only
    rw [h_parameters.length_eq, h_args.length_eq]
    split
    case isFalse => exact .fail _
    refine .inFrame (fun _ _ h_env => h_env.pushFrame) (fun _ _ h_left => h_left.popFrame)
      (fun _ _ h_inner => h_inner.popFrame) ?_
    refine InStep.bind (V := fun _ _ => True) ?_ fun _ _ _ => h_eval _ _ h_body
    refine .forM (forall₂_zip h_parameters h_args) fun pair pair' h_pair => ?_
    refine .update fun env other h_env => ?_
    exact h_env.bindParameter h_pair.1 h_pair.2
  all_goals exact .fail _

theorem callProcedure_alike (head : Atom) (h_head : ∀ name, head = .symbol name → name ∈ names)
    (h_args : List.Forall₂ (L.Values names) args args') :
    Alike L names (L.Values names) (callProcedure eval head args) (callProcedure eval head args') := by
  unfold callProcedure
  split
  case h_2 => exact .fail _
  rename_i name
  refine .environment_bind fun env other h_env => ?_
  have h_found := h_env.procedure? (h_head name rfl)
  generalize env.procedure? name = found at h_found
  generalize other.procedure? name = found' at h_found
  cases h_found with
  | none => exact .fail _
  | some h_procedures =>
    cases h_procedures with
    | builtin h_reads => exact .ofExcept (call_corresponds h_args h_reads)
    | lambda _ h_texts => exact callLambda_alike h_eval name h_texts h_args

/-! ### Special forms -/

section Children

variable (h_children : List.Forall₂ (L.Texts names) children children')

include h_children

theorem evalBegin_alike :
    Alike L names (L.Values names) (evalBegin eval children) (evalBegin eval children') := by
  induction h_children with
  | nil => exact .fail _
  | cons h_first h_rest ih =>
    cases h_rest with
    | nil => exact h_eval _ _ h_first
    | cons => exact (h_eval _ _ h_first).bind fun _ _ _ => ih

theorem evalDefine_alike :
    Alike L names (L.Values names) (evalDefine eval children) (evalDefine eval children') := by
  rcases h_children with _ | ⟨h_first, _ | ⟨h_value, _ | ⟨h_third, h_rest⟩⟩⟩
  · exact .fail _
  · simp only [evalDefine]
    exact .fail _
  · rename_i first first' value value'
    have h_head := h_first.head_eq
    have h_tails := h_first.tails
    obtain ⟨head, tail, properties⟩ := first
    obtain ⟨head', tail', properties'⟩ := first'
    cases h_head
    cases head with
    | symbol name =>
      cases h_tails with
      | cons => exact .fail _
      | nil =>
        have h_name : name ∈ names := h_first.name_mem rfl
        refine .environment_bind fun env other h_env => ?_
        rw [h_env.protection?_eq h_name]
        split
        · exact .fail _
        refine (h_eval _ _ h_value).bind fun result result' h_result => ?_
        refine InStep.bind (V := fun _ _ => True) ?_ fun _ _ _ => .pure h_result
        refine .update fun env other h_env => ?_
        rw [← h_result.kind_eq]
        split
        · rename_i h_kind
          exact h_env.bindLambda h_name h_result h_kind
        · exact h_env.bindValue h_name h_result
    | _ => exact .fail _
  · simp only [evalDefine, List.length_cons, h_rest.length_eq]
    exact .fail _

theorem procedureAndItems_alike (form : SpecialForm) :
    Alike L names
      (fun found found' => found.1 = found'.1 ∧ (∀ name, found.1 = .symbol name → name ∈ names) ∧
        List.Forall₂ (L.Values names) found.2 found'.2)
      (procedureAndItems eval form children) (procedureAndItems eval form children') := by
  rcases h_children with _ | ⟨h_first, _ | ⟨h_list, _ | ⟨h_third, h_rest⟩⟩⟩
  · exact .fail _
  · simp only [procedureAndItems]
    exact .fail _
  · rename_i first first' list list'
    have h_head := h_first.head_eq
    have h_tails := h_first.tails
    obtain ⟨head, tail, properties⟩ := first
    obtain ⟨head', tail', properties'⟩ := first'
    cases h_head
    cases head with
    | symbol name =>
      cases h_tails with
      | cons => exact .fail _
      | nil =>
        have h_name : name ∈ names := h_first.name_mem rfl
        refine .environment_bind fun env other h_env => ?_
        have h_none : (env.procedure? name).isNone = (other.procedure? name).isNone :=
          h_env.procedure?_isNone h_name
        rw [h_none]
        split
        · exact .fail _
        refine (h_eval _ _ h_list).bind fun value value' h_value => ?_
        refine InStep.bind (.ofExcept (itemsOf_corresponds h_value _)) fun items items' h_items => ?_
        refine .pure ⟨rfl, fun other h_other => ?_, h_items⟩
        cases h_other
        exact h_name
    | _ => exact .fail _
  · simp only [procedureAndItems, List.length_cons, h_rest.length_eq]
    exact .fail _

theorem evalSpecialForm_alike (form : SpecialForm) :
    Alike L names (L.Values names) (evalSpecialForm eval form children)
      (evalSpecialForm eval form children') := by
  have h_items := procedureAndItems_alike h_eval h_children
  cases form with
  | define => exact evalDefine_alike h_eval h_children
  | begin => exact evalBegin_alike h_eval h_children
  | apply =>
    refine (h_items _).bind fun found found' h_found => ?_
    dsimp only
    rw [← h_found.1]
    exact callProcedure_alike h_eval found.1 h_found.2.1 h_found.2.2
  | map =>
    refine (h_items _).bind fun found found' h_found => ?_
    dsimp only
    refine InStep.bind (.mapM h_found.2.2 fun item item' h_item => ?_)
      fun results results' h_results => .pure (.list h_results)
    rw [← h_found.1]
    exact callProcedure_alike h_eval found.1 h_found.2.1 (.cons h_item .nil)

end Children

/-! ### Nodes -/

theorem evalNode_alike (h_texts : L.Texts names e e') :
    Alike L names (L.Values names) (evalNode eval e) (evalNode eval e') := by
  have h_tails := h_texts.tails
  have h_args : Alike L names (List.Forall₂ (L.Values names)) (e.tail.mapM eval) (e'.tail.mapM eval) :=
    .mapM h_tails h_eval
  unfold evalNode
  rw [← h_texts.head_eq, ← h_texts.isEmpty_tail_eq]
  split
  · exact evalTerminal_alike h_texts
  split
  · exact evalSpecialForm_alike h_eval h_tails _
  split
  · exact .ofExcept (makeLambda_corresponds h_tails)
  · exact h_args.bind fun results results' h_results => .pure (.list h_results)
  · exact .pure h_texts.values
  · refine h_args.bind fun args args' h_results => ?_
    exact callProcedure_alike h_eval e.head (fun name h_name => h_texts.name_mem h_name) h_results

end Rules

/-! ## Runs -/

/-- Program text that is alike takes the same course, within every depth. -/
theorem evalWithin_alike (depth : Nat) (h_texts : L.Texts names e e') :
    Alike L names (L.Values names) (evalWithin depth e) (evalWithin depth e') := by
  induction depth generalizing e e' with
  | zero => exact fun _ _ _ => .none
  | succ depth ih => exact evalNode_alike (fun _ _ => ih) h_texts

/-- Where one of two runs of program text that is alike ends, the other ends as well. -/
theorem evaluates_alike {env other : Environment} (h_texts : L.Texts names e e')
    (h_env : L.Matches names env other) :
    (∀ result left, Evaluates env e result left → ∃ result' left', Evaluates other e' result' left' ∧
      Corresponds (L.Values names) result result' ∧ Matches.Changed L names env other left left') ∧
    ∀ result' left', Evaluates other e' result' left' → ∃ result left, Evaluates env e result left ∧
      Corresponds (L.Values names) result result' ∧ Matches.Changed L names env other left left' := by
  refine ⟨fun result left h_run => ?_, fun result' left' h_run => ?_⟩
  · obtain ⟨depth, h_run⟩ := h_run
    have h_ends := evalWithin_alike depth h_texts env other h_env
    rw [h_run] at h_ends
    generalize h_other : evalWithin depth e' other = ended at h_ends
    cases h_ends with
    | some h_both => exact ⟨_, _, ⟨depth, h_other⟩, h_both⟩
  · obtain ⟨depth, h_run⟩ := h_run
    have h_ends := evalWithin_alike depth h_texts env other h_env
    rw [h_run] at h_ends
    generalize h_first : evalWithin depth e env = ended at h_ends
    cases h_ends with
    | some h_both => exact ⟨_, _, ⟨depth, h_first⟩, h_both⟩

end Likeness

end PlotLisp
