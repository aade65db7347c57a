import PlotLisp.Evaluation

/-!
# Depth

A result of an evaluation does not depend on the depth it was found within: `evalWithin_mono` says
that it is the same within any greater depth, and so `Evaluates.unique` that an expression has at
most one result in an environment.

`Extends` compares two computations that differ only where the first has no result. Every rule of
evaluation keeps that relation between the evaluators it is given.
-/

namespace PlotLisp

namespace Evaluation

variable {α β : Type}

/-- Wherever the first computation has a result, the second has the same. -/
def Extends (shallow deep : Evaluation α) : Prop :=
  ∀ env result, shallow env = some result → deep env = some result

theorem Extends.refl (computation : Evaluation α) : Extends computation computation :=
  fun _ _ h => h

theorem exhausted_extends (computation : Evaluation α) : Extends exhausted computation := by
  intro env result h_result
  simp [exhausted] at h_result

theorem Extends.bind {shallow deep : Evaluation α} {next further : α → Evaluation β}
    (h_first : Extends shallow deep) (h_next : ∀ a, Extends (next a) (further a)) :
    Extends (shallow >>= next) (deep >>= further) := by
  intro env result h_result
  rw [bind_apply] at h_result ⊢
  rcases h_shallow : shallow env with _ | ⟨_ | a, left⟩
  · simp [h_shallow] at h_result
  · rw [h_first env _ h_shallow]
    simpa [h_shallow] using h_result
  · rw [h_first env _ h_shallow]
    rw [h_shallow] at h_result
    exact h_next a left result h_result

theorem Extends.mapM {f g : α → Evaluation β} (h_each : ∀ a, Extends (f a) (g a)) (items : List α) :
    Extends (items.mapM f) (items.mapM g) := by
  induction items with
  | nil => exact .refl _
  | cons a rest ih =>
    rw [List.mapM_cons, List.mapM_cons]
    exact (h_each a).bind fun _ => ih.bind fun _ => .refl _

theorem Extends.inFrame {shallow deep : Evaluation α} (h_inner : Extends shallow deep) :
    Extends (inFrame shallow) (inFrame deep) := by
  intro env result h_result
  simp only [Evaluation.inFrame] at h_result ⊢
  rcases h_shallow : shallow env.pushFrame with _ | ⟨inner, left⟩
  · simp [h_shallow] at h_result
  · rw [h_inner _ _ h_shallow]
    simpa [h_shallow] using h_result

end Evaluation

open Evaluation

/-! ## Rules of evaluation -/

section Rules

variable {shallow deep : Evaluator} (h_eval : ∀ e, Extends (shallow e) (deep e))

include h_eval

theorem callLambda_extends (name : String) (lambda : Expression) (args : List Expression) :
    Extends (callLambda shallow name lambda args) (callLambda deep name lambda args) := by
  unfold callLambda
  split
  · split
    · exact ((Extends.refl _).bind fun _ => h_eval _).inFrame
    · exact .refl _
  · exact .refl _

theorem callProcedure_extends (head : Atom) (args : List Expression) :
    Extends (callProcedure shallow head args) (callProcedure deep head args) := by
  unfold callProcedure
  split
  · refine (Extends.refl _).bind fun env => ?_
    split
    · exact .refl _
    · exact callLambda_extends h_eval _ _ _
    · exact .refl _
  · exact .refl _

theorem evalBegin_extends (children : List Expression) :
    Extends (evalBegin shallow children) (evalBegin deep children) := by
  fun_induction evalBegin shallow children with
  | case1 => exact .refl _
  | case2 last => exact h_eval last
  | case3 first rest h_rest ih =>
    rw [evalBegin]
    · exact (h_eval first).bind fun _ => ih
    · exact h_rest

theorem evalDefine_extends (children : List Expression) :
    Extends (evalDefine shallow children) (evalDefine deep children) := by
  unfold evalDefine
  split
  · refine (Extends.refl _).bind fun env => ?_
    split
    · exact .refl _
    · exact (h_eval _).bind fun _ => .refl _
  · exact .refl _
  · exact .refl _

theorem procedureAndItems_extends (form : SpecialForm) (children : List Expression) :
    Extends (procedureAndItems shallow form children) (procedureAndItems deep form children) := by
  unfold procedureAndItems
  split
  · refine (Extends.refl _).bind fun env => ?_
    split
    · exact .refl _
    · exact (h_eval _).bind fun _ => .refl _
  · exact .refl _
  · exact .refl _

theorem evalSpecialForm_extends (form : SpecialForm) (children : List Expression) :
    Extends (evalSpecialForm shallow form children) (evalSpecialForm deep form children) := by
  rcases form
  · exact evalDefine_extends h_eval children
  · exact evalBegin_extends h_eval children
  · exact (procedureAndItems_extends h_eval _ children).bind fun _ =>
      callProcedure_extends h_eval _ _
  · exact (procedureAndItems_extends h_eval _ children).bind fun _ =>
      (Extends.mapM (fun _ => callProcedure_extends h_eval _ _) _).bind fun _ => .refl _

theorem evalNode_extends (e : Expression) : Extends (evalNode shallow e) (evalNode deep e) := by
  unfold evalNode
  split
  · exact .refl _
  · split
    · exact evalSpecialForm_extends h_eval _ _
    · split
      · exact .refl _
      · exact (Extends.mapM h_eval _).bind fun _ => .refl _
      · exact .refl _
      · exact (Extends.mapM h_eval _).bind fun _ => callProcedure_extends h_eval _ _

end Rules

/-! ## Depths -/

theorem evalWithin_extends_succ (depth : Nat) (e : Expression) :
    Extends (evalWithin depth e) (evalWithin (depth + 1) e) := by
  induction depth generalizing e with
  | zero => exact exhausted_extends _
  | succ depth ih => exact evalNode_extends ih e

/-- A result within a depth is the result within any greater one. -/
theorem evalWithin_mono {depth greater : Nat} (h_depth : depth ≤ greater) (e : Expression) :
    Extends (evalWithin depth e) (evalWithin greater e) := by
  induction h_depth with
  | refl => exact .refl _
  | step _ ih => exact fun env result h => evalWithin_extends_succ _ e env result (ih env result h)

/-- An expression has at most one result in an environment. -/
theorem Evaluates.unique {env left right : Environment} {e : Expression} {a b : Outcome}
    (h_left : Evaluates env e a left) (h_right : Evaluates env e b right) :
    a = b ∧ left = right := by
  obtain ⟨m, h_m⟩ := h_left
  obtain ⟨n, h_n⟩ := h_right
  have h_both := evalWithin_mono (Nat.le_max_left m n) e env _ h_m
  rw [evalWithin_mono (Nat.le_max_right m n) e env _ h_n] at h_both
  simp only [Option.some.injEq, Prod.mk.injEq] at h_both
  exact ⟨h_both.1.symm, h_both.2.symm⟩

end PlotLisp
