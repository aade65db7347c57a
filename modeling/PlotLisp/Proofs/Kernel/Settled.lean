import PlotLisp.Proofs.Kernel.Run

/-!
# Waiting for a worker

A controller that waits for the worker gets to see the kernel settled, if only each of the lines that
wait has an answer in the environment that it meets. `Kernel.IsAnswerable` says so of a kernel, and
`IsAnswerable.exists_settle` that the wait is over at some time.
-/

namespace PlotLisp

namespace Kernel

/-- Each of the lines has an answer in the environment that those before it leave. -/
def Answerable (answer : Answerer) : Environment → List String → Prop
  | _, [] => True
  | env, line :: rest =>
    ∃ attempt, answer env line = some attempt ∧ Answerable answer attempt.environment rest

/-- The lines that the worker is still to answer, the one that it has just taken included. -/
def linesToAnswer (kernel : Kernel) : List String :=
  match kernel.worker with
  | some ⟨_, .answering line⟩ => line :: kernel.input.items
  | _ => kernel.input.items

/-- The worker has an answer to whatever it meets. -/
def IsAnswerable (answer : Answerer) (kernel : Kernel) : Prop :=
  ∀ worker, kernel.worker = some worker → Answerable answer worker.environment kernel.linesToAnswer

namespace IsAnswerable

variable {answer : Answerer} {order : BindingOrder} {kernel next : Kernel}

theorem advance (h_kernel : kernel.IsAnswerable answer) (h_step : Advance answer order kernel next) :
    next.IsAnswerable answer := by
  rintro worker h_next
  cases h_step with
  | goOn h_worker | finish h_worker | publish h_worker | handOver h_worker =>
    have h_lines := h_kernel _ h_worker
    rw [linesToAnswer, h_worker] at h_lines
    cases h_next
    exact h_lines
  | take h_worker h_input | timeOut h_worker h_input =>
    have h_lines := h_kernel _ h_worker
    rw [linesToAnswer, h_worker, h_input] at h_lines
    cases h_next
    rw [linesToAnswer]
    first | exact h_lines | exact h_input ▸ h_lines
  | answer h_worker h_attempt =>
    have h_lines := h_kernel _ h_worker
    rw [linesToAnswer, h_worker] at h_lines
    obtain ⟨attempt, h_some, h_rest⟩ := h_lines
    cases h_attempt.symm.trans h_some
    cases h_next
    exact h_rest

/-- Where the worker is not at rest it can go on. -/
theorem exists_advance (h_kernel : kernel.IsAnswerable answer) (h_unsettled : ¬ kernel.isSettled) :
    ∃ next, kernel.advance answer = some next := by
  rcases h_worker : kernel.worker with _ | ⟨env, phase⟩
  · simp [isSettled, h_worker] at h_unsettled
  cases phase with
  | ended => simp [isSettled, h_worker] at h_unsettled
  | checking => exact ⟨_, by rw [Kernel.advance, h_worker]⟩
  | polling =>
    rcases h_pop : kernel.input.pop? with _ | ⟨line, rest⟩ <;>
      exact ⟨_, by simp only [Kernel.advance, h_worker, h_pop]; rfl⟩
  | answering line =>
    have h_lines := h_kernel _ h_worker
    rw [linesToAnswer, h_worker] at h_lines
    obtain ⟨attempt, h_attempt, -⟩ := h_lines
    exact ⟨_, Advance.eq_some (.answer h_worker h_attempt)⟩
  | publishing line left message =>
    rcases left with _ | ⟨⟨name, value⟩, left⟩
    · exact ⟨_, Advance.eq_some (.handOver h_worker)⟩
    · exact ⟨_, Advance.eq_some (.publish h_worker)⟩

/-- Waiting comes to an end. -/
theorem exists_settle (h_kernel : kernel.IsAnswerable answer) :
    ∃ settled, kernel.settle answer = some settled := by
  fun_induction settle answer kernel with
  | case1 kernel => exact ⟨kernel, rfl⟩
  | case2 kernel h_unsettled h_stuck =>
    obtain ⟨next, h_step⟩ := h_kernel.exists_advance h_unsettled
    rw [h_stuck] at h_step
    cases h_step
  | case3 kernel _ next h_step ih => exact ih (h_kernel.advance (advance_cases h_step))

end IsAnswerable

/-- What is waited for has come about. -/
theorem isSettled_of_settle {answer : Answerer} {kernel settled : Kernel}
    (h_settle : kernel.settle answer = some settled) : settled.isSettled := by
  fun_induction settle answer kernel with
  | case1 kernel h_settled =>
    cases h_settle
    exact h_settled
  | case2 => cases h_settle
  | case3 _ _ _ _ ih => exact ih h_settle

end Kernel

end PlotLisp
