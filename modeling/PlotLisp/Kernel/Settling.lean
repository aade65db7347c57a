import PlotLisp.Kernel.Basic

/-!
# Settled kernels

A controller that waits for the worker sees the kernel only where the worker cannot go on by
itself: it waits for a line, or it has ended. `Kernel.settle` runs the worker up to there. It
always gets there, as long as every line has an answer: each step brings the worker nearer to a
wait or to its end, or takes a line from the queue.

Stopping and resetting are made of a step of the controller and such a wait.
-/

namespace PlotLisp

namespace Kernel

/-! ## How far a worker is from rest -/

/-- The worker cannot go on by itself. -/
def isSettled (kernel : Kernel) : Bool :=
  match kernel.worker with
  | none => true
  | some worker =>
    match worker.phase with
    | .ended => true
    | .polling => kernel.flag && kernel.input.isEmpty
    | _ => false

/-- How far a phase is from rest, while no line is taken. -/
def rank (flag : Bool) : Phase → Nat × Nat
  | .ended => (0, 0)
  | .polling => (if flag then 1 else 3, 0)
  | .checking => (2, 0)
  | .publishing _ left _ => (4, left.length)
  | .answering _ => (5, 0)

/-- How far a kernel is from rest. -/
def unrest (kernel : Kernel) : Nat × Nat × Nat :=
  match kernel.worker with
  | none => (kernel.input.size, 0, 0)
  | some worker => (kernel.input.size, rank kernel.flag worker.phase)

theorem unrest_advance {answer : Answerer} {kernel next : Kernel}
    (h_step : kernel.advance answer = some next) (h_unsettled : kernel.isSettled = false) :
    Prod.Lex (· < ·) (Prod.Lex (· < ·) (· < ·)) next.unrest kernel.unrest := by
  obtain ⟨⟨lines⟩, output, flag, bindings, worker, snapshot⟩ := kernel
  rcases worker with _ | ⟨environment, phase⟩
  · simp [advance] at h_step
  · rcases phase with _ | _ | line | ⟨line, _ | ⟨⟨name, value⟩, left⟩, message⟩ | _
    · -- looking at the flag
      cases flag <;> simp only [advance, Option.some.injEq] at h_step <;> subst h_step <;>
        exact .right _ (.left _ _ (by simp))
    · -- taking a line, or waiting in vain
      rcases lines with _ | ⟨line, lines⟩
      · cases flag
        · simp only [advance, Queue.pop?, Option.some.injEq] at h_step
          subst h_step
          exact .right _ (.left _ _ (by simp))
        · simp [isSettled, Queue.isEmpty] at h_unsettled
      · simp only [advance, Queue.pop?, Option.some.injEq] at h_step
        subst h_step
        exact .left _ _ (by simp [Queue.size])
    · -- answering
      simp only [advance, Option.map_eq_some_iff] at h_step
      obtain ⟨attempt, _, rfl⟩ := h_step
      exact .right _ (.left _ _ (by simp))
    · -- handing over the message
      simp only [advance, Option.some.injEq] at h_step
      subst h_step
      exact .right _ (.left _ _ (by simp))
    · -- publishing one more binding
      simp only [advance, Option.some.injEq] at h_step
      subst h_step
      exact .right _ (.right _ (by simp))
    · simp [advance] at h_step

/-! ## Settling -/

/-- Runs the worker until it waits for a line or has ended. -/
def settle (answer : Answerer) (kernel : Kernel) : Option Kernel :=
  if _ : kernel.isSettled then some kernel
  else
    match _ : kernel.advance answer with
    | none => none
    | some next => settle answer next
termination_by kernel.unrest
decreasing_by
  rename_i h_unsettled h_step
  exact unrest_advance h_step (by simpa using h_unsettled)

/-! ## Commands of a controller that waits -/

/-- Starts a worker, and lets it answer the lines that are there. -/
def startAndSettle (answer : Answerer) (fresh : Environment) (kernel : Kernel)
    (refusal : Option String := none) : Option Kernel :=
  (kernel.start fresh refusal).settle answer

/-- Lets the worker finish its line, and keeps its environment. -/
def stop (answer : Answerer) (kernel : Kernel) : Option Kernel :=
  if kernel.isRunning then (kernel.lowerFlag.settle answer).bind join? else some kernel

/-- Goes back to a fresh environment, and on running if the kernel was and gets a thread again. -/
def reset (answer : Answerer) (fresh : Environment) (kernel : Kernel)
    (refusal : Option String := none) : Option Kernel := do
  let stopped ← kernel.stop answer
  let cleared := stopped.discard
  if kernel.isRunning then cleared.startAndSettle answer fresh refusal else some cleared

/-- The error of such a reset, if it fails. Only a kernel that was running is started again. -/
def resetError? (kernel : Kernel) (refusal : Option String) : Option KernelError :=
  if kernel.isRunning then refusal.map .spawn else none

/-- Submits a line and lets the worker answer it. The outer option is that of a line without an
answer, the inner one that of a kernel that is not running. -/
def submitAndSettle? (answer : Answerer) (kernel : Kernel) (line : String) :
    Option (Option Kernel) :=
  match kernel.submit? line with
  | none => some none
  | some submitted => (submitted.settle answer).map some

end Kernel

end PlotLisp
