import PlotLisp.Evaluation.Depth
import PlotLisp.Host.Startup
import PlotLisp.Kernel.Message
import PlotLisp.Proofs.Evaluation.Frames

/-!
# The interpreter

What texts come to when they are given to an interpreter one after another, with no kernel in sight.

* `Answers` says what a text comes to in an environment, as a message and as the environment that it
  leaves.
* `IsFresh` says what environment the startup script leaves.
* `Interpreted` is the environment that a sequence of lines leads to from a fresh one, and `Replies`
  the message that another line gets there.

Each of them has one result at most, and none of them leaves a call open.
-/

namespace PlotLisp

/-! ## Answers to lines -/

/-- All that there is to see of a message. -/
def Message.Shows (message : Message) (expression : Expression) (isError : Bool) (text : String) :
    Prop :=
  message.expression = expression ∧ message.isError = isError ∧ message.errorText = text

theorem Message.Shows.unique {message other : Message} {expression : Expression} {isError : Bool}
    {text : String} (h_message : message.Shows expression isError text)
    (h_other : other.Shows expression isError text) : message = other := by
  obtain ⟨rfl, rfl, rfl⟩ := h_message
  obtain ⟨h_expression, h_error, h_text⟩ := h_other
  cases message <;> cases other
  · exact congrArg Message.value h_expression.symm
  · cases h_error
  · cases h_error
  · exact congrArg Message.error h_text.symm

/-- The message that a line comes to in an environment, and the environment that it leaves. -/
inductive Answers (env : Environment) (line : String) : Message → Environment → Prop where
  | rejected {error message} (h_parse : parseProgram line = .error error)
      (h_shows : message.Shows .nothing true "Error: Invalid Expression. Could not parse.") :
      Answers env line message env
  | evaluated {program value message left} (h_parse : parseProgram line = .ok program)
      (h_eval : Evaluates env program (.ok value) left) (h_shows : message.Shows value false "") :
      Answers env line message left
  | failed {program fault message left} (h_parse : parseProgram line = .ok program)
      (h_eval : Evaluates env program (.error fault) left)
      (h_shows : message.Shows .nothing true ("Error: " ++ fault.message)) :
      Answers env line message left

namespace Answers

variable {env left right : Environment} {line : String} {message other : Message}

theorem unique (h_answer : Answers env line message left) (h_other : Answers env line other right) :
    message = other ∧ left = right := by
  cases h_answer with
  | rejected h_parse h_shows =>
    cases h_other with
    | rejected _ h_shows' => exact ⟨h_shows.unique h_shows', rfl⟩
    | evaluated h_parse' | failed h_parse' => cases h_parse.symm.trans h_parse'
  | evaluated h_parse h_eval h_shows =>
    cases h_other with
    | rejected h_parse' => cases h_parse.symm.trans h_parse'
    | evaluated h_parse' h_eval' h_shows' =>
      cases h_parse.symm.trans h_parse'
      obtain ⟨⟨⟩, rfl⟩ := h_eval.unique h_eval'
      exact ⟨h_shows.unique h_shows', rfl⟩
    | failed h_parse' h_eval' =>
      cases h_parse.symm.trans h_parse'
      cases (h_eval.unique h_eval').1
  | failed h_parse h_eval h_shows =>
    cases h_other with
    | rejected h_parse' => cases h_parse.symm.trans h_parse'
    | evaluated h_parse' h_eval' =>
      cases h_parse.symm.trans h_parse'
      cases (h_eval.unique h_eval').1
    | failed h_parse' h_eval' h_shows' =>
      cases h_parse.symm.trans h_parse'
      obtain ⟨⟨⟩, rfl⟩ := h_eval.unique h_eval'
      exact ⟨h_shows.unique h_shows', rfl⟩

/-- Outside of calls a line leaves the environment outside of calls, also when it fails. -/
theorem frames (h_answer : Answers env line message left) (h_outside : env.frames = []) :
    left.frames = [] := by
  cases h_answer with
  | rejected => exact h_outside
  | evaluated _ h_eval | failed _ h_eval => exact h_eval.keepsFrames.frames_eq_nil_iff.mpr h_outside

/-- What holds across every evaluation holds across an answer. -/
theorem effect {R : Environment → Environment → Prop} [IsEffect R]
    (h_answer : Answers env line message left) : R env left := by
  cases h_answer with
  | rejected => exact refl env
  | evaluated _ h_eval | failed _ h_eval =>
    obtain ⟨depth, h_run⟩ := h_eval
    exact evalWithin_leaves depth _ env _ left h_run

/-- A session answers a text as a kernel answers a line. -/
theorem of_evalSource {depth : Nat} {session : Session} {result : Except ProgramError Expression}
    (h_run : (Session.resume env).evalSource depth line = some (result, session)) :
    Answers env line (.ofResult result) session.environment := by
  rcases h_parse : parseProgram line with error | program
  · simp only [Session.evalSource, Session.load, h_parse, Option.some.injEq, Prod.mk.injEq] at h_run
    obtain ⟨rfl, rfl⟩ := h_run
    exact .rejected h_parse ⟨rfl, rfl, rfl⟩
  · simp only [Session.evalSource, Session.load, h_parse, Session.evaluate, Session.run,
      Option.map_map, Option.map_eq_some_iff, Function.comp_apply, Prod.mk.injEq] at h_run
    obtain ⟨⟨outcome, left⟩, h_eval, rfl, rfl⟩ := h_run
    cases outcome with
    | ok value => exact .evaluated h_parse ⟨depth, h_eval⟩ ⟨rfl, rfl, rfl⟩
    | error fault => exact .failed h_parse ⟨depth, h_eval⟩ ⟨rfl, rfl, rfl⟩

end Answers

/-! ## Fresh environments -/

/-- The environment that the startup script leaves, if it ends. -/
def IsFresh (files : Files) (settings : Settings) (env : Environment) : Prop :=
  ∃ depth, freshEnvironment? depth files settings = some env

theorem startupText_of_isFresh {files : Files} {settings : Settings} {env : Environment}
    (h_fresh : IsFresh files settings env) :
    (∃ error, startupText files settings = .error error ∧ env = .initial) ∨
      ∃ text message, startupText files settings = .ok text ∧
        Answers .initial text message env := by
  obtain ⟨depth, h_some⟩ := h_fresh
  rcases h_text : startupText files settings with error | text
  · simp only [freshEnvironment?, Session.runStartup, h_text, Option.map_some, Option.some.injEq]
      at h_some
    exact .inl ⟨error, rfl, h_some.symm⟩
  · simp only [freshEnvironment?, Session.runStartup, h_text, Option.map_map,
      Option.map_eq_some_iff, Function.comp_apply] at h_some
    obtain ⟨⟨result, session⟩, h_run, rfl⟩ := h_some
    exact .inr ⟨text, _, rfl, .of_evalSource h_run⟩

theorem IsFresh.effect {R : Environment → Environment → Prop} [IsEffect R] {files : Files}
    {settings : Settings} {env : Environment} (h_fresh : IsFresh files settings env) :
    R .initial env := by
  rcases startupText_of_isFresh h_fresh with ⟨error, -, rfl⟩ | ⟨text, message, -, h_env⟩
  · exact refl _
  · exact h_env.effect

/-- The same script leaves the same environment. -/
theorem IsFresh.unique {files : Files} {settings : Settings} {env other : Environment}
    (h_fresh : IsFresh files settings env) (h_other : IsFresh files settings other) :
    env = other := by
  rcases startupText_of_isFresh h_fresh with ⟨error, h_text, rfl⟩ | ⟨text, message, h_text, h_env⟩ <;>
    rcases startupText_of_isFresh h_other with
      ⟨error', h_text', rfl⟩ | ⟨text', message', h_text', h_env'⟩
  · rfl
  · cases h_text.symm.trans h_text'
  · cases h_text.symm.trans h_text'
  · cases h_text.symm.trans h_text'
    exact (h_env.unique h_env').2

theorem IsFresh.frames {files : Files} {settings : Settings} {env : Environment}
    (h_fresh : IsFresh files settings env) : env.frames = [] := by
  rcases startupText_of_isFresh h_fresh with ⟨error, h_text, rfl⟩ | ⟨text, message, h_text, h_env⟩
  · rfl
  · exact h_env.frames rfl

/-! ## Lines one after another -/

/-- The environment after some lines, the first of which met a fresh environment. -/
inductive Interpreted (fresh : Environment → Prop) : List String → Environment → Prop where
  | fresh {env} (h_fresh : fresh env) : Interpreted fresh [] env
  | line {lines line env message left} (h_lines : Interpreted fresh lines env)
      (h_answer : Answers env line message left) : Interpreted fresh (lines ++ [line]) left

namespace Interpreted

variable {fresh : Environment → Prop} {lines : List String} {env other : Environment}

theorem unique (h_fresh : ∀ env other, fresh env → fresh other → env = other)
    (h_env : Interpreted fresh lines env) (h_other : Interpreted fresh lines other) :
    env = other := by
  induction h_env generalizing other with
  | fresh h_first =>
    generalize h_lines : ([] : List String) = lines at h_other
    cases h_other with
    | fresh h_first' => exact h_fresh _ _ h_first h_first'
    | line => simp at h_lines
  | @line lines line env message left h_before h_answer ih =>
    generalize h_lines : lines ++ [line] = lines' at h_other
    cases h_other with
    | fresh => simp at h_lines
    | line h_before' h_answer' =>
      obtain ⟨rfl, h_line⟩ := List.append_inj' h_lines rfl
      cases h_line
      cases ih h_before'
      exact (h_answer.unique h_answer').2

theorem frames (h_fresh : ∀ env, fresh env → env.frames = []) (h_env : Interpreted fresh lines env) :
    env.frames = [] := by
  induction h_env with
  | fresh h_first => exact h_fresh _ h_first
  | line _ h_answer ih => exact h_answer.frames ih

end Interpreted

/-- The message that a line gets after other lines, of an interpreter that began with them. -/
def Replies (fresh : Environment → Prop) (lines : List String) (line : String) (message : Message) :
    Prop :=
  ∃ env left, Interpreted fresh lines env ∧ Answers env line message left

theorem Replies.unique {fresh : Environment → Prop}
    (h_fresh : ∀ env other, fresh env → fresh other → env = other) {lines : List String}
    {line : String} {message other : Message} (h_message : Replies fresh lines line message)
    (h_other : Replies fresh lines line other) : message = other := by
  obtain ⟨env, left, h_env, h_answer⟩ := h_message
  obtain ⟨env', left', h_env', h_answer'⟩ := h_other
  cases h_env.unique h_fresh h_env'
  exact (h_answer.unique h_answer').1

end PlotLisp
