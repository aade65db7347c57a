import Mathlib.Data.Bool.AllAny
import Mathlib.Data.List.Forall2
import PlotLisp.Evaluation.Depth
import PlotLisp.Proofs.Source.Parsing
import PlotLisp.Session

/-!
# Batches

Programs may be run one after another, up to the first that fails, or all at once, as the children of a
`begin` form. `batch_runs_in_order` says that both come to the same and leave the same environment.

In the text of the batch each program is followed by a newline. That ends a comment at the end of a
program, which would otherwise go on over the next one and the closing parenthesis.
-/

namespace PlotLisp

open Evaluation

/-! ## Evaluations one after another -/

/-- The expressions are evaluated in order, up to the first error. What comes of it is that error, or
the last value. -/
inductive EvaluatesInOrder : Environment → List Expression → Outcome → Environment → Prop where
  | last {env e result left} (h_last : Evaluates env e result left) :
      EvaluatesInOrder env [e] result left
  | failed {env e rest error left} (h_first : Evaluates env e (.error error) left) :
      EvaluatesInOrder env (e :: rest) (.error error) left
  | next {env e rest value middle result left} (h_first : Evaluates env e (.ok value) middle)
      (h_rest : EvaluatesInOrder middle rest result left) : EvaluatesInOrder env (e :: rest) result left

section Begin

variable {depth : Nat} {env left : Environment} {programs : List Expression} {result : Outcome}

theorem EvaluatesInOrder.of_evalBegin (h_some : programs ≠ [])
    (h_run : evalBegin (evalWithin depth) programs env = some (result, left)) :
    EvaluatesInOrder env programs result left := by
  induction programs generalizing env with
  | nil => exact absurd rfl h_some
  | cons first rest ih =>
    cases rest with
    | nil => exact .last ⟨depth, h_run⟩
    | cons second others =>
      rw [evalBegin, bind_apply] at h_run
      · rcases h_first : evalWithin depth first env with _ | ⟨error | value, middle⟩
        · simp [h_first] at h_run
        · simp only [h_first, Option.some.injEq, Prod.mk.injEq] at h_run
          obtain ⟨rfl, rfl⟩ := h_run
          exact .failed ⟨depth, h_first⟩
        · simp only [h_first] at h_run
          exact .next ⟨depth, h_first⟩ (ih (List.cons_ne_nil _ _) h_run)
      · exact List.cons_ne_nil _ _

theorem EvaluatesInOrder.exists_depth (h_order : EvaluatesInOrder env programs result left) :
    ∃ depth, evalBegin (evalWithin depth) programs env = some (result, left) := by
  induction h_order with
  | last h_last => exact h_last
  | @failed env e rest error left h_first =>
    obtain ⟨depth, h_first⟩ := h_first
    refine ⟨depth, ?_⟩
    cases rest with
    | nil => exact h_first
    | cons second others =>
      rw [evalBegin, bind_apply, h_first]
      exact List.cons_ne_nil _ _
  | @next env e rest value middle result left h_first h_rest ih =>
    obtain ⟨depth, h_first⟩ := h_first
    obtain ⟨depth', h_others⟩ := ih
    -- within the greater of the two depths both end
    refine ⟨max depth depth', ?_⟩
    have h_first := evalWithin_mono (Nat.le_max_left depth depth') e env _ h_first
    have h_others := evalBegin_extends (evalWithin_mono (Nat.le_max_right depth depth')) rest middle _
      h_others
    cases rest with
    | nil => cases h_rest
    | cons second others =>
      rw [evalBegin, bind_apply, h_first]
      · exact h_others
      · exact List.cons_ne_nil _ _

/-- A `begin` form evaluates its children in order. -/
theorem evaluates_begin_iff (h_some : programs ≠ []) (properties : NameMap Expression) :
    Evaluates env ⟨.symbol "begin", programs, properties⟩ result left
      ↔ EvaluatesInOrder env programs result left := by
  have h_begin (depth : Nat) : evalWithin (depth + 1) ⟨.symbol "begin", programs, properties⟩
      = evalBegin (evalWithin depth) programs := by
    cases programs with
    | nil => exact absurd rfl h_some
    | cons => rfl
  constructor
  · rintro ⟨_ | depth, h_run⟩
    · cases h_run
    · rw [h_begin] at h_run
      exact .of_evalBegin h_some h_run
  · intro h_order
    obtain ⟨depth, h_run⟩ := h_order.exists_depth
    refine ⟨depth + 1, ?_⟩
    rw [h_begin]
    exact h_run

end Begin

/-! ## Texts one after another -/

/-- The text of a `begin` form of programs, each with a newline behind it. -/
def batch (texts : List String) : String :=
  "(begin\n" ++ texts.foldr (fun text rest => text ++ "\n" ++ rest) ")"

section Batches

variable {texts : List String} {programs : List Expression}
  (h_parse : List.Forall₂ (fun text program => parseProgram text = .ok program) texts programs)

include h_parse

/-- The texts, the newlines and the closing parenthesis are read as the forms that the texts are. -/
theorem exists_forms_of_texts :
    ∃ forms, Form.expressions forms = .ok programs ∧
      Scans (texts.foldr (fun text rest => text ++ "\n" ++ rest) ")").toList
        (Form.lexemesOf forms ++ [.closing]) [] := by
  induction h_parse with
  | nil => exact ⟨[], rfl, .closing .done⟩
  | @cons text program texts programs h_first _ ih =>
    obtain ⟨form, -, h_text, h_tree⟩ := parseProgram_eq_ok_iff.mp h_first
    obtain ⟨forms, h_trees, h_scans⟩ := ih
    refine ⟨form :: forms, ?_, ?_⟩
    · rw [Form.expressions, h_tree, h_trees]
      rfl
    · rw [List.foldr_cons, String.toList_append, String.toList_append, List.append_assoc,
        Form.lexemesOf, List.append_assoc]
      exact (h_text.before_newline rfl _).append (.blank rfl h_scans)

theorem parseProgram_batch :
    parseProgram (batch texts) = .ok ⟨.symbol "begin", programs, ∅⟩ := by
  obtain ⟨forms, h_trees, h_scans⟩ := exists_forms_of_texts h_parse
  refine parseProgram_eq_ok_iff.mpr ⟨.node (.bare "begin") forms, ⟨_, _, rfl⟩, ?_, ?_⟩
  · have h_letters : ∀ c ∈ "begin".toList, endsWord c = false :=
      List.all_iff_forall_prop.mp (by decide)
    have h_newline (rest : List Char) : ∀ c ∈ ('\n' :: rest).head?, endsWord c = true := by
      intro c h_c
      cases h_c
      rfl
    have h_word := Scans.bare (by decide) h_letters (h_newline _) (.blank rfl h_scans)
    rw [String.ofList_toList] at h_word
    rw [batch, String.toList_append]
    exact .opening h_word
  · rw [Form.expression, h_trees]
    rfl

end Batches

/-! ## Sessions -/

/-- The texts are run in order, up to the first that fails. What comes of it is that failure, or the
last value. -/
inductive Session.RunsInOrder :
    Session → List String → Except ProgramError Expression → Session → Prop where
  | last {session text depth result next}
      (h_last : session.evalSource depth text = some (result, next)) :
      RunsInOrder session [text] result next
  | failed {session text rest depth error next}
      (h_first : session.evalSource depth text = some (.error error, next)) :
      RunsInOrder session (text :: rest) (.error error) next
  | next {session text rest depth value middle result next}
      (h_first : session.evalSource depth text = some (.ok value, middle))
      (h_rest : RunsInOrder middle rest result next) : RunsInOrder session (text :: rest) result next

section Runs

variable {text : String} {program : Expression} (h_parse : parseProgram text = .ok program)

include h_parse

/-- Running a text is evaluating what it is parsed to. -/
theorem evalSource_eq (depth : Nat) (session : Session) :
    session.evalSource depth text = (evalWithin depth program session.environment).map
      fun (outcome, left) => (outcome.mapError .semantic, ⟨left, some program⟩) := by
  simp only [Session.evalSource, Session.load, h_parse, Session.evaluate, Session.run, Option.map_map,
    Function.comp_def]

theorem evaluates_of_evalSource {depth : Nat} {session next : Session}
    {result : Except ProgramError Expression}
    (h_run : session.evalSource depth text = some (result, next)) :
    ∃ outcome, Evaluates session.environment program outcome next.environment ∧
      result = outcome.mapError .semantic := by
  rw [evalSource_eq h_parse, Option.map_eq_some_iff] at h_run
  obtain ⟨⟨outcome, left⟩, h_eval, h_ended⟩ := h_run
  cases h_ended
  exact ⟨outcome, ⟨depth, h_eval⟩, rfl⟩

theorem exists_evalSource {session : Session} {outcome : Outcome} {left : Environment}
    (h_eval : Evaluates session.environment program outcome left) :
    ∃ depth, session.evalSource depth text
      = some (outcome.mapError .semantic, ⟨left, some program⟩) := by
  obtain ⟨depth, h_eval⟩ := h_eval
  refine ⟨depth, ?_⟩
  rw [evalSource_eq h_parse, h_eval]
  rfl

end Runs

section InOrder

variable {texts : List String} {programs : List Expression} {session next : Session}
  (h_parse : List.Forall₂ (fun text program => parseProgram text = .ok program) texts programs)

include h_parse

theorem Session.RunsInOrder.evaluatesInOrder {result : Except ProgramError Expression}
    (h_runs : session.RunsInOrder texts result next) :
    ∃ outcome, EvaluatesInOrder session.environment programs outcome next.environment ∧
      result = outcome.mapError .semantic := by
  induction h_runs generalizing programs with
  | last h_last =>
    obtain ⟨program, rest, h_text, h_nil, rfl⟩ := List.forall₂_cons_left_iff.mp h_parse
    cases h_nil
    obtain ⟨outcome, h_eval, h_result⟩ := evaluates_of_evalSource h_text h_last
    exact ⟨outcome, .last h_eval, h_result⟩
  | failed h_first =>
    obtain ⟨program, rest, h_text, -, rfl⟩ := List.forall₂_cons_left_iff.mp h_parse
    obtain ⟨outcome, h_eval, h_result⟩ := evaluates_of_evalSource h_text h_first
    cases outcome with
    | ok value => cases h_result
    | error error => exact ⟨.error error, .failed h_eval, h_result⟩
  | next h_first _ ih =>
    obtain ⟨program, rest, h_text, h_rest, rfl⟩ := List.forall₂_cons_left_iff.mp h_parse
    obtain ⟨outcome, h_eval, h_result⟩ := evaluates_of_evalSource h_text h_first
    cases outcome with
    | error error => cases h_result
    | ok value =>
      obtain ⟨last, h_order, h_last⟩ := ih h_rest
      exact ⟨last, .next h_eval h_order, h_last⟩

theorem EvaluatesInOrder.runsInOrder {env left : Environment} {outcome : Outcome}
    (h_order : EvaluatesInOrder env programs outcome left) (h_env : session.environment = env) :
    ∃ next, session.RunsInOrder texts (outcome.mapError .semantic) next ∧ next.environment = left := by
  induction h_order generalizing texts session with
  | @last env program outcome left h_last =>
    obtain ⟨text, rest, h_text, h_nil, rfl⟩ := List.forall₂_cons_right_iff.mp h_parse
    cases h_nil
    rw [← h_env] at h_last
    obtain ⟨depth, h_run⟩ := exists_evalSource h_text h_last
    exact ⟨_, .last h_run, rfl⟩
  | @failed env program programs error left h_first =>
    obtain ⟨text, rest, h_text, -, rfl⟩ := List.forall₂_cons_right_iff.mp h_parse
    rw [← h_env] at h_first
    obtain ⟨depth, h_run⟩ := exists_evalSource h_text h_first
    exact ⟨_, .failed h_run, rfl⟩
  | @next env program programs value middle outcome left h_first h_rest ih =>
    obtain ⟨text, rest, h_text, h_texts, rfl⟩ := List.forall₂_cons_right_iff.mp h_parse
    rw [← h_env] at h_first
    obtain ⟨depth, h_run⟩ := exists_evalSource h_text h_first
    have h_middle : (⟨middle, some program⟩ : Session).environment = middle := rfl
    obtain ⟨next, h_runs, h_next⟩ := ih h_texts h_middle
    exact ⟨next, .next h_run h_runs, h_next⟩

end InOrder

theorem exists_programs {texts : List String}
    (h_parse : ∀ text ∈ texts, ∃ program, parseProgram text = .ok program) :
    ∃ programs, List.Forall₂ (fun text program => parseProgram text = .ok program) texts programs := by
  induction texts with
  | nil => exact ⟨[], .nil⟩
  | cons text rest ih =>
    obtain ⟨⟨program, h_text⟩, h_rest⟩ := List.forall_mem_cons.mp h_parse
    obtain ⟨programs, h_programs⟩ := ih h_rest
    exact ⟨program :: programs, .cons h_text h_programs⟩

/-- A batch of texts that all parse has a result exactly when there is one of running the texts in
order, and then the same one, and it leaves the same environment. -/
theorem batch_runs_in_order {texts : List String} (h_some : texts ≠ [])
    (h_parse : ∀ text ∈ texts, ∃ program, parseProgram text = .ok program) (session : Session)
    (result : Except ProgramError Expression) (left : Environment) :
    (∃ depth next, session.evalSource depth (batch texts) = some (result, next) ∧
        next.environment = left) ↔
      ∃ next, session.RunsInOrder texts result next ∧ next.environment = left := by
  obtain ⟨programs, h_programs⟩ := exists_programs h_parse
  have h_batch := parseProgram_batch h_programs
  have h_begin : programs ≠ [] := by
    rintro rfl
    exact h_some (List.forall₂_nil_right_iff.mp h_programs)
  constructor
  · rintro ⟨depth, next, h_run, rfl⟩
    obtain ⟨outcome, h_eval, rfl⟩ := evaluates_of_evalSource h_batch h_run
    exact ((evaluates_begin_iff h_begin ∅).mp h_eval).runsInOrder h_programs rfl
  · rintro ⟨next, h_runs, rfl⟩
    obtain ⟨outcome, h_order, rfl⟩ := h_runs.evaluatesInOrder h_programs
    obtain ⟨depth, h_run⟩ := exists_evalSource h_batch ((evaluates_begin_iff h_begin ∅).mpr h_order)
    exact ⟨depth, _, h_run, rfl⟩

/-! ## A batch with comments that fails -/

/-- A text that ends with a comment. -/
theorem parseProgram_commented : parseProgram ";(\n(define a \"s\");"
    = .ok ⟨.symbol "define", [.ofAtom (.symbol "a"), .ofAtom (.string "s")], ∅⟩ := by
  have h_letters : ";(\n(define a \"s\");".toList
      = [';', '(', '\n', '(', 'd', 'e', 'f', 'i', 'n', 'e', ' ', 'a', ' ', '"', 's', '"', ')', ';'] := by
    simp
  have h_read : Form.read? ";(\n(define a \"s\");"
      = some (.node (.bare "define") [.leaf (.bare "a"), .leaf (.quoted "s")]) := by
    rw [Form.read?, Lexeme.scan?, h_letters]
    rfl
  have h_define : (Token.bare "define").atom = .ok (.symbol "define") := by
    simp [Token.atom, Atom.ofToken, numberOfWord?, isNumeric, Atom.ofName]
  simp only [parseProgram, h_read, Form.expression, h_define]
  rfl

theorem evalSource_commented : ∃ next, Session.evalSource 3 {} ";(\n(define a \"s\");"
      = some (.ok (.ofAtom (.string "s")), next) ∧
    next.environment.value? "a" = some (.ofAtom (.string "s")) ∧
    next.evalSource 3 "(b) ;" = some (.error (.semantic (.unknownSymbol "b")),
      { next with program := some (.ofAtom (.symbol "b")) }) := by
  rw [evalSource_eq parseProgram_commented]
  exact ⟨_, rfl, rfl, rfl⟩

/-- The name that the first text binds stays bound when the second fails, and the third is not run. -/
theorem batch_of_failing_text :
    ∃ depth next, Session.evalSource depth {} (batch [";(\n(define a \"s\");", "(b) ;", "(a)"])
        = some (.error (.semantic (.unknownSymbol "b")), next) ∧
      next.environment.value? "a" = some (.ofAtom (.string "s")) := by
  obtain ⟨middle, h_first, h_bound, h_second⟩ := evalSource_commented
  have h_parse : ∀ text ∈ [";(\n(define a \"s\");", "(b) ;", "(a)"],
      ∃ program, parseProgram text = .ok program := by
    refine List.forall_mem_cons.mpr ⟨⟨_, parseProgram_commented⟩, List.forall_mem_cons.mpr ⟨?_, ?_⟩⟩
    · exact ⟨.ofAtom (.symbol "b"), rfl⟩
    · exact List.forall_mem_singleton.mpr ⟨.ofAtom (.symbol "a"), rfl⟩
  obtain ⟨depth, next, h_run, h_next⟩ := (batch_runs_in_order (List.cons_ne_nil _ _) h_parse {} _ _).mpr
    ⟨_, .next h_first (.failed h_second), rfl⟩
  refine ⟨depth, next, h_run, ?_⟩
  rw [h_next]
  exact h_bound

end PlotLisp
