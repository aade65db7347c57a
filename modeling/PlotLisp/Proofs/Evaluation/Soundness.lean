import PlotLisp.Proofs.Evaluation.Values
import PlotLisp.Proofs.Source.Forms
import PlotLisp.Session

/-!
# Soundness of evaluation

An evaluation of program text, where all names stand for values, ends with a value, or with an error
that the program causes, and leaves an environment where all names stand for values. So text that has
not been evaluated is never taken for a value, neither the body of a lambda nor what stands behind a
string, although both are carried along in values and the former is evaluated later.

* `IsText code` says what has to be known of program text, which holds of what is parsed and of all
  parts of it.
* `Environment.IsSound` is the invariant, and `evalWithin_upholds` carries it through evaluations.
* `Session.Ran` are the runs of texts one after another, and `sessions_hold_values` is the conclusion
  for them.
-/

namespace PlotLisp

/-! ## Program text -/

/-- A tree as tokens make it. -/
inductive IsSyntax : Expression → Prop where
  | node {head tail} (h_head : head.kind ≠ .none ∧ head.kind ≠ .complex)
      (h_tail : ∀ child ∈ tail, IsSyntax child) : IsSyntax ⟨head, tail, ∅⟩

/-- The atom of a token is of a kind that tokens have. -/
theorem kind_of_token_atom {token : Token} {atom : Atom} (h_atom : token.atom = .ok atom) :
    atom.kind ≠ .none ∧ atom.kind ≠ .complex := by
  have h_name (name : String) : (Atom.ofName name).kind ≠ .complex := by
    unfold Atom.ofName
    split
    · exact nofun
    · split <;> exact nofun
  have h_complex (token : Token) : (Atom.ofToken token).kind ≠ .complex := by
    cases token with
    | quoted text => exact nofun
    | bare text =>
      unfold Atom.ofToken
      dsimp only
      split
      · exact nofun
      split
      · exact nofun
      split
      · exact nofun
      · exact h_name text
  unfold Token.atom at h_atom
  split at h_atom
  · cases h_atom
  · rename_i h_nothing
    cases h_atom
    refine ⟨fun h_none => ?_, h_complex token⟩
    cases h_token : Atom.ofToken token <;> rw [h_token] at h_none <;> first | cases h_none
    exact h_nothing h_token

/-- What a form is parsed to is made of tokens. -/
theorem Form.isSyntax {form : Form} {tree : Expression} (h_tree : form.expression = .ok tree) :
    IsSyntax tree := by
  induction form using Form.induction generalizing tree with
  | leaf token =>
    rw [expression] at h_tree
    rcases h_atom : token.atom with error | atom
    · simp [h_atom, bind, Except.bind] at h_tree
    · simp only [h_atom, bind, Except.bind, pure, Except.pure, Except.ok.injEq] at h_tree
      rw [← h_tree]
      exact .node (kind_of_token_atom h_atom) nofun
  | node head items ih =>
    rw [expression] at h_tree
    rcases h_atom : head.atom with error | atom
    · simp [h_atom, bind, Except.bind] at h_tree
    rcases h_tail : expressions items with error | tail
    · simp [h_atom, h_tail, bind, Except.bind] at h_tree
    simp only [h_atom, h_tail, bind, Except.bind, pure, Except.pure, Except.ok.injEq] at h_tree
    rw [← h_tree]
    refine .node (kind_of_token_atom h_atom) ?_
    -- the children are the trees of the items
    clear h_tree
    induction items generalizing tail with
    | nil =>
      cases h_tail
      exact nofun
    | cons item items ih_items =>
      obtain ⟨h_item, h_items⟩ := List.forall_mem_cons.mp ih
      rw [expressions] at h_tail
      rcases h_first : item.expression with error | first
      · simp [h_first, bind, Except.bind] at h_tail
      rcases h_rest : expressions items with error | rest
      · simp [h_first, h_rest, bind, Except.bind] at h_tail
      simp only [h_first, h_rest, bind, Except.bind, pure, Except.pure, Except.ok.injEq] at h_tail
      rw [← h_tail]
      exact List.forall_mem_cons.mpr ⟨h_item h_first, ih_items h_items rest h_rest⟩

theorem isSyntax_of_parseProgram {text : String} {program : Expression}
    (h_parse : parseProgram text = .ok program) : IsSyntax program := by
  unfold parseProgram at h_parse
  split at h_parse
  · cases h_parse
  · exact Form.isSyntax h_parse

/-- The tree itself, or a tree below it. -/
inductive IsPart (whole : Expression) : Expression → Prop where
  | whole : IsPart whole whole
  | child {part child} (h_part : IsPart whole part) (h_child : child ∈ part.tail) :
      IsPart whole child

/-- What is part of a child is part of the whole. -/
theorem IsPart.of_child {whole child part : Expression} (h_part : IsPart child part)
    (h_child : child ∈ whole.tail) : IsPart whole part := by
  induction h_part with
  | whole => exact .child .whole h_child
  | child _ h_inner ih => exact ih.child h_inner

theorem isPart_iff {whole part : Expression} :
    IsPart whole part ↔ part = whole ∨ ∃ child ∈ whole.tail, IsPart child part := by
  constructor
  · intro h_part
    induction h_part with
    | whole => exact .inl rfl
    | @child inner child _ h_child ih =>
      rcases ih with rfl | ⟨below, h_below, h_inner⟩
      · exact .inr ⟨child, h_child, .whole⟩
      · exact .inr ⟨below, h_below, h_inner.child h_child⟩
  · rintro (rfl | ⟨child, h_child, h_part⟩)
    · exact .whole
    · exact h_part.of_child h_child

theorem IsPart.isSyntax {whole part : Expression} (h_part : IsPart whole part)
    (h_whole : IsSyntax whole) : IsSyntax part := by
  induction h_part with
  | whole => exact h_whole
  | child _ h_child ih =>
    cases ih with
    | node _ h_tail => exact h_tail _ h_child

/-- A part of the program that one of the texts is. -/
def IsPartOfTexts (texts : List String) (e : Expression) : Prop :=
  ∃ text ∈ texts, ∃ program, parseProgram text = .ok program ∧ IsPart program e

/-- What is known of program text, and of what is inside it as well. -/
structure IsText (code : Expression → Prop) : Prop where
  child : ∀ {e}, code e → ∀ child ∈ e.tail, code child
  isSyntax : ∀ {e}, code e → IsSyntax e

theorem isText_isPartOfTexts (texts : List String) : IsText (IsPartOfTexts texts) where
  child := by
    rintro e ⟨text, h_text, program, h_parse, h_part⟩ child h_child
    exact ⟨text, h_text, program, h_parse, h_part.child h_child⟩
  isSyntax := by
    rintro e ⟨text, h_text, program, h_parse, h_part⟩
    exact h_part.isSyntax (isSyntax_of_parseProgram h_parse)

/-! ## Environments -/

/-- What is bound is a value, and a lambda where it is bound to be called. -/
def Binding.IsSound (code : Expression → Prop) : Binding → Prop
  | .constant e | .value e => IsValue code e
  | .lambda e => IsValue code e ∧ e.kind = .lambda
  | .builtin _ => True

/-- All names stand for values. -/
structure Environment.IsSound (code : Expression → Prop) (env : Environment) : Prop where
  globals : ∀ entry ∈ env.globals.entries, entry.2.IsSound code
  frames : ∀ frame ∈ env.frames, ∀ entry ∈ frame.entries, IsValue code entry.2

namespace Environment.IsSound

variable {code : Expression → Prop} {env : Environment}

theorem initial : Environment.IsSound code .initial where
  globals := by
    refine NameMap.forall_mem_ofList (List.forall_mem_append.mpr ⟨?_, ?_⟩)
    · intro entry h_entry
      obtain ⟨⟨name, value⟩, h_constant, rfl⟩ := List.mem_map.mp h_entry
      simp only [Builtin.constants, List.mem_cons, List.not_mem_nil, or_false] at h_constant
      rcases h_constant with h | h | h <;> cases h
      · exact .number NameMap.forall_mem_empty
      · exact .number NameMap.forall_mem_empty
      · exact .complex NameMap.forall_mem_empty
    · intro entry h_entry
      obtain ⟨procedure, -, rfl⟩ := List.mem_map.mp h_entry
      trivial
  frames := nofun

/-! ### Looking names up -/

theorem local? (h_env : env.IsSound code) {name : String} {value : Expression}
    (h_found : env.local? name = some value) : IsValue code value := by
  obtain ⟨frame, h_frame, h_value⟩ := List.exists_of_findSome?_eq_some h_found
  exact h_env.frames frame h_frame _ (NameMap.mem_entries_of_get? h_value)

theorem global (h_env : env.IsSound code) {name : String} {binding : Binding}
    (h_found : env.globals.get? name = some binding) : binding.IsSound code :=
  h_env.globals _ (NameMap.mem_entries_of_get? h_found)

theorem procedure? (h_env : env.IsSound code) {name : String} {lambda : Expression}
    (h_found : env.procedure? name = some (.lambda lambda)) :
    IsValue code lambda ∧ lambda.kind = .lambda := by
  unfold Environment.procedure? at h_found
  split at h_found
  · rename_i value h_local
    split at h_found
    · rename_i h_kind
      cases h_found
      exact ⟨h_env.local? h_local, h_kind⟩
    · cases h_found
  · obtain ⟨binding, h_global, h_lambda⟩ := Option.bind_eq_some_iff.mp h_found
    have h_binding := h_env.global h_global
    cases binding <;> cases h_lambda
    exact h_binding

theorem lookup? (h_env : env.IsSound code) {name : String} {value : Expression}
    (h_found : env.lookup? name = some value) : IsValue code value := by
  unfold Environment.lookup? at h_found
  split at h_found
  · rename_i plain h_plain
    cases h_found
    unfold Environment.value? at h_plain
    split at h_plain
    · rename_i h_local
      cases h_plain
      exact h_env.local? h_local
    · obtain ⟨binding, h_global, h_value⟩ := Option.bind_eq_some_iff.mp h_plain
      have h_binding := h_env.global h_global
      cases binding <;> cases h_value <;> exact h_binding
  · split at h_found
    · rename_i h_procedure
      cases h_found
      exact (h_env.procedure? h_procedure).1
    · cases h_found

/-! ### Binding names -/

theorem bindableName_fulfils (env : Environment) (name : String) :
    Fulfils IsFault (fun _ => True) (env.bindableName (.symbol name)) := by
  unfold Environment.bindableName
  dsimp only
  split
  · exact id
  · trivial

theorem bindValue (h_env : env.IsSound code) (name : String) {value : Expression}
    (h_value : IsValue code value) :
    Fulfils IsFault (Environment.IsSound code) (env.bindValue (.symbol name) value) := by
  refine (bindableName_fulfils env name).bind fun name _ => ?_
  obtain ⟨globals, frames⟩ := env
  cases frames with
  | nil => exact ⟨NameMap.forall_mem_insert h_env.globals h_value, h_env.frames⟩
  | cons frame outer =>
    obtain ⟨h_frame, h_outer⟩ := List.forall_mem_cons.mp h_env.frames
    refine ⟨h_env.globals, List.forall_mem_cons.mpr ⟨?_, h_outer⟩⟩
    exact NameMap.forall_mem_insert h_frame h_value

theorem bindLambda (h_env : env.IsSound code) (name : String) {lambda : Expression}
    (h_value : IsValue code lambda) (h_kind : lambda.kind = .lambda) :
    Fulfils IsFault (Environment.IsSound code) (env.bindLambda (.symbol name) lambda) := by
  refine (bindableName_fulfils env name).bind fun name _ => ?_
  rw [if_pos h_kind]
  exact ⟨NameMap.forall_mem_insert h_env.globals ⟨h_value, h_kind⟩, h_env.frames⟩

/-! ### Calls -/

theorem pushFrame (h_env : env.IsSound code) : env.pushFrame.IsSound code :=
  ⟨h_env.globals, List.forall_mem_cons.mpr ⟨nofun, h_env.frames⟩⟩

theorem popFrame (h_env : env.IsSound code) : env.popFrame.IsSound code :=
  ⟨h_env.globals, fun frame h_frame => h_env.frames frame (List.mem_of_mem_tail h_frame)⟩

/-- A parameter is bound in the frame that has been opened for it. -/
theorem bindParameter (h_env : env.IsSound code) (h_inside : env.frames ≠ [])
    {parameter value : Expression} (h_parameter : isParameter parameter)
    (h_value : IsValue code value) :
    Fulfils IsFault (fun bound => bound.IsSound code ∧ bound.frames ≠ [])
      (env.bindParameter parameter.head value) := by
  obtain ⟨globals, frames⟩ := env
  obtain ⟨head, tail, properties⟩ := parameter
  cases head with
  | symbol name =>
    cases frames with
    | nil => exact absurd rfl h_inside
    | cons frame outer =>
      obtain ⟨h_frame, h_outer⟩ := List.forall_mem_cons.mp h_env.frames
      refine ⟨⟨h_env.globals, List.forall_mem_cons.mpr ⟨?_, h_outer⟩⟩, List.cons_ne_nil _ _⟩
      exact NameMap.forall_mem_insert h_frame h_value
  | _ => cases h_parameter

end Environment.IsSound

/-! ## Rules of evaluation -/

open Evaluation

theorem evalTerminal_upholds {code : Expression → Prop} (h_code : IsText code) {e : Expression}
    (h_e : code e) (h_tail : e.tail = []) (h_head : isFormHead e.head = false) :
    Upholds (Environment.IsSound code) IsFault (IsValue code) (evalTerminal e) := by
  have h_syntax := h_code.isSyntax h_e
  obtain ⟨head, tail, properties⟩ := e
  cases h_tail
  cases h_syntax with
  | node h_kind =>
    unfold evalTerminal
    cases head with
    | symbol name =>
      refine .environment_bind fun env h_env => ?_
      split
      · rename_i value h_found
        exact .pure (h_env.lookup? h_found)
      · exact .fail id
    | number x => exact .pure (.number nofun)
    | nothing => exact absurd rfl h_kind.1
    | complex => exact absurd rfl h_kind.2
    | _ => cases h_head

/-- A lambda in a program is a value, its body as it stands. -/
theorem makeLambda_fulfils {code : Expression → Prop} {children : List Expression}
    (h_children : ∀ child ∈ children, code child) :
    Fulfils IsFault (IsValue code) (makeLambda children) := by
  unfold makeLambda
  split
  · rename_i parameters body
    dsimp only
    split
    · exact isFault_typeMismatch (by decide) _ _
    · rename_i h_none
      refine .lambda (fun name h_name => ?_) (h_children body (by simp)) nofun
      simpa using List.find?_eq_none.mp h_none name h_name
  · exact isFault_arityMismatch _ _ _

/-- Binds the parameters of a call to the arguments, one after the other. -/
def bindParameters (parameters args : List Expression) : Evaluation Unit :=
  (parameters.zip args).forM fun (parameter, arg) => update (·.bindParameter parameter.head arg)

theorem bindParameters_upholds {code : Expression → Prop} {parameters args : List Expression}
    (h_parameters : ∀ parameter ∈ parameters, isParameter parameter)
    (h_args : ∀ arg ∈ args, IsValue code arg) :
    Upholds (fun env => env.IsSound code ∧ env.frames ≠ []) IsFault (fun _ => True)
      (bindParameters parameters args) := by
  refine .forM fun pair h_pair => .update fun env h_env => ?_
  obtain ⟨h_parameter, h_arg⟩ := List.of_mem_zip h_pair
  exact h_env.1.bindParameter h_env.2 (h_parameters _ h_parameter) (h_args _ h_arg)

section Rules

variable {code : Expression → Prop} {eval : Evaluator}
  (h_eval : ∀ e, code e → Upholds (Environment.IsSound code) IsFault (IsValue code) (eval e))

include h_eval

/-- The body of a lambda is evaluated where its parameters stand for the arguments. -/
theorem callLambda_upholds (name : String) {lambda : Expression} {args : List Expression}
    (h_lambda : IsValue code lambda) (h_kind : lambda.kind = .lambda)
    (h_args : ∀ arg ∈ args, IsValue code arg) :
    Upholds (Environment.IsSound code) IsFault (IsValue code) (callLambda eval name lambda args) := by
  obtain ⟨names, body, h_tail, h_names, h_body⟩ := h_lambda.parts_of_lambda h_kind
  unfold callLambda
  rw [h_tail]
  dsimp only
  split
  case isFalse => exact .fail (isFault_arityMismatch _ _ _)
  intro env result left h_env h
  have h_bound := bindParameters_upholds h_names h_args env.pushFrame
  change (inFrame do
    bindParameters names args
    eval body) env = _ at h
  rw [inFrame, bind_apply] at h
  rcases h_run : bindParameters names args env.pushFrame with _ | ⟨outcome, bound⟩
  · simp [h_run] at h
  obtain ⟨h_inner, h_outcome⟩ := h_bound _ _ ⟨h_env.pushFrame, List.cons_ne_nil _ _⟩ h_run
  cases outcome with
  | error error =>
    simp only [h_run, Option.some.injEq, Prod.mk.injEq] at h
    obtain ⟨rfl, rfl⟩ := h
    exact ⟨h_inner.1.popFrame, h_outcome⟩
  | ok =>
    simp only [h_run] at h
    rcases h_result : eval body bound with _ | ⟨outcome, inner⟩
    · simp [h_result] at h
    · simp only [h_result, Option.some.injEq, Prod.mk.injEq] at h
      obtain ⟨rfl, rfl⟩ := h
      obtain ⟨h_left, h_value⟩ := h_eval body h_body bound _ _ h_inner.1 h_result
      exact ⟨h_left.popFrame, h_value⟩

theorem callProcedure_upholds (head : Atom) {args : List Expression}
    (h_args : ∀ arg ∈ args, IsValue code arg) :
    Upholds (Environment.IsSound code) IsFault (IsValue code) (callProcedure eval head args) := by
  unfold callProcedure
  split
  case h_2 => exact .fail id
  refine .environment_bind fun env h_env => ?_
  split
  case h_1 procedure _ => exact .ofExcept (Builtin.call_fulfils (IsValue.closedUnderCalls code) h_args procedure)
  case h_2 lambda h_found =>
    obtain ⟨h_lambda, h_kind⟩ := h_env.procedure? h_found
    exact callLambda_upholds h_eval _ h_lambda h_kind h_args
  case h_3 => exact .fail id

/-! ### Special forms -/

section SpecialForms

variable {children : List Expression} (h_children : ∀ child ∈ children, code child)

include h_children

theorem evalBegin_upholds (h_some : children ≠ []) :
    Upholds (Environment.IsSound code) IsFault (IsValue code) (evalBegin eval children) := by
  induction children with
  | nil => exact absurd rfl h_some
  | cons first rest ih =>
    obtain ⟨h_first, h_rest⟩ := List.forall_mem_cons.mp h_children
    cases rest with
    | nil => exact h_eval first h_first
    | cons second others =>
      exact (h_eval first h_first).bind fun _ _ => ih h_rest (List.cons_ne_nil _ _)

theorem evalDefine_upholds :
    Upholds (Environment.IsSound code) IsFault (IsValue code) (evalDefine eval children) := by
  unfold evalDefine
  split
  case h_2 => exact .fail fun h => by cases h.2
  case h_3 => exact .fail (isFault_arityMismatch _ _ _)
  rename_i name _ value
  refine .environment_bind fun env _ => ?_
  split
  · exact .fail id
  refine (h_eval value (h_children value (by simp))).bind fun result h_result => ?_
  refine Upholds.bind (.update fun env h_env => ?_) fun _ _ => .pure h_result
  split
  case isTrue h_kind => exact h_env.bindLambda name h_result h_kind
  case isFalse => exact h_env.bindValue name h_result

theorem procedureAndItems_upholds (form : SpecialForm) (h_form : form.name ≠ "define") :
    Upholds (Environment.IsSound code) IsFault (fun found => ∀ item ∈ found.2, IsValue code item)
      (procedureAndItems eval form children) := by
  unfold procedureAndItems
  split
  case h_2 => exact .fail id
  case h_3 => exact .fail (isFault_arityMismatch _ _ _)
  rename_i name _ list
  refine .environment_bind fun env _ => ?_
  split
  · exact .fail id
  refine (h_eval list (h_children list (by simp))).bind fun value h_value => ?_
  have h_items := itemsOf_fulfils_items h_form (IsValue.closedUnderCalls code) h_value
  exact Upholds.bind (.ofExcept h_items) fun items h_items => .pure h_items

theorem evalSpecialForm_upholds (form : SpecialForm) (h_some : children ≠ []) :
    Upholds (Environment.IsSound code) IsFault (IsValue code)
      (evalSpecialForm eval form children) := by
  have h_items := procedureAndItems_upholds h_eval h_children
  cases form with
  | define => exact evalDefine_upholds h_eval h_children
  | begin => exact evalBegin_upholds h_eval h_children h_some
  | apply =>
    exact (h_items _ (by decide)).bind fun found h_found =>
      callProcedure_upholds h_eval found.1 h_found
  | map =>
    refine (h_items _ (by decide)).bind fun found h_found => ?_
    refine Upholds.bind (.mapM fun item h_item => ?_) fun results h_results =>
      .pure (isValue_list h_results)
    exact callProcedure_upholds h_eval found.1 (List.forall_mem_singleton.mpr (h_found item h_item))

end SpecialForms

/-! ### Nodes -/

theorem evalNode_upholds (h_code : IsText code) {e : Expression} (h_e : code e) :
    Upholds (Environment.IsSound code) IsFault (IsValue code) (evalNode eval e) := by
  have h_children := h_code.child h_e
  have h_args : Upholds (Environment.IsSound code) IsFault _ (e.tail.mapM eval) :=
    .mapM fun child h_child => h_eval child (h_children child h_child)
  unfold evalNode
  split
  case isTrue h_terminal =>
    simp only [Bool.and_eq_true, List.isEmpty_iff, Bool.not_eq_true'] at h_terminal
    exact evalTerminal_upholds h_code h_e h_terminal.1 h_terminal.2
  case isFalse h_form =>
  split
  case h_1 form h_name =>
    -- the head is a symbol, so that the node has children
    refine evalSpecialForm_upholds h_eval h_children form fun h_nil => h_form ?_
    cases h_head : e.head <;> rw [h_head] at h_name <;> first | cases h_name | simp [h_nil, isFormHead]
  case h_2 =>
  split
  · exact .ofExcept (makeLambda_fulfils h_children)
  · exact h_args.bind fun items h_items => .pure (isValue_list h_items)
  · rename_i text h_head
    have h_syntax := h_code.isSyntax h_e
    obtain ⟨head, tail, properties⟩ := e
    cases h_head
    cases h_syntax
    exact .pure (.string h_children nofun)
  · exact h_args.bind fun args h_values => callProcedure_upholds h_eval _ h_values

end Rules

/-! ## Evaluations -/

/-- Program text, evaluated where names stand for values, comes to a value or to a fault of the
program, and names stand for values again. -/
theorem evalWithin_upholds {code : Expression → Prop} (h_code : IsText code) (depth : Nat)
    {e : Expression} (h_e : code e) :
    Upholds (Environment.IsSound code) IsFault (IsValue code) (evalWithin depth e) := by
  induction depth generalizing e with
  | zero =>
    intro env result left _ h
    simp [evalWithin, exhausted] at h
  | succ depth ih => exact evalNode_upholds (fun _ => ih) h_code h_e

/-! ## Sessions -/

/-- Texts that are run one after another in a new session, each with its result. -/
inductive Session.Ran : List (String × Except ProgramError Expression) → Session → Prop where
  | new : Ran [] {}
  | run {runs session depth text result next} (h_runs : Ran runs session)
      (h_run : session.evalSource depth text = some (result, next)) :
      Ran (runs ++ [(text, result)]) next

namespace Session

variable {code : Expression → Prop} {session next : Session}

/-- The program of the text is what counts for program text. -/
theorem evalSource_sound (h_code : IsText code) (h_sound : session.environment.IsSound code)
    {depth : Nat} {text : String} {result : Except ProgramError Expression}
    (h_text : ∀ program, parseProgram text = .ok program → code program)
    (h_run : session.evalSource depth text = some (result, next)) :
    next.environment.IsSound code ∧ (∀ value, result = .ok value → IsValue code value) ∧
      ∀ error, result = .error (.semantic error) → IsFault error := by
  rcases h_parse : parseProgram text with error | program
  · simp only [evalSource, load, h_parse, Option.some.injEq, Prod.mk.injEq] at h_run
    obtain ⟨rfl, rfl⟩ := h_run
    exact ⟨h_sound, nofun, nofun⟩
  · simp only [evalSource, load, h_parse, evaluate, Session.run, Option.map_map,
      Option.map_eq_some_iff, Function.comp_apply, Prod.mk.injEq] at h_run
    obtain ⟨⟨outcome, left⟩, h_eval, rfl, rfl⟩ := h_run
    obtain ⟨h_left, h_outcome⟩ :=
      evalWithin_upholds h_code depth (h_text program h_parse) _ _ _ h_sound h_eval
    refine ⟨h_left, ?_⟩
    cases outcome with
    | ok value =>
      refine ⟨?_, nofun⟩
      rintro _ ⟨⟩
      exact h_outcome
    | error error =>
      refine ⟨nofun, ?_⟩
      rintro _ ⟨⟩
      exact h_outcome

theorem Ran.sound (h_code : IsText code) {runs : List (String × Except ProgramError Expression)}
    (h_ran : Ran runs session)
    (h_texts : ∀ text ∈ runs.map Prod.fst, ∀ program, parseProgram text = .ok program →
      code program) :
    session.environment.IsSound code ∧
      ∀ run ∈ runs, (∀ value, run.2 = .ok value → IsValue code value) ∧
        ∀ error, run.2 = .error (.semantic error) → IsFault error := by
  induction h_ran with
  | new => exact ⟨.initial, nofun⟩
  | run _ h_run ih =>
    rw [List.map_append, List.forall_mem_append] at h_texts
    obtain ⟨h_before, h_last⟩ := h_texts
    obtain ⟨h_sound, h_runs⟩ := ih h_before
    obtain ⟨h_next, h_result⟩ := evalSource_sound h_code h_sound (h_last _ (by simp)) h_run
    refine ⟨h_next, List.forall_mem_append.mpr ⟨h_runs, ?_⟩⟩
    exact List.forall_mem_singleton.mpr h_result

end Session

/-- Whatever texts are run one after another in a new session, each result without an error is a
value, and so is all that programs have bound. The program text in them is part of those texts. -/
theorem sessions_hold_values {runs : List (String × Except ProgramError Expression)}
    {session : Session} (h_ran : Session.Ran runs session) :
    (∀ text value, (text, .ok value) ∈ runs →
      IsValue (IsPartOfTexts (runs.map Prod.fst)) value) ∧
      ∀ name value, (name, value) ∈ session.environment.userBindings →
        IsValue (IsPartOfTexts (runs.map Prod.fst)) value := by
  obtain ⟨h_sound, h_runs⟩ := h_ran.sound (isText_isPartOfTexts _)
    fun text h_text program h_parse => ⟨text, h_text, program, h_parse, .whole⟩
  refine ⟨fun text value h_run => (h_runs _ h_run).1 value rfl, fun name value h_bound => ?_⟩
  obtain ⟨⟨name', binding⟩, h_entry, h_value⟩ := List.mem_filterMap.mp h_bound
  have h_binding := h_sound.globals _ h_entry
  cases binding <;> cases h_value
  · exact h_binding
  · exact h_binding.1

/-! ## A lambda that is bound -/

/-- The program that binds a lambda. -/
def lambdaProgram : Expression where
  head := .symbol "define"
  tail := [.ofAtom (.symbol "f"),
    { head := .lambda, tail := [.ofAtom (.symbol "x"), .ofAtom (.symbol "x")] }]

theorem parseProgram_lambdaProgram :
    parseProgram "(define f (lambda (x) (x)))" = .ok lambdaProgram := by
  have h_letters : "(define f (lambda (x) (x)))".toList
      = ['(', 'd', 'e', 'f', 'i', 'n', 'e', ' ', 'f', ' ', '(', 'l', 'a', 'm', 'b', 'd', 'a', ' ',
        '(', 'x', ')', ' ', '(', 'x', ')', ')', ')'] := by simp
  have h_read : Form.read? "(define f (lambda (x) (x)))"
      = some (.node (.bare "define") [.leaf (.bare "f"), .node (.bare "lambda")
          [.node (.bare "x") [], .node (.bare "x") []]]) := by
    rw [Form.read?, Lexeme.scan?, h_letters]
    rfl
  have h_define : (Token.bare "define").atom = .ok (.symbol "define") := by
    simp [Token.atom, Atom.ofToken, numberOfWord?, isNumeric, Atom.ofName]
  have h_lambda : (Token.bare "lambda").atom = .ok .lambda := by
    simp [Token.atom, Atom.ofToken, numberOfWord?, isNumeric, Atom.ofName]
  simp only [parseProgram, h_read, Form.expression, Form.expressions, h_define, h_lambda]
  rfl

/-- What the program binds. -/
def identityLambda : Expression := .lambda (.list [.ofAtom (.symbol "x")]) (.ofAtom (.symbol "x"))

/-- The session in which the lambda is bound. -/
def lambdaSession : Session where
  environment := { globals := Environment.initialGlobals.insert "f" (.lambda identityLambda) }
  program := some lambdaProgram

theorem evalSource_lambdaProgram :
    Session.evalSource 3 {} "(define f (lambda (x) (x)))"
      = some (.ok identityLambda, lambdaSession) := by
  rw [Session.evalSource, Session.load, parseProgram_lambdaProgram]
  rfl

/-- A lambda is bound, a text that is no program changes nothing, and the lambda is looked up. -/
theorem bound_lambda_is_value :
    ∃ runs session, Session.Ran runs session ∧ ("(f)", .ok identityLambda) ∈ runs ∧
      IsValue (IsPartOfTexts (runs.map Prod.fst)) identityLambda := by
  have h_bound := Session.Ran.new.run evalSource_lambdaProgram
  have h_failed := h_bound.run (show Session.evalSource 0 _ ")" = _ from rfl)
  have h_found :=
    h_failed.run (show Session.evalSource 3 _ "(f)" = some (.ok identityLambda, _) from rfl)
  exact ⟨_, _, h_found, by simp, (sessions_hold_values h_found).1 "(f)" _ (by simp)⟩

end PlotLisp
