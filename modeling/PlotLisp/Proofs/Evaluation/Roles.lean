import PlotLisp.Proofs.Evaluation.Effects
import PlotLisp.Proofs.NameMap.Order
import PlotLisp.Evaluation.Depth

/-!
# What names stand for

A name is asked for in two places, that of a value and that of a procedure, and the two questions are
answered from different parts of an environment: a lambda is found as a value in a frame, and as a
procedure among the globals. The answers agree nevertheless. A name is unknown, or stands for a plain
value that cannot be called, or for a lambda that is found in both places, or for a built-in procedure
that is no value.

* `Environment.Arises` are the environments that come up while programs are run, inside of calls too.
* `Environment.TellsKindsApart` is the invariant: among the globals, no lambda is bound as a plain value.
* `Role` lists the four cases, and `names_have_one_role` is the conclusion.
-/

namespace PlotLisp

open Evaluation

/-! ## Runs -/

/-- The environments that come up while programs are run, the first of them in the initial one: what
has been left by the evaluation of a program, or of a part of one; what the body of a call begins with,
whose frame is open and has its parameters in it, or some of them; and what is left where the frame is
closed again. -/
inductive Environment.Arises : Environment → Prop where
  | initial : Arises .initial
  | evaluated {env e result left} (h_env : Arises env) (h_run : Evaluates env e result left) :
      Arises left
  | opened {env} (h_env : Arises env) : Arises env.pushFrame
  | boundParameter {env symbol value bound} (h_env : Arises env)
      (h_bound : env.bindParameter symbol value = .ok bound) : Arises bound
  | closed {env} (h_env : Arises env) : Arises env.popFrame

/-! ## Lambdas among the globals -/

/-- What is bound for a plain value is no lambda, and what is bound for a lambda is one. -/
def Binding.IsOfItsKind : Binding → Prop
  | .constant e | .value e => e.kind ≠ .lambda
  | .builtin _ => True
  | .lambda e => e.kind = .lambda

/-- Each global is bound as what it is. -/
def Environment.TellsKindsApart (env : Environment) : Prop :=
  ∀ name binding, env.globals.get? name = some binding → binding.IsOfItsKind

namespace Environment.TellsKindsApart

variable {env : Environment}

theorem initial : Environment.initial.TellsKindsApart := by
  have h_entries : ∀ entry ∈ Environment.initialGlobals.entries, entry.2.IsOfItsKind := by
    refine NameMap.forall_mem_ofList (List.forall_mem_append.mpr ⟨?_, ?_⟩)
    · intro entry h_entry
      obtain ⟨⟨name, value⟩, h_constant, rfl⟩ := List.mem_map.mp h_entry
      simp only [Builtin.constants, List.mem_cons, List.not_mem_nil, or_false] at h_constant
      rcases h_constant with h | h | h <;> cases h <;> exact nofun
    · intro entry h_entry
      obtain ⟨procedure, -, rfl⟩ := List.mem_map.mp h_entry
      trivial
  intro name binding h_bound
  exact h_entries _ (NameMap.mem_entries_of_get? h_bound)

theorem insert (h_env : env.TellsKindsApart) {binding : Binding} (h_binding : binding.IsOfItsKind)
    (name : String) (frames : List (NameMap Expression)) :
    Environment.TellsKindsApart ⟨env.globals.insert name binding, frames⟩ := by
  intro other found h_found
  rw [NameMap.get?_insert] at h_found
  split at h_found
  · cases h_found
    exact h_binding
  · exact h_env other found h_found

end Environment.TellsKindsApart

/-- What keeps lambdas apart from plain values. -/
def KeepsKindsApart (before after : Environment) : Prop :=
  before.TellsKindsApart → after.TellsKindsApart

instance : IsEffect KeepsKindsApart where
  refl _ := id
  trans _ _ _ h_first h_second h_env := h_second (h_first h_env)
  value h_bound h_kind h_env := by
    obtain ⟨name, -, -, ⟨-, rfl⟩ | ⟨frame, outer, -, rfl⟩⟩ := Environment.eq_of_bindValue h_bound
    · exact h_env.insert (show (Binding.value _).IsOfItsKind from h_kind) _ _
    · exact h_env
  lambda h_bound h_env := by
    obtain ⟨name, -, -, h_kind, rfl⟩ := Environment.eq_of_bindLambda h_bound
    exact h_env.insert (show (Binding.lambda _).IsOfItsKind from h_kind) _ _
  call h_inner h_env := h_inner h_env

theorem Environment.Arises.tellsKindsApart {env : Environment} (h_env : env.Arises) :
    env.TellsKindsApart := by
  induction h_env with
  | initial => exact .initial
  | @evaluated env e result left _ h_run ih =>
    obtain ⟨depth, h_run⟩ := h_run
    exact evalWithin_leaves (R := KeepsKindsApart) depth e env result left h_run ih
  | opened _ ih | closed _ ih => exact ih
  | boundParameter _ h_bound ih =>
    rcases bindParameter_sameButInnermost h_bound with rfl | ⟨old, new, outer, globals, rfl, rfl⟩
    · exact ih
    · exact ih

/-! ## Roles -/

/-- What a name may stand for. -/
inductive Role where
  | unknown
  | plain
  | lambda
  | builtin

/-- The answers that an environment gives about a name of that role. -/
def Environment.Standing.Plays (standing : Environment.Standing) : Role → Prop
  | .unknown => standing.known = false ∧ standing.lookup? = none ∧ standing.procedure? = none
  | .plain => ∃ value, value.kind ≠ .lambda ∧ standing.lookup? = some value ∧
      standing.value? = some value ∧ standing.procedure? = none
  | .lambda => ∃ lambda, lambda.kind = .lambda ∧ standing.lookup? = some lambda ∧
      standing.procedure? = some (.lambda lambda)
  | .builtin => ∃ procedure, standing.procedure? = some (.builtin procedure) ∧
      standing.lookup? = none ∧ standing.value? = none

namespace Environment.Standing

/-- The role, as it can be told from the answers in the two places. -/
def role (standing : Standing) : Role :=
  match standing.procedure?, standing.lookup? with
  | none, none => .unknown
  | none, some _ => .plain
  | some (.lambda _), _ => .lambda
  | some (.builtin _), _ => .builtin

variable {standing : Standing} {role : Role}

theorem Plays.eq_role (h_role : standing.Plays role) : role = standing.role := by
  cases role with
  | unknown =>
    obtain ⟨-, h_lookup, h_procedure⟩ := h_role
    rw [Standing.role, h_procedure, h_lookup]
  | plain =>
    obtain ⟨value, -, h_lookup, -, h_procedure⟩ := h_role
    rw [Standing.role, h_procedure, h_lookup]
  | lambda =>
    obtain ⟨lambda, -, -, h_procedure⟩ := h_role
    rw [Standing.role, h_procedure]
  | builtin =>
    obtain ⟨procedure, h_procedure, -, -⟩ := h_role
    rw [Standing.role, h_procedure]

/-- Whatever role it is, a lambda is found in both places or in none. -/
theorem Plays.procedure?_eq_lambda_iff (h_role : standing.Plays role) (lambda : Expression) :
    standing.procedure? = some (.lambda lambda)
      ↔ lambda.kind = .lambda ∧ standing.lookup? = some lambda := by
  cases role with
  | unknown =>
    obtain ⟨-, h_lookup, h_procedure⟩ := h_role
    simp [h_lookup, h_procedure]
  | plain =>
    obtain ⟨value, h_kind, h_lookup, -, h_procedure⟩ := h_role
    simp only [h_lookup, h_procedure, reduceCtorEq, false_iff, Option.some.injEq]
    rintro ⟨h_lambda, rfl⟩
    exact h_kind h_lambda
  | lambda =>
    obtain ⟨value, h_kind, h_lookup, h_procedure⟩ := h_role
    simp only [h_lookup, h_procedure, Option.some.injEq, Procedure.lambda.injEq]
    exact ⟨fun h_same => ⟨h_same ▸ h_kind, h_same⟩, And.right⟩
  | builtin =>
    obtain ⟨procedure, h_procedure, h_lookup, -⟩ := h_role
    simp [h_lookup, h_procedure]

end Environment.Standing

namespace Environment

variable {env : Environment} {name : String}

/-! ### Where a name is found -/

theorem any_contains (env : Environment) (name : String) :
    env.frames.any (·.contains name) = (env.local? name).isSome :=
  List.isSome_findSome?.symm

/-- What a frame binds is found there by both questions. -/
theorem exists_role_of_local? {value : Expression} (h_local : env.local? name = some value) :
    ∃ role, (env.standing (.symbol name)).Plays role := by
  have h_value : env.value? name = some value := by rw [value?, h_local]
  have h_lookup : env.lookup? name = some value := by rw [lookup?, h_value]
  by_cases h_kind : value.kind = .lambda
  · refine ⟨.lambda, value, h_kind, h_lookup, ?_⟩
    show env.procedure? name = _
    simp only [procedure?, h_local, if_pos h_kind]
  · refine ⟨.plain, value, h_kind, h_lookup, h_value, ?_⟩
    show env.procedure? name = _
    simp only [procedure?, h_local, if_neg h_kind]

/-- Where no frame binds the name, it is a global or unknown. -/
theorem exists_role_of_global (h_env : env.TellsKindsApart) (h_local : env.local? name = none) :
    ∃ role, (env.standing (.symbol name)).Plays role := by
  have h_value : env.value? name = (env.globals.get? name).bind Binding.value? := by
    rw [value?, h_local]
  have h_procedure : env.procedure? name = (env.globals.get? name).bind Binding.procedure? := by
    rw [procedure?, h_local]
  rcases h_global : env.globals.get? name with _ | binding <;> rw [h_global] at h_value h_procedure
  · refine ⟨.unknown, ?_, ?_, h_procedure⟩
    · show env.knows name = false
      rw [knows, any_contains, h_local, NameMap.contains, h_global]
      rfl
    · show env.lookup? name = none
      simp [lookup?, h_value, h_procedure]
  have h_kind := h_env name binding h_global
  cases binding with
  | constant e | value e =>
    refine ⟨.plain, e, h_kind, ?_, h_value, h_procedure⟩
    show env.lookup? name = some e
    simp [lookup?, h_value, Binding.value?]
  | builtin procedure =>
    refine ⟨.builtin, procedure, h_procedure, ?_, h_value⟩
    show env.lookup? name = none
    simp [lookup?, h_value, h_procedure, Binding.value?, Binding.procedure?]
  | lambda e =>
    refine ⟨.lambda, e, h_kind, ?_, h_procedure⟩
    show env.lookup? name = some e
    simp [lookup?, h_value, h_procedure, Binding.value?, Binding.procedure?]

theorem TellsKindsApart.exists_role (h_env : env.TellsKindsApart) (name : String) :
    ∃ role, (env.standing (.symbol name)).Plays role := by
  rcases h_local : env.local? name with _ | value
  · exact exists_role_of_global h_env h_local
  · exact exists_role_of_local? h_local

end Environment

/-! ## Names as expressions -/

/-- A name evaluates to what it stands for in the place of a value. -/
theorem evaluates_symbol_iff {env left : Environment} {name : String} {value : Expression} :
    Evaluates env (.ofAtom (.symbol name)) (.ok value) left
      ↔ env.lookup? name = some value ∧ left = env := by
  have h_step (depth : Nat) : evalWithin (depth + 1) (.ofAtom (.symbol name)) env
      = some ((env.lookup? name).elim (.error (.unknownSymbol name)) .ok, env) := by
    change evalTerminal (.ofAtom (.symbol name)) env = _
    unfold evalTerminal
    dsimp only [Expression.ofAtom]
    rw [bind_apply, environment]
    dsimp only
    rcases env.lookup? name with _ | found <;> rfl
  constructor
  · rintro ⟨_ | depth, h_run⟩
    · cases h_run
    rw [h_step] at h_run
    rcases h_found : env.lookup? name with _ | found <;> rw [h_found] at h_run <;> cases h_run
    exact ⟨rfl, rfl⟩
  · rintro ⟨h_found, rfl⟩
    exact ⟨1, by rw [h_step, h_found, Option.elim_some]⟩

/-! ## Agreement of the two places -/

/-- In every environment that comes up in a run, inside of calls too, a name plays exactly one role. It can
be called as a lambda exactly if it evaluates to that lambda. -/
theorem names_have_one_role {env : Environment} (h_env : env.Arises) (name : String) :
    (∃! role, (env.standing (.symbol name)).Plays role) ∧
      ∀ lambda, (env.standing (.symbol name)).procedure? = some (.lambda lambda) ↔
        lambda.kind = .lambda ∧ Evaluates env (.ofAtom (.symbol name)) (.ok lambda) env := by
  obtain ⟨role, h_role⟩ := h_env.tellsKindsApart.exists_role name
  refine ⟨⟨role, h_role, fun other h_other => h_other.eq_role.trans h_role.eq_role.symm⟩, ?_⟩
  intro lambda
  have h_value : Evaluates env (.ofAtom (.symbol name)) (.ok lambda) env
      ↔ (env.standing (.symbol name)).lookup? = some lambda :=
    evaluates_symbol_iff.trans (and_iff_left rfl)
  rw [h_value]
  exact h_role.procedure?_eq_lambda_iff lambda

/-- A lambda that takes any argument and gives a string back. -/
def constantLambda : Expression :=
  .lambda (.list [.ofAtom (.symbol "x")]) (.ofAtom (.string "s"))

/-- Inside of a call whose parameter is named like a built-in procedure, and stands for the lambda. -/
def insideCallWithFirst : Environment where
  globals := Environment.initialGlobals
  frames := [NameMap.ofList [("first", constantLambda)]]

/-- The name is that of the lambda there, evaluates to it, and plays no other role. -/
theorem parameter_named_like_procedure_is_lambda :
    insideCallWithFirst.Arises ∧ insideCallWithFirst.isBuiltIn "first" ∧
      Evaluates insideCallWithFirst (.ofAtom (.symbol "first")) (.ok constantLambda)
        insideCallWithFirst ∧
      ∀ role, (insideCallWithFirst.standing (.symbol "first")).Plays role → role = .lambda := by
  have h_arises : insideCallWithFirst.Arises :=
    Environment.Arises.initial.opened.boundParameter
      (show Environment.bindParameter _ (.symbol "first") constantLambda = _ from rfl)
  obtain ⟨h_role, h_lambda⟩ := names_have_one_role h_arises "first"
  have h_called := (h_lambda constantLambda).mp rfl
  have h_plays : (insideCallWithFirst.standing (.symbol "first")).Plays .lambda :=
    ⟨constantLambda, rfl, rfl, rfl⟩
  exact ⟨h_arises, rfl, h_called.2, fun role h_other => h_role.unique h_other h_plays⟩

end PlotLisp
