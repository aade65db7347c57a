import Mathlib.Data.Set.Basic
import PlotLisp.Proofs.Evaluation.AlikeCalls

/-!
# Environments that are alike

Two environments may hold what is alike under some names, and anything at all under the others.

* `Environment.AgreesOn` says that two environments hold the same under some names, frame by frame
  and among the globals, and `Environment.AlikeOn` that they hold what is alike there.
* `Environment.HasLambda` are the lambdas that can be got at through a name.
* `Likeness.Matches` is what two runs keep: what is alike under the names, with no lambda that mentions
  another name. It has a rule for each thing that an evaluation does to an environment.
-/

namespace PlotLisp

open Evaluation

/-! ## What environments hold under a name -/

/-- What a name is bound to, unless that is a built-in procedure. -/
def Binding.expression? : Binding → Option Expression
  | .constant e | .value e | .lambda e => some e
  | .builtin _ => none

/-- Bindings of one sort, to expressions that are so related, or to the same procedure. -/
inductive Binding.Alike (same : Expression → Expression → Prop) : Binding → Binding → Prop where
  | constant {value value'} (h_same : same value value') :
      Alike same (.constant value) (.constant value')
  | value {value value'} (h_same : same value value') : Alike same (.value value) (.value value')
  | builtin (procedure) : Alike same (.builtin procedure) (.builtin procedure)
  | lambda {lambda lambda'} (h_same : same lambda lambda') :
      Alike same (.lambda lambda) (.lambda lambda')

theorem Binding.Alike.refl {same : Expression → Expression → Prop} (h_same : ∀ e, same e e)
    (binding : Binding) : Binding.Alike same binding binding := by
  cases binding with
  | constant value => exact .constant (h_same value)
  | value value => exact .value (h_same value)
  | builtin procedure => exact .builtin procedure
  | lambda lambda => exact .lambda (h_same lambda)

namespace Environment

/-- What each frame has for a name, the innermost first. -/
def inFrames (env : Environment) (name : String) : List (Option Expression) :=
  env.frames.map (·.get? name)

/-- The environments have as many frames, and hold the same under each of the names. -/
structure AgreesOn (names : Set String) (env other : Environment) : Prop where
  depth : env.frames.length = other.frames.length
  frames : ∀ name ∈ names, env.inFrames name = other.inFrames name
  globals : ∀ name ∈ names, env.globals.get? name = other.globals.get? name

/-- The environments have as many frames, and hold expressions that are so related under each of the
names. -/
structure AlikeOn (same : Expression → Expression → Prop) (names : Set String)
    (env other : Environment) : Prop where
  depth : env.frames.length = other.frames.length
  frames : ∀ name ∈ names,
    List.Forall₂ (Option.Rel same) (env.inFrames name) (other.inFrames name)
  globals : ∀ name ∈ names,
    Option.Rel (Binding.Alike same) (env.globals.get? name) (other.globals.get? name)

/-- A lambda that is bound to a name to be called, or that is inside of an expression which a frame or
the globals have for the name. -/
inductive HasLambda (inside : Expression → Expression → Prop) (env : Environment) (name : String) :
    Expression → Prop where
  | called {lambda} (h_bound : env.globals.get? name = some (.lambda lambda)) :
      HasLambda inside env name lambda
  | inGlobals {binding value lambda} (h_bound : env.globals.get? name = some binding)
      (h_value : binding.expression? = some value) (h_inside : inside value lambda)
      (h_kind : lambda.kind = .lambda) : HasLambda inside env name lambda
  | inFrames {value lambda} (h_bound : some value ∈ env.inFrames name)
      (h_inside : inside value lambda) (h_kind : lambda.kind = .lambda) :
      HasLambda inside env name lambda

namespace AgreesOn

variable {names : Set String} {env other left : Environment}

instance : IsPreorder Environment (AgreesOn names) where
  refl _ := ⟨rfl, fun _ _ => rfl, fun _ _ => rfl⟩
  trans _ _ _ h_first h_second :=
    { depth := h_first.depth.trans h_second.depth
      frames := fun name h_name => (h_first.frames name h_name).trans (h_second.frames name h_name)
      globals := fun name h_name => (h_first.globals name h_name).trans (h_second.globals name h_name) }

theorem insert_global (env : Environment) {name : String} (h_name : name ∉ names)
    (binding : Binding) :
    AgreesOn names env { env with globals := env.globals.insert name binding } where
  depth := rfl
  frames _ _ := rfl
  globals other h_other := by
    have h_ne : name ≠ other := fun h_same => h_name (h_same ▸ h_other)
    rw [NameMap.get?_insert, if_neg h_ne]

theorem insert_local (globals : NameMap Binding) (frame : NameMap Expression)
    (outer : List (NameMap Expression)) {name : String} (h_name : name ∉ names) (value : Expression) :
    AgreesOn names ⟨globals, frame :: outer⟩ ⟨globals, frame.insert name value :: outer⟩ where
  depth := rfl
  frames other h_other := by
    have h_ne : name ≠ other := fun h_same => h_name (h_same ▸ h_other)
    rw [inFrames, inFrames, List.map_cons, List.map_cons, NameMap.get?_insert, if_neg h_ne]
  globals _ _ := rfl

theorem alikeOn {same : Expression → Expression → Prop} (h_same : ∀ e, same e e)
    (h_agrees : AgreesOn names env other) : AlikeOn same names env other where
  depth := h_agrees.depth
  frames name h_name := by
    rw [← h_agrees.frames name h_name]
    exact List.forall₂_same.mpr fun found _ => rel_refl h_same found
  globals name h_name := by
    rw [← h_agrees.globals name h_name]
    exact rel_refl (Binding.Alike.refl h_same) _

/-- What a call leaves outside of its own frame. -/
theorem popFrame (h_inner : AgreesOn names env.pushFrame left) : AgreesOn names env left.popFrame where
  depth := by
    have h_depth := h_inner.depth
    simp only [pushFrame, List.length_cons] at h_depth
    simp only [Environment.popFrame, List.length_tail]
    omega
  frames name h_name := by
    have h_frames := congrArg List.tail (h_inner.frames name h_name)
    simpa only [inFrames, Environment.popFrame, pushFrame, List.map_cons, List.tail_cons,
      List.map_tail] using h_frames
  globals := h_inner.globals

end AgreesOn

end Environment

/-! ## Environments that hold what is alike -/

namespace Likeness

variable {L : Likeness} {names : Set String}

variable (L names) in
/-- Bindings that stand for what is alike. What is bound to be called is program text inside. -/
inductive Bindings : Binding → Binding → Prop where
  | constant {value value'} (h_values : L.Values names value value') :
      Bindings (.constant value) (.constant value')
  | value {value value'} (h_values : L.Values names value value') :
      Bindings (.value value) (.value value')
  | builtin {procedure} (h_reads : procedure = .getProperty → L.reads) :
      Bindings (.builtin procedure) (.builtin procedure)
  | lambda {lambda lambda'} (h_values : L.Values names lambda lambda')
      (h_texts : List.Forall₂ (L.Texts names) lambda.tail lambda'.tail) :
      Bindings (.lambda lambda) (.lambda lambda')

variable (L names) in
/-- Procedures that are alike. -/
inductive Procedures : Procedure → Procedure → Prop where
  | builtin {procedure} (h_reads : procedure = .getProperty → L.reads) :
      Procedures (.builtin procedure) (.builtin procedure)
  | lambda {lambda lambda'} (h_values : L.Values names lambda lambda')
      (h_texts : List.Forall₂ (L.Texts names) lambda.tail lambda'.tail) :
      Procedures (.lambda lambda) (.lambda lambda')

variable (L names) in
/-- The environments have as many frames, and hold what is alike under each of the names. -/
structure Matches (env other : Environment) : Prop where
  depth : env.frames.length = other.frames.length
  frames : ∀ name ∈ names,
    List.Forall₂ (Option.Rel (L.Values names)) (env.inFrames name) (other.inFrames name)
  globals : ∀ name ∈ names,
    Option.Rel (L.Bindings names) (env.globals.get? name) (other.globals.get? name)

namespace Matches

variable {env other : Environment} {name : String} {value value' : Expression}

/-! ### Looking names up -/

section Lookups

variable (h_env : L.Matches names env other) (h_name : name ∈ names)

include h_env h_name

theorem local? : Option.Rel (L.Values names) (env.local? name) (other.local? name) := by
  have h_frames := h_env.frames name h_name
  unfold Environment.local? Environment.inFrames at *
  -- the innermost frame that has the name is the same on both sides
  generalize env.frames = frames at h_frames
  generalize other.frames = frames' at h_frames
  induction frames generalizing frames' with
  | nil =>
    cases List.map_eq_nil_iff.mp (List.forall₂_nil_left_iff.mp h_frames)
    exact .none
  | cons frame outer ih =>
    obtain ⟨found, rest, h_found, h_outer, h_map⟩ := List.forall₂_cons_left_iff.mp h_frames
    obtain ⟨frame', outer', rfl, rfl, rfl⟩ := List.map_eq_cons_iff.mp h_map
    rw [List.findSome?_cons, List.findSome?_cons]
    change Option.Rel (L.Values names) (frame.get? name) (frame'.get? name) at h_found
    generalize frame.get? name = first at h_found
    generalize frame'.get? name = first' at h_found
    cases h_found with
    | none => exact ih _ h_outer
    | some h_values => exact .some h_values

theorem value? : Option.Rel (L.Values names) (env.value? name) (other.value? name) := by
  have h_local := h_env.local? h_name
  have h_global := h_env.globals name h_name
  unfold Environment.value?
  generalize env.local? name = found at h_local
  generalize other.local? name = found' at h_local
  generalize env.globals.get? name = global at h_global
  generalize other.globals.get? name = global' at h_global
  cases h_local with
  | some h_values => exact .some h_values
  | none =>
    cases h_global with
    | none => exact .none
    | some h_bindings =>
      cases h_bindings with
      | constant h_values | value h_values => exact .some h_values
      | builtin | lambda => exact .none

theorem procedure? :
    Option.Rel (L.Procedures names) (env.procedure? name) (other.procedure? name) := by
  have h_local := h_env.local? h_name
  have h_global := h_env.globals name h_name
  unfold Environment.procedure?
  generalize env.local? name = found at h_local
  generalize other.local? name = found' at h_local
  generalize env.globals.get? name = global at h_global
  generalize other.globals.get? name = global' at h_global
  cases h_local with
  | @some lambda lambda' h_values =>
    by_cases h_kind : lambda.kind = .lambda
    · have h_kind' : lambda'.kind = .lambda := h_values.kind_eq ▸ h_kind
      simp only [if_pos h_kind, if_pos h_kind']
      exact .some (.lambda h_values (h_values.texts_of_lambda h_kind))
    · have h_kind' : lambda'.kind ≠ .lambda := h_values.kind_eq ▸ h_kind
      simp only [if_neg h_kind, if_neg h_kind']
      exact .none
  | none =>
    cases h_global with
    | none => exact .none
    | some h_bindings =>
      cases h_bindings with
      | constant | value => exact .none
      | builtin h_reads => exact .some (.builtin h_reads)
      | lambda h_values h_texts => exact .some (.lambda h_values h_texts)

theorem procedure?_isNone : (env.procedure? name).isNone = (other.procedure? name).isNone := by
  have h_procedure := h_env.procedure? h_name
  generalize env.procedure? name = procedure at h_procedure
  generalize other.procedure? name = procedure' at h_procedure
  cases h_procedure <;> rfl

theorem lookup? : Option.Rel (L.Values names) (env.lookup? name) (other.lookup? name) := by
  have h_value := h_env.value? h_name
  have h_procedure := h_env.procedure? h_name
  unfold Environment.lookup?
  generalize env.value? name = found at h_value
  generalize other.value? name = found' at h_value
  generalize env.procedure? name = procedure at h_procedure
  generalize other.procedure? name = procedure' at h_procedure
  cases h_value with
  | some h_values => exact .some h_values
  | none =>
    cases h_procedure with
    | none => exact .none
    | some h_procedures =>
      cases h_procedures with
      | builtin => exact .none
      | lambda h_values => exact .some h_values

theorem protection?_eq : env.protection? name = other.protection? name := by
  have h_global := h_env.globals name h_name
  unfold Environment.protection? Environment.isBuiltIn
  generalize env.globals.get? name = global at h_global
  generalize other.globals.get? name = global' at h_global
  cases h_global with
  | none => rfl
  | some h_bindings => cases h_bindings <;> rfl

end Lookups

/-! ### Binding names -/

/-- A name that both sides may use is bound on both sides. -/
theorem insert_global (h_env : L.Matches names env other) (name : String) {binding binding' : Binding}
    (h_bindings : L.Bindings names binding binding') :
    L.Matches names { env with globals := env.globals.insert name binding }
      { other with globals := other.globals.insert name binding' } where
  depth := h_env.depth
  frames := h_env.frames
  globals other h_other := by
    rw [NameMap.get?_insert, NameMap.get?_insert]
    by_cases h_same : name = other
    · rw [if_pos h_same, if_pos h_same]
      exact .some h_bindings
    · rw [if_neg h_same, if_neg h_same]
      exact h_env.globals other h_other

theorem insert_local {globals globals' : NameMap Binding} {frame frame' : NameMap Expression}
    {outer outer' : List (NameMap Expression)}
    (h_env : L.Matches names ⟨globals, frame :: outer⟩ ⟨globals', frame' :: outer'⟩) (name : String)
    (h_values : L.Values names value value') :
    L.Matches names ⟨globals, frame.insert name value :: outer⟩
      ⟨globals', frame'.insert name value' :: outer'⟩ where
  depth := h_env.depth
  frames other h_other := by
    obtain ⟨h_frame, h_outer⟩ := List.forall₂_cons.mp (h_env.frames other h_other)
    refine .cons ?_ h_outer
    change Option.Rel _ ((frame.insert name value).get? other)
      ((frame'.insert name value').get? other)
    rw [NameMap.get?_insert, NameMap.get?_insert]
    by_cases h_same : name = other
    · rw [if_pos h_same, if_pos h_same]
      exact .some h_values
    · rw [if_neg h_same, if_neg h_same]
      exact h_frame
  globals := h_env.globals

/-! ### Calls -/

theorem pushFrame (h_env : L.Matches names env other) :
    L.Matches names env.pushFrame other.pushFrame where
  depth := congrArg (· + 1) h_env.depth
  frames name h_name := .cons .none (h_env.frames name h_name)
  globals := h_env.globals

theorem popFrame (h_env : L.Matches names env other) :
    L.Matches names env.popFrame other.popFrame where
  depth := by
    simp only [Environment.popFrame, List.length_tail, h_env.depth]
  frames name h_name := by
    have h_frames := List.forall₂_drop 1 (h_env.frames name h_name)
    simpa only [Environment.inFrames, Environment.popFrame, List.map_tail, List.drop_one]
      using h_frames
  globals := h_env.globals

/-! ### Changes -/

variable (L names) in
/-- What two changes leave: what is alike under the names, and under all others what was there. -/
def Changed (env other left left' : Environment) : Prop :=
  L.Matches names left left' ∧ env.AgreesOn namesᶜ left ∧ other.AgreesOn namesᶜ left'

section Changes

variable (h_env : L.Matches names env other) (h_name : name ∈ names)

include h_env h_name

theorem bindableName_eq :
    env.bindableName (.symbol name) = other.bindableName (.symbol name) := by
  simp only [Environment.bindableName, h_env.protection?_eq h_name]

theorem bindValue (h_values : L.Values names value value') :
    Corresponds (Changed L names env other) (env.bindValue (.symbol name) value)
      (other.bindValue (.symbol name) value') := by
  unfold Environment.bindValue
  rw [← h_env.bindableName_eq h_name]
  rcases h_bindable : env.bindableName (.symbol name) with error | bindable
  · exact .error error
  obtain ⟨⟨rfl⟩, -⟩ := Environment.bindableName_eq_ok_iff.mp h_bindable
  have h_not : name ∉ namesᶜ := not_not_intro h_name
  have h_depth := h_env.depth
  obtain ⟨globals, frames⟩ := env
  obtain ⟨globals', frames'⟩ := other
  cases frames with
  | nil =>
    cases List.length_eq_zero_iff.mp h_depth.symm
    exact .ok ⟨h_env.insert_global name (.value h_values), .insert_global _ h_not _,
      .insert_global _ h_not _⟩
  | cons frame outer =>
    obtain ⟨frame', outer', rfl⟩ := List.exists_cons_of_length_eq_add_one h_depth.symm
    exact .ok ⟨h_env.insert_local name h_values, .insert_local _ _ _ h_not _,
      .insert_local _ _ _ h_not _⟩

theorem bindLambda (h_values : L.Values names value value') (h_kind : value.kind = .lambda) :
    Corresponds (Changed L names env other) (env.bindLambda (.symbol name) value)
      (other.bindLambda (.symbol name) value') := by
  unfold Environment.bindLambda
  rw [← h_env.bindableName_eq h_name, ← h_values.kind_eq, h_kind]
  rcases h_bindable : env.bindableName (.symbol name) with error | bindable
  · exact .error error
  obtain ⟨⟨rfl⟩, -⟩ := Environment.bindableName_eq_ok_iff.mp h_bindable
  have h_not : name ∉ namesᶜ := not_not_intro h_name
  exact .ok ⟨h_env.insert_global name (.lambda h_values (h_values.texts_of_lambda h_kind)),
    .insert_global _ h_not _, .insert_global _ h_not _⟩

end Changes

theorem bindParameter (h_env : L.Matches names env other) {parameter parameter' : Expression}
    (h_parameter : L.Texts names parameter parameter') (h_values : L.Values names value value') :
    Corresponds (Changed L names env other) (env.bindParameter parameter.head value)
      (other.bindParameter parameter'.head value') := by
  have h_depth := h_env.depth
  rw [← h_parameter.head_eq]
  rcases h_head : parameter.head with _ | _ | _ | name | _ | _ | _
  case symbol =>
    have h_not : name ∉ namesᶜ := not_not_intro (h_parameter.name_mem h_head)
    obtain ⟨globals, frames⟩ := env
    obtain ⟨globals', frames'⟩ := other
    cases frames with
    | nil =>
      cases List.length_eq_zero_iff.mp h_depth.symm
      exact .error _
    | cons frame outer =>
      obtain ⟨frame', outer', rfl⟩ := List.exists_cons_of_length_eq_add_one h_depth.symm
      exact .ok ⟨h_env.insert_local name h_values, .insert_local _ _ _ h_not _,
        .insert_local _ _ _ h_not _⟩
  all_goals exact .error _

end Matches

/-! ## From likeness to matching, and back -/

/-- Environments match where they hold what is alike, if no lambda that can be got at mentions another
name, and no name stands for a procedure that tells the two sides apart. -/
theorem matches_of_alikeOn {env other : Environment} (h_alike : env.AlikeOn L.same names other)
    (h_lambdas : ∀ name ∈ names, ∀ lambda, env.HasLambda L.inside name lambda → lambda.NamedIn names)
    (h_reads : ∀ name ∈ names, env.globals.get? name = some (.builtin .getProperty) → L.reads) :
    L.Matches names env other where
  depth := h_alike.depth
  frames name h_name := by
    have h_confined : ∀ found ∈ env.inFrames name, ∀ value ∈ found, L.Confined names value :=
      fun found h_found value h_value part h_part h_kind =>
        h_lambdas name h_name part (.inFrames (h_value ▸ h_found) h_part h_kind)
    have h_frames := (List.forall₂_and_left _ _).mpr ⟨h_confined, h_alike.frames name h_name⟩
    exact h_frames.imp fun _ _ => rel_and_left.mpr
  globals name h_name := by
    have h_global := h_alike.globals name h_name
    generalize other.globals.get? name = bound' at h_global
    rcases h_bound : env.globals.get? name with _ | binding
    · rw [h_bound] at h_global
      cases h_global
      exact .none
    have h_confined : ∀ value, binding.expression? = some value → L.Confined names value :=
      fun value h_value part h_part h_kind =>
        h_lambdas name h_name part (.inGlobals h_bound h_value h_part h_kind)
    rw [h_bound] at h_global
    cases h_global with
    | some h_bindings =>
      refine .some ?_
      cases h_bindings with
      | constant h_same => exact .constant ⟨h_confined _ rfl, h_same⟩
      | value h_same => exact .value ⟨h_confined _ rfl, h_same⟩
      | builtin procedure =>
        exact .builtin fun h_procedure => h_reads name h_name (h_procedure ▸ h_bound)
      | lambda h_same =>
        have h_values : L.Values names _ _ := ⟨h_confined _ rfl, h_same⟩
        have h_named := h_lambdas name h_name _ (.called h_bound)
        exact .lambda h_values (Texts.tails ⟨⟨h_named, h_values.1⟩, h_same⟩)

/-- What matching environments hold under the names is alike. -/
theorem Matches.alikeOn {env other : Environment} (h_env : L.Matches names env other) :
    env.AlikeOn L.same names other where
  depth := h_env.depth
  frames name h_name :=
    (h_env.frames name h_name).imp fun _ _ h_found => rel_imp h_found fun _ _ h_values => h_values.2
  globals name h_name := by
    refine rel_imp (h_env.globals name h_name) fun binding binding' h_bindings => ?_
    cases h_bindings with
    | constant h_values => exact .constant h_values.2
    | value h_values => exact .value h_values.2
    | builtin => exact .builtin _
    | lambda h_values => exact .lambda h_values.2

end Likeness

end PlotLisp
