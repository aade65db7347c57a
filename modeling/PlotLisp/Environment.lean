import PlotLisp.Procedure.Builtin

/-!
# Environments

What the names of a program stand for. Global names are bound to constants and procedures from
the start, and to values and lambdas by programs. Each call of a lambda puts a frame of its own
on top, and a name is sought in the frames, innermost first, before the globals.

Two questions are asked of a name. In the place of a value it stands for a plain value or for a
lambda; in the place of a procedure for a lambda or for a built-in procedure. A name in a frame
hides a global one in both places, whether it holds a lambda or not.

The constants, the built-in procedures and the special forms cannot be rebound.
-/

namespace PlotLisp

/-! ## Bindings -/

/-- What a global name stands for. -/
inductive Binding where
  | constant (value : Expression)
  | value (value : Expression)
  | builtin (procedure : Builtin)
  | lambda (lambda : Expression)

/-- What can be called. -/
inductive Procedure where
  | builtin (procedure : Builtin)
  | lambda (lambda : Expression)

/-- The global names, and the frames of the calls under way, the innermost first. -/
structure Environment where
  globals : NameMap Binding
  frames : List (NameMap Expression) := []

namespace Binding

/-- Bound from the start, by no program. -/
def isBuiltIn : Binding → Bool
  | .constant _ | .builtin _ => true
  | _ => false

/-- The plain value of a binding. -/
def value? : Binding → Option Expression
  | .constant e | .value e => some e
  | _ => none

def procedure? : Binding → Option Procedure
  | .builtin b => some (.builtin b)
  | .lambda e => some (.lambda e)
  | _ => none

/-- What a program bound. -/
def userValue? : Binding → Option Expression
  | .value e | .lambda e => some e
  | _ => none

end Binding

/-- The name of a symbol. -/
def Atom.symbolName? : Atom → Option String
  | .symbol name => some name
  | _ => none

namespace Environment

/-! ## The initial environment -/

/-- The globals that every program starts with. -/
def initialGlobals : NameMap Binding :=
  .ofList (Builtin.constants.map (fun (name, value) => (name, .constant value))
    ++ Builtin.all.map fun procedure => (procedure.name, .builtin procedure))

def initial : Environment := { globals := initialGlobals }

instance : Inhabited Environment := ⟨initial⟩

/-! ## Looking names up -/

/-- The value of a name in the innermost frame that has it. -/
def local? (env : Environment) (name : String) : Option Expression :=
  env.frames.findSome? (·.get? name)

/-- The plain value of a name. -/
def value? (env : Environment) (name : String) : Option Expression :=
  match env.local? name with
  | some value => some value
  | none => (env.globals.get? name).bind Binding.value?

/-- What a name stands for in the place of a procedure. -/
def procedure? (env : Environment) (name : String) : Option Procedure :=
  match env.local? name with
  | some value => if value.kind = .lambda then some (.lambda value) else none
  | none => (env.globals.get? name).bind Binding.procedure?

/-- What a name stands for in the place of a value: a plain value, or a lambda, which is a value
too. A built-in procedure is none. -/
def lookup? (env : Environment) (name : String) : Option Expression :=
  match env.value? name with
  | some value => some value
  | none =>
    match env.procedure? name with
    | some (.lambda lambda) => some lambda
    | _ => none

/-- The name stands for anything at all. -/
def knows (env : Environment) (name : String) : Bool :=
  env.frames.any (·.contains name) || env.globals.contains name

/-- The name is bound from the start. -/
def isBuiltIn (env : Environment) (name : String) : Bool :=
  match env.globals.get? name with
  | some binding => binding.isBuiltIn
  | none => false

/-! ## Binding names -/

/-- Why a name cannot be bound, if it cannot. -/
def protection? (env : Environment) (name : String) : Option Protection :=
  if (SpecialForm.ofName? name).isSome then some .specialForm
  else if env.isBuiltIn name then some .builtIn
  else none

/-- The name of a symbol that may be bound. -/
def bindableName (env : Environment) (symbol : Atom) : Except SemanticError String :=
  match symbol with
  | .symbol name =>
    match env.protection? name with
    | some protection => .error (.redefinition name protection)
    | none => .ok name
  | other => .error (.nonSymbolBinding other.kind)

/-- Binds a plain value, in the innermost frame if there is one. -/
def bindValue (env : Environment) (symbol : Atom) (value : Expression) :
    Except SemanticError Environment := do
  let name ← env.bindableName symbol
  match env.frames with
  | frame :: outer => return { env with frames := frame.insert name value :: outer }
  | [] => return { env with globals := env.globals.insert name (.value value) }

/-- Binds a lambda, always among the globals. -/
def bindLambda (env : Environment) (symbol : Atom) (lambda : Expression) :
    Except SemanticError Environment := do
  let name ← env.bindableName symbol
  if lambda.kind = .lambda then
    return { env with globals := env.globals.insert name (.lambda lambda) }
  else throw (wrongKind "define" (.ofKind .lambda) lambda)

theorem bindableName_eq_ok_iff {env : Environment} {symbol : Atom} {name : String} :
    env.bindableName symbol = .ok name
      ↔ symbol = .symbol name ∧ env.protection? name = none := by
  cases symbol with
  | symbol other =>
    rcases h_protected : env.protection? other with _ | protection
    · simp only [bindableName, h_protected, Except.ok.injEq, Atom.symbol.injEq]
      exact ⟨fun h => ⟨h, h ▸ h_protected⟩, And.left⟩
    · simp only [bindableName, h_protected, reduceCtorEq, false_iff, Atom.symbol.injEq]
      rintro ⟨rfl, h_free⟩
      simp [h_protected] at h_free
  | _ => simp [bindableName]

/-- What binding a plain value leaves. -/
theorem eq_of_bindValue {env bound : Environment} {symbol : Atom} {value : Expression}
    (h_bound : env.bindValue symbol value = .ok bound) :
    ∃ name, symbol = .symbol name ∧ env.protection? name = none ∧
      ((env.frames = [] ∧ bound = { env with globals := env.globals.insert name (.value value) }) ∨
        ∃ frame outer, env.frames = frame :: outer ∧
          bound = { env with frames := frame.insert name value :: outer }) := by
  rcases h_name : env.bindableName symbol with error | name
  · simp [bindValue, h_name, bind, Except.bind] at h_bound
  · obtain ⟨rfl, h_free⟩ := bindableName_eq_ok_iff.mp h_name
    refine ⟨name, rfl, h_free, ?_⟩
    rcases h_frames : env.frames with _ | ⟨frame, outer⟩ <;>
      simp only [bindValue, h_name, h_frames, bind, Except.bind, pure, Except.pure,
        Except.ok.injEq] at h_bound
    · exact .inl ⟨rfl, h_bound.symm⟩
    · exact .inr ⟨frame, outer, rfl, h_bound.symm⟩

/-- What binding a lambda leaves. -/
theorem eq_of_bindLambda {env bound : Environment} {symbol : Atom} {lambda : Expression}
    (h_bound : env.bindLambda symbol lambda = .ok bound) :
    ∃ name, symbol = .symbol name ∧ env.protection? name = none ∧ lambda.kind = .lambda ∧
      bound = { env with globals := env.globals.insert name (.lambda lambda) } := by
  rcases h_name : env.bindableName symbol with error | name
  · simp [bindLambda, h_name, bind, Except.bind] at h_bound
  · obtain ⟨rfl, h_free⟩ := bindableName_eq_ok_iff.mp h_name
    by_cases h_kind : lambda.kind = .lambda
    · simp only [bindLambda, h_name, h_kind, bind, Except.bind, if_true, pure, Except.pure,
        Except.ok.injEq] at h_bound
      exact ⟨name, rfl, h_free, h_kind, h_bound.symm⟩
    · simp [bindLambda, h_name, h_kind, bind, Except.bind, throw, throwThe,
        MonadExceptOf.throw] at h_bound

/-! ## Calls -/

/-- Opens the frame of a call. -/
def pushFrame (env : Environment) : Environment := { env with frames := ∅ :: env.frames }

/-- Closes the innermost frame. -/
def popFrame (env : Environment) : Environment := { env with frames := env.frames.tail }

@[simp] theorem popFrame_pushFrame (env : Environment) : env.pushFrame.popFrame = env := rfl

/-- A frame that has just been opened hides nothing. -/
@[simp] theorem local?_pushFrame (env : Environment) (name : String) :
    env.pushFrame.local? name = env.local? name := rfl

/-- Binds a parameter in the innermost frame. A parameter may have any name, protected or not. -/
def bindParameter (env : Environment) (symbol : Atom) (value : Expression) :
    Except SemanticError Environment :=
  match symbol with
  | .symbol name =>
    match env.frames with
    | frame :: outer => .ok { env with frames := frame.insert name value :: outer }
    | [] => .error .parameterOutsideCall
  | other => .error (.nonSymbolParameter other.kind)

/-- Drops the frames of calls that never returned. -/
def unwind (env : Environment) : Environment := { env with frames := [] }

/-! ## Listing names -/

/-- What programs bound among the globals, in the order of the names. -/
def userBindings (env : Environment) : List (String × Expression) :=
  env.globals.entries.filterMap fun (name, binding) => binding.userValue?.map (name, ·)

/-- All global names, in order. -/
def globalNames (env : Environment) : List String := env.globals.names

/-! ## The standing of a symbol -/

/-- All that an environment says of one symbol. -/
structure Standing where
  known : Bool
  builtIn : Bool
  value? : Option Expression
  lookup? : Option Expression
  procedure? : Option Procedure

/-- How an atom stands in an environment. Only a symbol can stand for anything, but the label
of any atom may be a name bound from the start. -/
def standing (env : Environment) (symbol : Atom) : Standing :=
  let name? := symbol.symbolName?
  { known := name?.any env.knows
    builtIn := env.isBuiltIn symbol.label
    value? := name?.bind env.value?
    lookup? := name?.bind env.lookup?
    procedure? := name?.bind env.procedure? }

end Environment

end PlotLisp
