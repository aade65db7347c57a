import PlotLisp.Environment

/-!
# Evaluation

A node without children is looked up or stands for itself. Any other node is a special form, a
list, a lambda, a quoted string, or else the application of a procedure to the values of its
children, which are evaluated from left to right. The first error ends the evaluation, and what
was bound before it stays bound.

A program may call itself without end, so evaluation is bounded by a depth: `evalWithin depth`
gives no result where evaluations would nest deeper than that. A result, once there is one, is
the same within any greater depth (`PlotLisp.Evaluation.Depth`); `Evaluates` speaks of results
without a depth.

* `Evaluation` is a computation on an environment that has a value, an error, or no result.
* `evalNode` is one step: the rules for a node, given an evaluator for what is inside it.
* `evalWithin` ties the knot.
-/

namespace PlotLisp

/-! ## Computations on an environment -/

/-- A computation on an environment. It gives no result if it nests too deep; otherwise it gives
a value or an error, and in both cases the environment it leaves. -/
def Evaluation (α : Type) : Type := Environment → Option (Except SemanticError α × Environment)

namespace Evaluation

variable {α β : Type}

instance : Monad Evaluation where
  pure a := fun env => some (.ok a, env)
  bind computation next := fun env =>
    match computation env with
    | none => none
    | some (.error error, env) => some (.error error, env)
    | some (.ok a, env) => next a env

theorem pure_apply (a : α) (env : Environment) :
    (pure a : Evaluation α) env = some (.ok a, env) := rfl

theorem bind_apply (computation : Evaluation α) (next : α → Evaluation β) (env : Environment) :
    (computation >>= next) env
      = match computation env with
        | none => none
        | some (.error error, env) => some (.error error, env)
        | some (.ok a, env) => next a env := rfl

instance : LawfulMonad Evaluation := LawfulMonad.mk' _
  (by
    intro α computation
    funext env
    change (match computation env with
      | none => none
      | some (.error error, env) => some (.error error, env)
      | some (.ok a, env) => some (.ok a, env)) = computation env
    rcases computation env with _ | ⟨_ | _, _⟩ <;> rfl)
  (fun _ _ => rfl)
  (by
    intro α β γ computation next last
    funext env
    simp only [bind_apply]
    rcases computation env with _ | ⟨_ | _, _⟩ <;> rfl)

/-- No result: the depth is used up. -/
def exhausted : Evaluation α := fun _ => none

def fail (error : SemanticError) : Evaluation α := fun env => some (.error error, env)

/-- A result that does not touch the environment. -/
def ofExcept (result : Except SemanticError α) : Evaluation α := fun env => some (result, env)

/-- The environment as it is. -/
def environment : Evaluation Environment := fun env => some (.ok env, env)

/-- Changes the environment, unless the change is an error. -/
def update (change : Environment → Except SemanticError Environment) : Evaluation Unit :=
  fun env =>
    match change env with
    | .ok changed => some (.ok (), changed)
    | .error error => some (.error error, env)

/-- Runs inside a frame of its own, which is closed however the computation ends. -/
def inFrame (computation : Evaluation α) : Evaluation α := fun env =>
  match computation env.pushFrame with
  | none => none
  | some (result, inner) => some (result, inner.popFrame)

end Evaluation

open Evaluation

/-- Evaluates what is inside a node. -/
abbrev Evaluator := Expression → Evaluation Expression

/-! ## Calls -/

/-- Calls a lambda: binds its parameters in a new frame and evaluates its body there. -/
def callLambda (eval : Evaluator) (name : String) (lambda : Expression)
    (args : List Expression) : Evaluation Expression :=
  match lambda.tail with
  | [parameters, body] =>
    if parameters.tail.length = args.length then
      inFrame do
        (parameters.tail.zip args).forM fun (parameter, arg) =>
          update (·.bindParameter parameter.head arg)
        eval body
    else fail (.arityMismatch name (.exactly parameters.tail.length) args.length)
  | _ => fail (.malformedLambda name)

/-- Applies the procedure that a head names to arguments already evaluated. -/
def callProcedure (eval : Evaluator) (head : Atom) (args : List Expression) :
    Evaluation Expression :=
  match head with
  | .symbol name => do
    match (← environment).procedure? name with
    | some (.builtin procedure) => ofExcept (procedure.call args)
    | some (.lambda lambda) => callLambda eval name lambda args
    | none => fail (.notAProcedure name)
  | _ => fail .procedureNameNotSymbol

/-! ## Special forms -/

/-- The last of several evaluations. -/
def evalBegin (eval : Evaluator) : List Expression → Evaluation Expression
  | [] => fail (.arityMismatch SpecialForm.begin.name (.atLeast 1) 0)
  | [last] => eval last
  | first :: rest => do
    let _ ← eval first
    evalBegin eval rest

/-- Binds a name to the value of an expression. Whether the name may be bound is settled before
the expression is evaluated. -/
def evalDefine (eval : Evaluator) : List Expression → Evaluation Expression
  | [⟨.symbol name, [], _⟩, value] => do
    match (← environment).protection? name with
    | some protection => fail (.redefinition name protection)
    | none =>
      let result ← eval value
      update fun env =>
        if result.kind = .lambda then env.bindLambda (.symbol name) result
        else env.bindValue (.symbol name) result
      return result
  | [name, _] => fail (wrongKind SpecialForm.define.name (.ofKind .symbol) name)
  | children => fail (.arityMismatch SpecialForm.define.name (.exactly 2) children.length)

/-- The procedure and the items that a form applies it to: the name of a procedure, and an
expression for a list. -/
def procedureAndItems (eval : Evaluator) (form : SpecialForm) :
    List Expression → Evaluation (Atom × List Expression)
  | [⟨.symbol name, [], _⟩, list] => do
    if ((← environment).procedure? name).isNone then fail (.notAProcedure name)
    else
      let list ← eval list
      let items ← ofExcept (itemsOf form.name list)
      return (.symbol name, items)
  | [_, _] => fail (.procedureExpected form)
  | children => fail (.arityMismatch form.name (.exactly 2) children.length)

/-- Calls a procedure with the items of a list for arguments. -/
def evalApply (eval : Evaluator) (children : List Expression) : Evaluation Expression := do
  let (head, items) ← procedureAndItems eval .apply children
  callProcedure eval head items

/-- Calls a procedure with one item of a list after the other. -/
def evalMap (eval : Evaluator) (children : List Expression) : Evaluation Expression := do
  let (head, items) ← procedureAndItems eval .map children
  let results ← items.mapM fun item => callProcedure eval head [item]
  return .list results

def evalSpecialForm (eval : Evaluator) (form : SpecialForm) (children : List Expression) :
    Evaluation Expression :=
  match form with
  | .define => evalDefine eval children
  | .begin => evalBegin eval children
  | .apply => evalApply eval children
  | .map => evalMap eval children

/-! ## Lambdas -/

/-- The parameters that a node lists: its head and its children, or only its children where the
head is a marker of lists. -/
def parametersOf (e : Expression) : List Expression :=
  match e.head with
  | .list => e.tail
  | head => .ofAtom head :: e.tail

/-- A parameter is a symbol without children. -/
def isParameter (e : Expression) : Bool := e.kind == .symbol && e.tail.isEmpty

/-- The lambda of a list of parameters and a body. The body is kept as it is. -/
def makeLambda : List Expression → Outcome
  | [parameters, body] =>
    let parameters := parametersOf parameters
    match parameters.find? (!isParameter ·) with
    | some bad => .error (wrongKind "lambda" .symbolParameter bad)
    | none => .ok (.lambda (.list parameters) body)
  | children => .error (.arityMismatch "lambda" (.exactly 2) children.length)

/-! ## Nodes -/

/-- The value of a node without children. -/
def evalTerminal (e : Expression) : Evaluation Expression :=
  match e.head with
  | .symbol name => do
    match (← environment).lookup? name with
    | some value => return value
    | none => fail (.unknownSymbol name)
  | .number _ => return e
  | other => fail (.invalidTerminal other.kind)

/-- Lists, lambdas and strings are forms even without children. -/
def isFormHead : Atom → Bool
  | .list | .lambda | .string _ => true
  | _ => false

/-- The rules for one node, given an evaluator for what is inside it. -/
def evalNode (eval : Evaluator) (e : Expression) : Evaluation Expression :=
  if e.tail.isEmpty && !isFormHead e.head then evalTerminal e
  else
    match e.head.symbolName?.bind SpecialForm.ofName? with
    | some form => evalSpecialForm eval form e.tail
    | none =>
      match e.head with
      | .lambda => ofExcept (makeLambda e.tail)
      | .list => do return .list (← e.tail.mapM eval)
      | .string _ => return e
      | head => do
        let args ← e.tail.mapM eval
        callProcedure eval head args

/-- Evaluates an expression, with evaluations nested no deeper than `depth`. -/
def evalWithin : Nat → Evaluator
  | 0 => fun _ => exhausted
  | depth + 1 => evalNode (evalWithin depth)

/-- Evaluation of `e` in `env` ends with `result` and leaves `left`. -/
def Evaluates (env : Environment) (e : Expression) (result : Outcome) (left : Environment) :
    Prop :=
  ∃ depth, evalWithin depth e env = some (result, left)

end PlotLisp
