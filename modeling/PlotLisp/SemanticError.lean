import PlotLisp.Arity
import PlotLisp.Atom

/-!
# Semantic errors

The ways in which a program that parses can fail. An error names its cause; the wording is
`SemanticError.message`, and nothing else looks at it.
-/

namespace PlotLisp

/-! ## Special forms -/

/-- The forms with rules of evaluation of their own. -/
inductive SpecialForm where
  | define
  | begin
  | apply
  | map
deriving DecidableEq, Repr

namespace SpecialForm

def name : SpecialForm → String
  | .define => "define"
  | .begin => "begin"
  | .apply => "apply"
  | .map => "map"

def all : List SpecialForm := [.define, .begin, .apply, .map]

/-- The special form of a name, if it is one. -/
def ofName? (name : String) : Option SpecialForm := all.find? (·.name == name)

theorem ofName?_eq_some_iff {name : String} {form : SpecialForm} :
    ofName? name = some form ↔ name = form.name := by
  constructor
  · intro h_found
    rw [ofName?] at h_found
    have h_same := List.find?_some h_found
    exact (beq_iff_eq.mp h_same).symm
  · rintro rfl
    cases form <;> decide

theorem ofName?_eq_none_iff {name : String} :
    ofName? name = none ↔ ∀ form : SpecialForm, name ≠ form.name := by
  rw [Option.eq_none_iff_forall_ne_some]
  exact forall_congr' fun form => not_congr ofName?_eq_some_iff

end SpecialForm

/-! ## What was wanted and what was there -/

/-- What an operation wants of an argument. -/
inductive Requirement where
  | ofKind (kind : Kind)
  | nonNegativeNumber
  | nonEmptyList
  | stringKey
  | symbolParameter
  | optionPair
  | listOfTwoNumbers
  | boundsOfTwoNumbers
deriving DecidableEq, Repr

def Requirement.text : Requirement → String
  | .ofKind kind => kind.word
  | .nonNegativeNumber => "non-negative number"
  | .nonEmptyList => "non-empty list"
  | .stringKey => "string key"
  | .symbolParameter => "symbol parameter"
  | .optionPair => "option pair"
  | .listOfTwoNumbers => "list of two numbers"
  | .boundsOfTwoNumbers => "bounds of two numbers"

/-- What an operation was given instead. -/
inductive Finding where
  | ofKind (kind : Kind)
  | negativeNumber
  | emptyList
  | listOfAnotherLength
deriving DecidableEq, Repr

def Finding.text : Finding → String
  | .ofKind kind => kind.word
  | .negativeNumber => "negative number"
  | .emptyList => "empty list"
  | .listOfAnotherLength => "list of another length"

/-- Why a name cannot be bound. -/
inductive Protection where
  | specialForm
  | builtIn
deriving DecidableEq, Repr

def Protection.text : Protection → String
  | .specialForm => "special form"
  | .builtIn => "built-in"

/-! ## Errors -/

inductive SemanticError where
  | unknownSymbol (name : String)
  /-- A node without children that has no value of its own. -/
  | invalidTerminal (kind : Kind)
  | procedureNameNotSymbol
  | notAProcedure (name : String)
  | arityMismatch (function : String) (expected : Arity) (actual : Nat)
  | typeMismatch (operation : String) (expected : Requirement) (actual : Finding)
  | divisionByZero (operation : String)
  | redefinition (name : String) (protection : Protection)
  /-- The first part of a form that takes a procedure is not the name of one. -/
  | procedureExpected (form : SpecialForm)
  | nonSymbolBinding (kind : Kind)
  | nonSymbolParameter (kind : Kind)
  | parameterOutsideCall
  | malformedLambda (name : String)
  | noProgram
  | emptyRange
  | rangeWithoutIncrement
  | rangeTooLong (most : Nat)
  | plotBoundsOutOfOrder
deriving DecidableEq, Repr

/-- The text of an error. -/
def SemanticError.message : SemanticError → String
  | .unknownSymbol name => "unknown symbol '" ++ name ++ "'"
  | .invalidTerminal kind => "invalid type in terminal expression: " ++ kind.word
  | .procedureNameNotSymbol => "procedure name not symbol"
  | .notAProcedure name => "symbol '" ++ name ++ "' does not name a procedure"
  | .arityMismatch function expected actual =>
    "invalid number of arguments to " ++ function ++ ": expected " ++ expected.text ++ ", got "
      ++ toString actual
  | .typeMismatch operation expected actual =>
    "invalid argument to " ++ operation ++ ": expected " ++ expected.text ++ ", got "
      ++ actual.text
  | .divisionByZero operation => "division by zero in call to " ++ operation
  | .redefinition name protection =>
    "attempt to redefine " ++ protection.text ++ " '" ++ name ++ "'"
  | .procedureExpected form => "first argument to " ++ form.name ++ " not a procedure"
  | .nonSymbolBinding kind => "attempt to add non-symbol " ++ kind.word ++ " to environment"
  | .nonSymbolParameter kind => "lambda parameter is a " ++ kind.word ++ ", not a symbol"
  | .parameterOutsideCall => "parameter bound outside of a procedure call"
  | .malformedLambda name => "malformed lambda bound to " ++ name
  | .noProgram => "no program parsed for evaluation"
  | .emptyRange => "begin greater than or equal to end in range"
  | .rangeWithoutIncrement => "negative or zero increment in range"
  | .rangeTooLong most => "range would exceed " ++ toString most ++ " elements"
  | .plotBoundsOutOfOrder => "lower bound not less than upper bound in continuous-plot"

end PlotLisp
