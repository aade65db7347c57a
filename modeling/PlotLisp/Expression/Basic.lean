import PlotLisp.Atom
import PlotLisp.NameMap

/-!
# Expressions

A program and every value it computes are trees of one type: an atom at the head, children in
order, and properties. Properties say how a value is drawn. They are beside the value itself:
they take no part in comparison, and no name is ever bound to one.

A list is a node with the list marker at its head, a lambda one with the lambda marker, and a
list of parameters and a body as its two children.
-/

namespace PlotLisp

/-- A tree of atoms. -/
structure Expression where
  head : Atom
  tail : List Expression := []
  properties : NameMap Expression := ⟨[]⟩

namespace Expression

/-! ## Building -/

/-- A node without children. -/
def ofAtom (head : Atom) : Expression := { head }

/-- No value. -/
def nothing : Expression := ofAtom .nothing

instance : Inhabited Expression := ⟨nothing⟩

def number (value : Float) : Expression := ofAtom (.number value)

def complex (value : ComplexNumber) : Expression := ofAtom (.complex value)

def list (items : List Expression) : Expression := { head := .list, tail := items }

/-- The lambda of a list of parameters and a body. -/
def lambda (parameters body : Expression) : Expression :=
  { head := .lambda, tail := [parameters, body] }

/-! ## Growing and looking -/

def kind (e : Expression) : Kind := e.head.kind

/-- Puts a child behind the others. -/
def append (e child : Expression) : Expression := { e with tail := e.tail ++ [child] }

/-- Sets the property that the label of a key names. -/
def addProperty (e key value : Expression) : Expression :=
  { e with properties := e.properties.insert key.head.label value }

def property? (e : Expression) (name : String) : Option Expression := e.properties.get? name

/-- The property that the label of a key names, or no value. -/
def getProperty (e key : Expression) : Expression :=
  (e.property? key.head.label).getD nothing

/-! ## Drawable objects -/

/-- The property that says what a list is a drawing of. -/
def objectNameProperty : String := "object-name"

/-- The expression is marked, by a quoted string, as a drawing of this sort. -/
def isObject (e : Expression) (name : String) : Bool :=
  match e.property? objectNameProperty with
  | some ⟨.string text, _, _⟩ => text == name
  | _ => false

def isPoint (e : Expression) : Bool := e.isObject "point"

def isLine (e : Expression) : Bool := e.isObject "line"

def isText (e : Expression) : Bool := e.isObject "text"

end Expression

end PlotLisp
