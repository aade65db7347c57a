import Mathlib.Logic.Relation
import PlotLisp.Proofs.Evaluation.Batch
import PlotLisp.Proofs.Evaluation.Calls
import PlotLisp.Proofs.Evaluation.Definition
import PlotLisp.Proofs.Evaluation.Protection
import PlotLisp.Proofs.Kernel.Interpreter

/-!
# The primitives of drawings

The bundled startup script binds three lambdas. Two of them make a list of their arguments and mark it,
as a point or as a line, and the third marks its argument as a text that starts at the origin. Whatever
programs have bound since, and whatever the arguments are, they go on doing so as long as the three names
are left alone: the parameters hide what else their names stand for, and the procedure that sets
properties cannot be bound to anything else.

* `startupProgram` is what the script says (`parseProgram_bundledScript`).
* `Shape` are the two primitives that make lists. Each is one definition with its own words in it.
* `Environment.Draws` is what calls of the primitives rely on.
* `primitives_draw` is the conclusion.
-/

namespace PlotLisp

open Expression (objectNameProperty)

/-! ## What the script binds -/

/-- A node that sets a property of what another node comes to. -/
def setPropertyOf (key : String) (value target : Expression) : Expression :=
  callOf Builtin.setProperty.name [.ofAtom (.string key), value, target]

/-- A node that marks what another node comes to as a drawing of some sort. -/
def markOf (object : String) (target : Expression) : Expression :=
  setPropertyOf objectNameProperty (.ofAtom (.string object)) target

/-- What two items are drawn as. -/
inductive Shape where
  | point
  | line
deriving DecidableEq, Repr

namespace Shape

/-- The name of the primitive. -/
def primitive : Shape → String
  | .point => "make-point"
  | .line => "make-line"

def object : Shape → String
  | .point => "point"
  | .line => "line"

def first : Shape → String
  | .point => "x"
  | .line => "p1"

def second : Shape → String
  | .point => "y"
  | .line => "p2"

/-- The property that says how large the drawing is. -/
def measure : Shape → String
  | .point => "size"
  | .line => "thickness"

def amount : Shape → Expression
  | .point => .number 0.0
  | .line => .number 1.0

variable (shape : Shape)

def body : Expression :=
  setPropertyOf shape.measure shape.amount
    (markOf shape.object (.list (symbols [shape.first, shape.second])))

def lambda : Expression := .lambda (.list (symbols [shape.first, shape.second])) shape.body

/-- What the primitive makes of two items. -/
def drawing (u v : Expression) : Expression where
  head := .list
  tail := [u, v]
  properties := ⟨[(objectNameProperty, .ofAtom (.string shape.object)), (shape.measure, shape.amount)]⟩

end Shape

namespace Text

def primitive : String := "make-text"

def body : Expression :=
  setPropertyOf "position" (callOf Shape.point.primitive [.number 0.0, .number 0.0])
    (markOf "text" (.ofAtom (.symbol "str")))

def lambda : Expression := .lambda (.list (symbols ["str"])) body

/-- What the primitive makes of a value. -/
def drawing (u : Expression) : Expression where
  head := u.head
  tail := u.tail
  properties := (u.properties.insert objectNameProperty (.ofAtom (.string "text"))).insert "position"
    (Shape.point.drawing (.number 0.0) (.number 0.0))

end Text

/-! ## Reading the script -/

/-- The definition of a lambda, its parameters written as a form. -/
def defineLambda (name first : String) (others : List String) (body : Expression) : Expression :=
  defineOf name
    { head := .lambda, tail := [{ head := .symbol first, tail := symbols others }, body] }

def startupProgram : Expression where
  head := .symbol SpecialForm.begin.name
  tail := [defineLambda "make-point" "x" ["y"] Shape.point.body,
    defineLambda "make-line" "p1" ["p2"] Shape.line.body,
    defineLambda "make-text" "str" [] Text.body]

def bundledLexemes : List Lexeme :=
  [.opening, .token (.bare "begin"),
    .opening, .token (.bare "define"), .token (.bare "make-point"),
    .opening, .token (.bare "lambda"), .opening, .token (.bare "x"), .token (.bare "y"), .closing,
    .opening, .token (.bare "set-property"), .token (.quoted "size"), .token (.bare "0"),
    .opening, .token (.bare "set-property"), .token (.quoted "object-name"), .token (.quoted "point"),
    .opening, .token (.bare "list"), .token (.bare "x"), .token (.bare "y"),
    .closing, .closing, .closing, .closing, .closing,
    .opening, .token (.bare "define"), .token (.bare "make-line"),
    .opening, .token (.bare "lambda"), .opening, .token (.bare "p1"), .token (.bare "p2"), .closing,
    .opening, .token (.bare "set-property"), .token (.quoted "thickness"), .token (.bare "1"),
    .opening, .token (.bare "set-property"), .token (.quoted "object-name"), .token (.quoted "line"),
    .opening, .token (.bare "list"), .token (.bare "p1"), .token (.bare "p2"),
    .closing, .closing, .closing, .closing, .closing,
    .opening, .token (.bare "define"), .token (.bare "make-text"),
    .opening, .token (.bare "lambda"), .opening, .token (.bare "str"), .closing,
    .opening, .token (.bare "set-property"), .token (.quoted "position"),
    .opening, .token (.bare "make-point"), .token (.bare "0"), .token (.bare "0"), .closing,
    .opening, .token (.bare "set-property"), .token (.quoted "object-name"), .token (.quoted "text"),
    .token (.bare "str"),
    .closing, .closing, .closing, .closing, .closing]

theorem foldl_next_ofList (letters : List Char) (scanner : Scanner) :
    (String.ofList letters).toList.foldl Scanner.next scanner = letters.foldl Scanner.next scanner := by
  rw [String.toList_ofList]

theorem scan?_bundledScript : Lexeme.scan? bundledScript = some bundledLexemes := by
  unfold Lexeme.scan? bundledScript
  simp only [String.toList_append, List.foldl_append]
  -- line by line, each taken for its letters
  repeat rw [foldl_next_ofList]
  decide +kernel

theorem parseProgram_bundledScript : parseProgram bundledScript = .ok startupProgram := by
  rw [parseProgram, Form.read?, scan?_bundledScript, Option.bind_some]
  rfl

/-! ## Running the script -/

/-- The globals once the script has been run. -/
def drawingGlobals : NameMap Binding :=
  ((Environment.initialGlobals.insert Shape.point.primitive (.lambda Shape.point.lambda)).insert
    Shape.line.primitive (.lambda Shape.line.lambda)).insert Text.primitive (.lambda Text.lambda)

theorem evaluates_startupProgram :
    Evaluates .initial startupProgram (.ok Text.lambda) { globals := drawingGlobals } := ⟨4, rfl⟩

/-- Where no other script is asked for, the three primitives are bound at the start. -/
theorem isFresh_drawingGlobals (files : Files) {settings : Settings}
    (h_bundled : settings.startupScript = none) :
    IsFresh files settings { globals := drawingGlobals } := by
  have h_eval : Evaluates ({} : Session).environment startupProgram (.ok Text.lambda)
      { globals := drawingGlobals } := evaluates_startupProgram
  obtain ⟨depth, h_run⟩ := exists_evalSource parseProgram_bundledScript h_eval
  have h_text : startupText files settings = .ok bundledScript := by
    rw [startupText, h_bundled]
  refine ⟨depth, ?_⟩
  rw [freshEnvironment?, Session.runStartup, h_text]
  dsimp only
  rw [h_run]
  rfl

/-! ## What the primitives rely on -/

section Calls

variable {env middle left : Environment}

/-- What calls of the primitives rely on. -/
structure Environment.Draws (env : Environment) : Prop where
  setProperty : env.procedure? Builtin.setProperty.name = some (.builtin .setProperty)
  shape : ∀ shape : Shape, env.procedure? shape.primitive = some (.lambda shape.lambda)
  text : env.procedure? Text.primitive = some (.lambda Text.lambda)

/-- Inside of a call the same holds if no parameter has a name that is relied on. -/
theorem Environment.Draws.inCall (h_draws : env.Draws) {names : List String}
    (h_free : ∀ name ∈ [Builtin.setProperty.name, Shape.point.primitive, Shape.line.primitive,
      Text.primitive], name ∉ names) (values : List Expression) :
    (env.inCall (frameOf names values)).Draws where
  setProperty := by
    rw [procedure?_inCall (get?_frameOf_eq_none values (h_free _ (by decide)))]
    exact h_draws.setProperty
  shape shape := by
    rw [procedure?_inCall (get?_frameOf_eq_none values (h_free _ (by cases shape <;> decide)))]
    exact h_draws.shape shape
  text := by
    rw [procedure?_inCall (get?_frameOf_eq_none values (h_free _ (by decide)))]
    exact h_draws.text

theorem evaluates_string (env : Environment) (text : String) :
    Evaluates env (.ofAtom (.string text)) (.ok (.ofAtom (.string text))) env := ⟨1, rfl⟩

theorem evaluates_setPropertyOf {value target v t : Expression} (h_draws : left.Draws)
    (h_value : Evaluates env value (.ok v) middle) (h_target : Evaluates middle target (.ok t) left)
    (key : String) :
    Evaluates env (setPropertyOf key value target)
      (.ok { t with properties := t.properties.insert key v }) left := by
  have h_name : ∀ form : SpecialForm, Builtin.setProperty.name ≠ form.name := by
    intro form
    cases form <;> decide
  exact .call_builtin h_name (List.cons_ne_nil _ _)
    (.cons (evaluates_string env key) (.pair h_value h_target)) h_draws.setProperty

theorem evaluates_markOf {target t : Expression} (h_draws : left.Draws)
    (h_target : Evaluates env target (.ok t) left) (object : String) :
    Evaluates env (markOf object target)
      (.ok { t with properties := t.properties.insert objectNameProperty (.ofAtom (.string object)) })
      left :=
  evaluates_setPropertyOf h_draws (evaluates_string env object) h_target objectNameProperty

/-! ## Points and lines -/

/-- The items are found under the parameters, whatever else these may stand for. -/
theorem Shape.evaluates_items (shape : Shape) (env : Environment) (u v : Expression) :
    EvaluatesEach (env.inCall (frameOf [shape.first, shape.second] [u, v]))
      (symbols [shape.first, shape.second]) [u, v]
      (env.inCall (frameOf [shape.first, shape.second] [u, v])) := by
  have h_distinct : [shape.first, shape.second].Nodup := by
    cases shape <;> decide
  have h_first : (frameOf [shape.first, shape.second] [u, v]).get? shape.first = some u :=
    get?_frameOf h_distinct rfl List.mem_cons_self
  have h_second : (frameOf [shape.first, shape.second] [u, v]).get? shape.second = some v :=
    get?_frameOf h_distinct rfl (List.mem_cons_of_mem _ List.mem_cons_self)
  apply EvaluatesEach.pair
  · exact evaluates_symbol_iff.mpr ⟨Environment.lookup?_inCall h_first, rfl⟩
  · exact evaluates_symbol_iff.mpr ⟨Environment.lookup?_inCall h_second, rfl⟩

theorem Shape.evaluates_body (shape : Shape) (h_draws : env.Draws) (u v : Expression) :
    Evaluates (env.inCall (frameOf [shape.first, shape.second] [u, v])) shape.body
      (.ok (shape.drawing u v)) (env.inCall (frameOf [shape.first, shape.second] [u, v])) := by
  have h_inside : (env.inCall (frameOf [shape.first, shape.second] [u, v])).Draws :=
    h_draws.inCall (by cases shape <;> decide) [u, v]
  have h_amount (inside : Environment) : Evaluates inside shape.amount (.ok shape.amount) inside := by
    cases shape <;> exact ⟨1, rfl⟩
  have h_marked := evaluates_markOf h_inside (.list (shape.evaluates_items env u v)) shape.object
  have h_drawing : shape.drawing u v
      = { Expression.list [u, v] with
          properties := (NameMap.insert ∅ objectNameProperty (.ofAtom (.string shape.object))).insert
            shape.measure shape.amount } := by
    cases shape <;> rfl
  rw [h_drawing]
  exact evaluates_setPropertyOf h_inside (h_amount _) h_marked shape.measure

/-- A call makes the drawing of what its arguments come to. -/
theorem Shape.evaluates_call (shape : Shape) {a b u v : Expression} (h_draws : left.Draws)
    (h_first : Evaluates env a (.ok u) middle) (h_second : Evaluates middle b (.ok v) left) :
    Evaluates env (callOf shape.primitive [a, b]) (.ok (shape.drawing u v)) left := by
  have h_name : ∀ form : SpecialForm, shape.primitive ≠ form.name := by
    intro form
    cases shape <;> cases form <;> decide
  exact .call_lambda h_name (List.cons_ne_nil _ _) (.pair h_first h_second) (h_draws.shape shape) rfl
    (shape.evaluates_body h_draws u v)

/-! ## Texts -/

/-- The body calls another primitive, which is found inside of this call as well. -/
theorem Text.evaluates_body (h_draws : env.Draws) (u : Expression) :
    Evaluates (env.inCall (frameOf ["str"] [u])) Text.body (.ok (Text.drawing u))
      (env.inCall (frameOf ["str"] [u])) := by
  have h_inside : (env.inCall (frameOf ["str"] [u])).Draws := h_draws.inCall (by decide) [u]
  have h_bound : (frameOf ["str"] [u]).get? "str" = some u :=
    get?_frameOf (List.nodup_singleton _) rfl List.mem_cons_self
  have h_origin : Evaluates (env.inCall (frameOf ["str"] [u]))
      (callOf Shape.point.primitive [.number 0.0, .number 0.0])
      (.ok (Shape.point.drawing (.number 0.0) (.number 0.0))) (env.inCall (frameOf ["str"] [u])) :=
    Shape.point.evaluates_call h_inside ⟨1, rfl⟩ ⟨1, rfl⟩
  have h_value : Evaluates (env.inCall (frameOf ["str"] [u])) (.ofAtom (.symbol "str")) (.ok u)
      (env.inCall (frameOf ["str"] [u])) :=
    evaluates_symbol_iff.mpr ⟨Environment.lookup?_inCall h_bound, rfl⟩
  exact evaluates_setPropertyOf h_inside h_origin (evaluates_markOf h_inside h_value "text") "position"

theorem Text.evaluates_call {a u : Expression} (h_draws : left.Draws)
    (h_arg : Evaluates env a (.ok u) left) :
    Evaluates env (callOf Text.primitive [a]) (.ok (Text.drawing u)) left := by
  have h_name : ∀ form : SpecialForm, Text.primitive ≠ form.name := by
    intro form
    cases form <;> decide
  exact .call_lambda h_name (List.cons_ne_nil _ _) (.cons h_arg .nil) h_draws.text rfl
    (Text.evaluates_body h_draws u)

end Calls

/-! ## Wherever programs lead -/

/-- A program has been evaluated, with whatever result. -/
def Environment.LeadsTo (env left : Environment) : Prop :=
  ∃ program result, Evaluates env program result left

/-- The three names are bound as they are in another environment. -/
def Environment.KeepsPrimitives (env fresh : Environment) : Prop :=
  ∀ name ∈ [Shape.point.primitive, Shape.line.primitive, Text.primitive],
    env.globals.get? name = fresh.globals.get? name

theorem effect_of_leadsTo {R : Environment → Environment → Prop} [IsEffect R]
    {env left : Environment} (h_reached : Relation.ReflTransGen Environment.LeadsTo env left) :
    R env left := by
  induction h_reached with
  | refl => exact refl env
  | @tail middle left _ h_step ih =>
    obtain ⟨program, result, depth, h_run⟩ := h_step
    exact IsTrans.trans _ _ _ ih (evalWithin_leaves depth program middle result left h_run)

theorem get?_drawingGlobals :
    (∀ shape : Shape, drawingGlobals.get? shape.primitive = some (.lambda shape.lambda)) ∧
      drawingGlobals.get? Text.primitive = some (.lambda Text.lambda) := by
  constructor
  · intro shape
    rw [drawingGlobals, NameMap.get?_insert, if_neg (by cases shape <;> decide), NameMap.get?_insert]
    cases shape with
    | point => rw [if_neg (by decide), NameMap.get?_insert_self]
    | line => rw [if_pos rfl]
  · exact NameMap.get?_insert_self _ _ _

/-- No program leaves a frame open or binds the procedure that sets properties to anything else, so that
only the names of the primitives have to be looked at. -/
theorem draws_of_keepsPrimitives {env : Environment}
    (h_reached : Relation.ReflTransGen Environment.LeadsTo { globals := drawingGlobals } env)
    (h_kept : env.KeepsPrimitives { globals := drawingGlobals }) : env.Draws := by
  have h_frames : env.frames = [] :=
    (effect_of_leadsTo (R := KeepsFrames) h_reached).frames_eq_nil_iff.mpr rfl
  have h_guarded : KeepsGuard .initial env :=
    effect_of_leadsTo (h_reached.head ⟨startupProgram, _, evaluates_startupProgram⟩)
  have h_found (name : String) : env.procedure? name = (env.globals.get? name).bind Binding.procedure? := by
    rw [Environment.procedure?, Environment.local?, h_frames]
    rfl
  refine ⟨?_, fun shape => ?_, ?_⟩
  · rw [h_found, (h_guarded .initial).kept (.procedure .setProperty), initialGlobals_procedure]
    rfl
  · rw [h_found, h_kept shape.primitive (by cases shape <;> decide), get?_drawingGlobals.1]
    rfl
  · rw [h_found, h_kept Text.primitive (by decide), get?_drawingGlobals.2]
    rfl

/-! ## Drawings -/

theorem Shape.isObject_drawing (shape : Shape) (u v : Expression) (name : String) :
    (shape.drawing u v).isObject name = (shape.object == name) := by
  rfl

theorem Text.property?_drawing (u : Expression) (name : String) :
    (Text.drawing u).property? name
      = if name = "position" then some (Shape.point.drawing (.number 0.0) (.number 0.0))
        else if name = objectNameProperty then some (.ofAtom (.string "text"))
        else u.property? name := by
  simp only [Expression.property?, Text.drawing, NameMap.get?_insert, eq_comm]

theorem Text.isObject_drawing (u : Expression) (name : String) :
    (Text.drawing u).isObject name = ("text" == name) := by
  have h_object : (Text.drawing u).property? objectNameProperty = some (.ofAtom (.string "text")) := by
    rw [Text.property?_drawing, if_neg (by decide), if_pos rfl]
  rw [Expression.isObject, h_object]
  rfl

/-- With the bundled script there is an environment to start from, and after any programs the three
primitives do the same for all arguments that come to values and leave the names of the primitives alone.
`make-point` and `make-line` make a list of the two values, with what it is and one measure for properties
and no others. `make-text` gives its value back with two properties overwritten, what it is and where it
starts, which is the point of two zeros. Each result is an object of its own sort and of no other. The
environment is left as the arguments leave it. -/
theorem primitives_draw (files : Files) {settings : Settings}
    (h_bundled : settings.startupScript = none) :
    ∃ fresh, IsFresh files settings fresh ∧
      ∀ env, Relation.ReflTransGen Environment.LeadsTo fresh env →
        (∀ (shape : Shape) a b u v middle left, Evaluates env a (.ok u) middle →
          Evaluates middle b (.ok v) left → left.KeepsPrimitives fresh →
          ∃ drawing, Evaluates env (callOf shape.primitive [a, b]) (.ok drawing) left ∧
            drawing.head = .list ∧ drawing.tail = [u, v] ∧
            drawing.properties.entries
              = [(objectNameProperty, .ofAtom (.string shape.object)), (shape.measure, shape.amount)] ∧
            (drawing.isPoint = true ↔ shape = .point) ∧ (drawing.isLine = true ↔ shape = .line) ∧
            drawing.isText = false) ∧
        ∀ a u left, Evaluates env a (.ok u) left → left.KeepsPrimitives fresh →
          ∃ text, Evaluates env (callOf Text.primitive [a]) (.ok text) left ∧
            text.head = u.head ∧ text.tail = u.tail ∧
            text.properties = (u.properties.insert objectNameProperty (.ofAtom (.string "text"))).insert
              "position" (Shape.point.drawing (.number 0.0) (.number 0.0)) ∧
            (∀ name, name ≠ objectNameProperty → name ≠ "position" →
              text.property? name = u.property? name) ∧
            text.isText = true ∧ text.isPoint = false ∧ text.isLine = false := by
  refine ⟨{ globals := drawingGlobals }, isFresh_drawingGlobals files h_bundled, ?_⟩
  intro env h_reached
  constructor
  · intro shape a b u v middle left h_first h_second h_kept
    have h_left := (h_reached.tail ⟨a, .ok u, h_first⟩).tail ⟨b, .ok v, h_second⟩
    have h_draws := draws_of_keepsPrimitives h_left h_kept
    refine ⟨shape.drawing u v, shape.evaluates_call h_draws h_first h_second, rfl, rfl, rfl, ?_⟩
    rw [Expression.isPoint, Expression.isLine, Expression.isText, shape.isObject_drawing,
      shape.isObject_drawing, shape.isObject_drawing]
    cases shape <;> decide
  · intro a u left h_arg h_kept
    have h_draws := draws_of_keepsPrimitives (h_reached.tail ⟨a, .ok u, h_arg⟩) h_kept
    refine ⟨Text.drawing u, Text.evaluates_call h_draws h_arg, rfl, rfl, rfl, ?_, ?_⟩
    · intro name h_object h_position
      rw [Text.property?_drawing, if_neg h_position, if_neg h_object]
    · rw [Expression.isText, Expression.isPoint, Expression.isLine, Text.isObject_drawing,
        Text.isObject_drawing, Text.isObject_drawing]
      decide

/-- After a program has bound the name of a parameter, a text is made of a point. It keeps the size of the
point, and is a point no longer. -/
theorem text_of_point :
    ∃ fresh env text, IsFresh ⟨fun _ => .error .notFound⟩ {} fresh ∧
      Evaluates fresh (defineOf "str" (.number 5.0)) (.ok (.number 5.0)) env ∧
      Evaluates env (callOf Text.primitive
        [callOf Shape.point.primitive [.ofAtom (.symbol "str"), .number 2.0]]) (.ok text) env ∧
      text.tail = [.number 5.0, .number 2.0] ∧ text.property? "size" = some (.number 0.0) ∧
      text.isText = true ∧ text.isPoint = false := by
  have h_bundled : ({} : Settings).startupScript = none := rfl
  obtain ⟨fresh, h_fresh, h_primitives⟩ := primitives_draw ⟨fun _ => .error .notFound⟩ h_bundled
  cases h_fresh.unique (isFresh_drawingGlobals _ h_bundled)
  have h_defined : Evaluates { globals := drawingGlobals } (defineOf "str" (.number 5.0))
      (.ok (.number 5.0)) { globals := drawingGlobals.insert "str" (.value (.number 5.0)) } := ⟨2, rfl⟩
  have h_kept : Environment.KeepsPrimitives
      { globals := drawingGlobals.insert "str" (.value (.number 5.0)) } { globals := drawingGlobals } := by
    intro name h_name
    refine (NameMap.get?_insert _ _ _ _).trans (if_neg ?_)
    rintro rfl
    revert h_name
    decide
  obtain ⟨h_shapes, h_texts⟩ := h_primitives _ (.single ⟨_, _, h_defined⟩)
  obtain ⟨point, h_point, -, h_items, h_entries, -⟩ := h_shapes .point (.ofAtom (.symbol "str"))
    (.number 2.0) (.number 5.0) (.number 2.0) _ _ ⟨1, rfl⟩ ⟨1, rfl⟩ h_kept
  obtain ⟨text, h_text, -, h_tail, -, h_others, h_isText, h_isPoint, -⟩ :=
    h_texts _ point _ h_point h_kept
  refine ⟨_, _, text, h_fresh, h_defined, h_text, h_tail.trans h_items, ?_, h_isText, h_isPoint⟩
  rw [h_others "size" (by decide) (by decide), Expression.property?, NameMap.get?, h_entries]
  rfl

end PlotLisp
