import PlotLisp.Proofs.Evaluation.Effects

/-!
# Frames across evaluations

An evaluation inside a call sees the frame of the call and those of its callers, and leaves as many
as it found, whether it ends with a value or an error. Of these it changes the innermost alone,
where `define` puts plain values; lambdas go to the globals, where they never replace a name by
nothing. A call leaves every frame as it was.

`NameMap.Grows` says how one map may change, `KeepsFrames` how an environment may, and
`evaluation_keeps_frames` that it does not change otherwise.
-/

namespace PlotLisp

/-! ## Maps that lose no name -/

/-- At each name the later map has what the earlier one had, or else a value that is allowed. -/
def NameMap.Grows {α : Type} (allowed : α → Prop) (before after : NameMap α) : Prop :=
  ∀ name, after.get? name = before.get? name ∨ ∃ value, after.get? name = some value ∧ allowed value

namespace NameMap.Grows

variable {α : Type} {allowed wider : α → Prop} {before middle after : NameMap α}

theorem refl (m : NameMap α) : m.Grows allowed m := fun _ => .inl rfl

theorem trans (h_first : before.Grows allowed middle) (h_second : middle.Grows allowed after) :
    before.Grows allowed after := by
  intro name
  rcases h_second name with h_same | h_new
  · rw [h_same]
    exact h_first name
  · exact .inr h_new

theorem mono (h_grows : before.Grows allowed after) (h_sub : ∀ value, allowed value → wider value) :
    before.Grows wider after := by
  intro name
  rcases h_grows name with h_same | ⟨value, h_value, h_allowed⟩
  · exact .inl h_same
  · exact .inr ⟨value, h_value, h_sub value h_allowed⟩

theorem insert (m : NameMap α) (name : String) {value : α} (h_allowed : allowed value) :
    m.Grows allowed (m.insert name value) := by
  intro other
  rw [get?_insert]
  by_cases h_name : name = other
  · exact .inr ⟨value, if_pos h_name, h_allowed⟩
  · exact .inl (if_neg h_name)

theorem contains (h_grows : before.Grows allowed after) {name : String}
    (h_name : before.contains name) : after.contains name := by
  unfold NameMap.contains at h_name ⊢
  rcases h_grows name with h_same | ⟨value, h_value, -⟩
  · rwa [h_same]
  · rw [h_value]
    rfl

theorem of_ne (h_grows : before.Grows allowed after) {name : String}
    (h_changed : after.get? name ≠ before.get? name) :
    ∃ value, after.get? name = some value ∧ allowed value :=
  (h_grows name).resolve_left h_changed

end NameMap.Grows

/-! ## What an evaluation keeps -/

/-- The frame of the innermost call, and no names outside of calls. -/
def Environment.innermost (env : Environment) : NameMap Expression := env.frames.headD ∅

/-- A lambda that was bound among the globals. -/
def Binding.IsLambda (binding : Binding) : Prop := ∃ e, binding = .lambda e ∧ e.kind = .lambda

/-- The frames are as many as before, and only the innermost may have changed: it has more names, or
other plain values. The globals lose no name, and inside of calls only lambdas are new among them. -/
structure KeepsFrames (before after : Environment) : Prop where
  depth : after.frames.length = before.frames.length
  outer : after.frames.tail = before.frames.tail
  innermost : before.innermost.Grows (·.kind ≠ .lambda) after.innermost
  globals : before.globals.Grows (fun b => before.frames ≠ [] → b.IsLambda) after.globals

namespace KeepsFrames

theorem frames_eq_nil_iff {before after : Environment} (h_keeps : KeepsFrames before after) :
    after.frames = [] ↔ before.frames = [] := by
  rw [← List.length_eq_zero_iff, h_keeps.depth, List.length_eq_zero_iff]

theorem trans {before middle after : Environment} (h_first : KeepsFrames before middle)
    (h_second : KeepsFrames middle after) : KeepsFrames before after where
  depth := h_second.depth.trans h_first.depth
  outer := h_second.outer.trans h_first.outer
  innermost := h_first.innermost.trans h_second.innermost
  globals := by
    refine h_first.globals.trans (h_second.globals.mono fun b h_lambda h_inside => ?_)
    exact h_lambda fun h_nil => h_inside (h_first.frames_eq_nil_iff.mp h_nil)

/-- A plain value goes to the innermost frame, or to the globals where there is no frame. -/
theorem of_bindValue {env bound : Environment} {name : String} {value : Expression}
    (h_bound : env.bindValue (.symbol name) value = .ok bound) (h_kind : value.kind ≠ .lambda) :
    KeepsFrames env bound := by
  obtain ⟨globals, frames⟩ := env
  obtain ⟨name', -, -, ⟨rfl, rfl⟩ | ⟨frame, outer, rfl, rfl⟩⟩ := Environment.eq_of_bindValue h_bound
  · exact ⟨rfl, rfl, .refl _, .insert _ _ fun h_inside => absurd rfl h_inside⟩
  · exact ⟨rfl, rfl, .insert _ _ h_kind, .refl _⟩

/-- A lambda goes to the globals wherever it is bound. -/
theorem of_bindLambda {env bound : Environment} {name : String} {lambda : Expression}
    (h_bound : env.bindLambda (.symbol name) lambda = .ok bound) : KeepsFrames env bound := by
  obtain ⟨name', -, -, h_kind, rfl⟩ := Environment.eq_of_bindLambda h_bound
  exact ⟨rfl, rfl, .refl _, .insert _ _ fun _ => ⟨lambda, rfl, h_kind⟩⟩

/-- The body of a call may change the frame of the call, which is closed with it. -/
theorem frames_popFrame {env inner : Environment} {frame : NameMap Expression}
    (h_inner : KeepsFrames { env with frames := frame :: env.frames } inner) :
    inner.popFrame.frames = env.frames := h_inner.outer

theorem of_call {env inner : Environment} {frame : NameMap Expression}
    (h_inner : KeepsFrames { env with frames := frame :: env.frames } inner) :
    KeepsFrames env inner.popFrame where
  depth := congrArg List.length h_inner.frames_popFrame
  outer := congrArg List.tail h_inner.frames_popFrame
  innermost := by
    rw [Environment.innermost, Environment.innermost, h_inner.frames_popFrame]
    exact .refl _
  globals := h_inner.globals.mono fun b h_lambda _ => h_lambda (List.cons_ne_nil _ _)

instance : IsEffect KeepsFrames where
  refl _ := ⟨rfl, rfl, .refl _, .refl _⟩
  trans _ _ _ := trans
  value := of_bindValue
  lambda := of_bindLambda
  call := of_call

end KeepsFrames

/-! ## Evaluations and calls -/

theorem Evaluates.keepsFrames {env left : Environment} {e : Expression} {result : Outcome}
    (h_ends : Evaluates env e result left) : KeepsFrames env left := by
  obtain ⟨depth, h_run⟩ := h_ends
  exact evalWithin_leaves depth e env result left h_run

/-- Every frame that was there before a call is the same after it. -/
theorem frames_callProcedure {depth : Nat} {head : Atom} {args : List Expression}
    {env left : Environment} {result : Outcome}
    (h_ends : callProcedure (evalWithin depth) head args env = some (result, left)) :
    left.frames = env.frames := by
  have h_call : CallEffect KeepsFrames env left := callProcedure_leaves depth head args env _ _ h_ends
  rcases h_call with rfl | ⟨frame, inner, h_inner, rfl⟩
  · rfl
  · exact h_inner.frames_popFrame

/-- An evaluation that ends, with a value or an error, leaves as many frames as it found and all but
the innermost as they were. The innermost has lost no name, and what is new in it is no lambda. No
global has become unbound, and inside of calls every global that changed is a lambda. A call that
ends leaves all frames as they were. -/
theorem evaluation_keeps_frames :
    (∀ {env left : Environment} {e : Expression} {result : Outcome}, Evaluates env e result left →
      left.frames.length = env.frames.length ∧
      left.frames.tail = env.frames.tail ∧
      (∀ name, env.innermost.contains name → left.innermost.contains name) ∧
      (∀ name, left.innermost.get? name ≠ env.innermost.get? name →
        ∃ value, left.innermost.get? name = some value ∧ value.kind ≠ .lambda) ∧
      (∀ name, env.globals.contains name → left.globals.contains name) ∧
      (env.frames ≠ [] → ∀ name, left.globals.get? name ≠ env.globals.get? name →
        ∃ lambda, left.globals.get? name = some (.lambda lambda) ∧ lambda.kind = .lambda)) ∧
    ∀ {depth : Nat} {head : Atom} {args : List Expression} {env left : Environment}
      {result : Outcome}, callProcedure (evalWithin depth) head args env = some (result, left) →
      left.frames = env.frames := by
  refine ⟨fun {env left e result} h_ends => ?_, frames_callProcedure⟩
  have h_keeps := h_ends.keepsFrames
  refine ⟨h_keeps.depth, h_keeps.outer, fun _ => h_keeps.innermost.contains,
    fun _ => h_keeps.innermost.of_ne, fun _ => h_keeps.globals.contains, ?_⟩
  intro h_inside name h_changed
  obtain ⟨binding, h_new, h_lambda⟩ := h_keeps.globals.of_ne h_changed
  obtain ⟨lambda, rfl, h_kind⟩ := h_lambda h_inside
  exact ⟨lambda, h_new, h_kind⟩

/-! ## A call that fails inside another -/

/-- A lambda whose body binds a name and then fails. -/
def failingLambda : Expression :=
  .lambda (.list [.ofAtom (.symbol "x")])
    { head := .symbol "begin"
      tail := [{ head := .symbol "define", tail := [.ofAtom (.symbol "y"), .ofAtom (.symbol "x")] },
        .ofAtom (.symbol "z")] }

/-- Two calls are under way, and the lambda is among the globals. -/
def insideCalls : Environment where
  globals := NameMap.ofList [("f", .lambda failingLambda)]
  frames := [NameMap.ofList [("a", .ofAtom (.string "s"))], NameMap.ofList [("b", failingLambda)]]

/-- Binds a name, and then calls the lambda on it. -/
def defineAndCall : Expression where
  head := .symbol "begin"
  tail := [{ head := .symbol "define", tail := [.ofAtom (.symbol "c"), .ofAtom (.string "t")] },
    { head := .symbol "f", tail := [.ofAtom (.symbol "c")] }]

theorem evaluation_keeps_frames_of_failing_call :
    ∃ left after, Evaluates insideCalls defineAndCall (.error (.unknownSymbol "z")) left ∧
      left.frames.length = 2 ∧
      (∀ name, insideCalls.innermost.contains name → left.innermost.contains name) ∧
      callProcedure (evalWithin 8) (.symbol "f") [.ofAtom (.string "t")] insideCalls
        = some (.error (.unknownSymbol "z"), after) ∧
      after.frames = insideCalls.frames := by
  have h_ends : Evaluates insideCalls defineAndCall (.error (.unknownSymbol "z")) _ := ⟨8, rfl⟩
  have h_called : callProcedure (evalWithin 8) (.symbol "f") [.ofAtom (.string "t")] insideCalls
      = some (.error (.unknownSymbol "z"), _) := rfl
  obtain ⟨h_depth, -, h_names, -⟩ := evaluation_keeps_frames.1 h_ends
  exact ⟨_, _, h_ends, h_depth, h_names, h_called, evaluation_keeps_frames.2 h_called⟩

end PlotLisp
