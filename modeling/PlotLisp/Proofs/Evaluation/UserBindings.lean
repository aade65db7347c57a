import PlotLisp.Proofs.Evaluation.Effects
import PlotLisp.Proofs.Evaluation.Frames
import PlotLisp.Proofs.NameMap.Order

/-!
# What programs have bound

The bindings that programs made among the globals, by their names. An evaluation may give a name
another value, or a lambda for a value, but it never leaves the name without one, whether it ends with
a value or an error, and inside of however many calls.
-/

namespace PlotLisp

namespace Environment

variable {env : Environment} {name : String} {value : Expression}

/-- What a program bound to a name among the globals. -/
def userValue? (env : Environment) (name : String) : Option Expression :=
  (env.globals.get? name).bind Binding.userValue?

theorem isOrdered_userBindings (h_ordered : env.globals.IsOrdered) :
    (⟨env.userBindings⟩ : NameMap Expression).IsOrdered := by
  refine List.Pairwise.filterMap _ (fun first second h_before => ?_) h_ordered
  rintro ⟨name, value⟩ h_first ⟨other, value'⟩ h_second
  obtain ⟨user, -, h_name⟩ := Option.map_eq_some_iff.mp h_first
  obtain ⟨user', -, h_other⟩ := Option.map_eq_some_iff.mp h_second
  cases h_name
  cases h_other
  exact h_before

end Environment

/-! ## Names that stay bound -/

/-- At each name a program has bound what it had before, or has bound something new. -/
def KeepsUserNames (before after : Environment) : Prop :=
  before.globals.Grows (·.userValue?.isSome) after.globals

instance : IsEffect KeepsUserNames where
  refl _ := .refl _
  trans _ _ _ h_first h_second := h_first.trans h_second
  value h_bound _ := by
    obtain ⟨name, -, -, ⟨-, rfl⟩ | ⟨frame, outer, -, rfl⟩⟩ := Environment.eq_of_bindValue h_bound
    · exact .insert _ _ rfl
    · exact .refl _
  lambda h_bound := by
    obtain ⟨name, -, -, -, rfl⟩ := Environment.eq_of_bindLambda h_bound
    exact .insert _ _ rfl
  call h_inner := h_inner

theorem KeepsUserNames.isSome {before after : Environment} (h_keeps : KeepsUserNames before after)
    {name : String} (h_bound : (before.userValue? name).isSome) : (after.userValue? name).isSome := by
  rcases h_keeps name with h_same | ⟨binding, h_found, h_user⟩
  · rwa [Environment.userValue?, h_same]
  · rwa [Environment.userValue?, h_found]

end PlotLisp
