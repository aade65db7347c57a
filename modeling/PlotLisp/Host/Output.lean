/-!
# Output

What is written to the two streams of a program, kept apart.
-/

namespace PlotLisp

structure Output where
  out : String := ""
  err : String := ""
deriving DecidableEq

namespace Output

instance : Append Output := ⟨fun a b => ⟨a.out ++ b.out, a.err ++ b.err⟩⟩

instance : EmptyCollection Output := ⟨{ out := "", err := "" }⟩

/-- A line on the stream for results. -/
def line (text : String) : Output := { out := text ++ "\n" }

/-- A line on the stream for errors. -/
def errorLine (text : String) : Output := { err := text ++ "\n" }

@[simp] theorem out_append (a b : Output) : (a ++ b).out = a.out ++ b.out := rfl

@[simp] theorem err_append (a b : Output) : (a ++ b).err = a.err ++ b.err := rfl

theorem append_assoc (a b c : Output) : a ++ b ++ c = a ++ (b ++ c) := by
  change Output.mk (a.out ++ b.out ++ c.out) (a.err ++ b.err ++ c.err) = _
  rw [String.append_assoc, String.append_assoc]
  rfl

@[simp] theorem append_empty (a : Output) : a ++ ∅ = a := by
  change Output.mk (a.out ++ "") (a.err ++ "") = a
  rw [String.append_empty, String.append_empty]

@[simp] theorem empty_append (a : Output) : ∅ ++ a = a := by
  change Output.mk ("" ++ a.out) ("" ++ a.err) = a
  rw [String.empty_append, String.empty_append]

end Output

end PlotLisp
