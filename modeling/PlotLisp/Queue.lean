/-!
# Queues

First in, first out: lines wait in such a queue for the kernel, and messages for whoever
submitted the lines. The view of a queue is the list of its items, the oldest first.
-/

namespace PlotLisp

structure Queue (α : Type) where
  items : List α := []

namespace Queue

variable {α : Type}

instance : EmptyCollection (Queue α) := ⟨⟨[]⟩⟩

def push (queue : Queue α) (item : α) : Queue α := ⟨queue.items ++ [item]⟩

/-- The oldest item, and the queue without it. -/
def pop? (queue : Queue α) : Option (α × Queue α) :=
  match queue.items with
  | [] => none
  | item :: rest => some (item, ⟨rest⟩)

def size (queue : Queue α) : Nat := queue.items.length

def isEmpty (queue : Queue α) : Bool := queue.items.isEmpty

@[simp] theorem items_push (queue : Queue α) (item : α) :
    (queue.push item).items = queue.items ++ [item] := rfl

theorem pop?_eq_some_iff {queue rest : Queue α} {item : α} :
    queue.pop? = some (item, rest) ↔ queue.items = item :: rest.items := by
  obtain ⟨items⟩ := queue
  obtain ⟨others⟩ := rest
  cases items <;> simp [pop?]

theorem pop?_eq_none_iff {queue : Queue α} : queue.pop? = none ↔ queue.items = [] := by
  obtain ⟨items⟩ := queue
  cases items <;> simp [pop?]

end Queue

end PlotLisp
