import PlotLisp.NameMap

/-!
# The shared store

A map from keys to values that several clients use at once. Every operation is one indivisible
step on the whole map, and says what it found: whether a key was free, which value it replaced or
removed. Keys are listed in their byte order.

The view of a store is `find?`, and the lemmas say what each operation does to it.
-/

namespace PlotLisp

/-- A keyed store. -/
structure Store (α : Type) where
  entries : NameMap α := ⟨[]⟩

namespace Store

variable {α : Type}

instance : EmptyCollection (Store α) := ⟨⟨∅⟩⟩

/-- A copy of the value under a key. -/
def find? (store : Store α) (key : String) : Option α := store.entries.get? key

/-- Puts a value under a key that has none, and says whether it did. -/
def emplace (store : Store α) (key : String) (value : α) : Bool × Store α :=
  if (store.find? key).isSome then (false, store)
  else (true, ⟨store.entries.insert key value⟩)

/-- Puts a value under a key, and gives the one it replaces. -/
def insert (store : Store α) (key : String) (value : α) : Option α × Store α :=
  (store.find? key, ⟨store.entries.insert key value⟩)

/-- Removes a key, and gives the value it had. -/
def erase (store : Store α) (key : String) : Option α × Store α :=
  (store.find? key, ⟨store.entries.erase key⟩)

def clear (_ : Store α) : Store α := ∅

def size (store : Store α) : Nat := store.entries.size

def keys (store : Store α) : List String := store.entries.names

/-! ## Look-ups -/

@[simp] theorem find?_clear (store : Store α) (key : String) : store.clear.find? key = none := rfl

/-- Only a key that was free has a new value after `emplace`. -/
theorem find?_emplace (store : Store α) (key other : String) (value : α) :
    (store.emplace key value).2.find? other
      = if key = other then some ((store.find? key).getD value) else store.find? other := by
  rcases h_found : store.find? key with _ | old
  · have h_new : (store.emplace key value).2.entries = store.entries.insert key value := by
      simp [emplace, h_found]
    simp only [find?, h_new, NameMap.get?_insert, Option.getD_none]
  · by_cases h_key : key = other
    · simp [emplace, h_found, ← h_key]
    · simp [emplace, h_found, h_key]

theorem find?_insert (store : Store α) (key other : String) (value : α) :
    (store.insert key value).2.find? other
      = if key = other then some value else store.find? other :=
  store.entries.get?_insert key other value

theorem find?_erase (store : Store α) (key other : String) :
    (store.erase key).2.find? other = if key = other then none else store.find? other :=
  store.entries.get?_erase key other

end Store

end PlotLisp
