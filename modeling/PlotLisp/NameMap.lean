/-!
# Maps from names

A finite map from names to values, kept in the byte order of the names. Bindings, properties
and published values are all held in such maps, and are listed in this order.

The view of a map is `get?`. The lemmas here say what each operation does to it, and need no
assumption on the order: a look-up takes the first entry of a name, and an insertion never
leaves an older one before its own.
-/

namespace PlotLisp

/-- `a` stands before `b` in the order of their bytes. -/
def precedes (a b : String) : Bool := decide (a.toUTF8.data.toList < b.toUTF8.data.toList)

/-- A map from names to values, as entries in the order of the names. -/
structure NameMap (α : Type) where
  entries : List (String × α) := []

namespace NameMap

variable {α β : Type}

instance : EmptyCollection (NameMap α) := ⟨⟨[]⟩⟩

instance : Inhabited (NameMap α) := ⟨∅⟩

/-! ## Operations -/

/-- Replaces the entry of a name, or puts one where the order wants it. -/
def insertEntry (name : String) (value : α) : List (String × α) → List (String × α)
  | [] => [(name, value)]
  | (other, old) :: rest =>
    if other = name then (name, value) :: rest
    else if precedes name other then (name, value) :: (other, old) :: rest
    else (other, old) :: insertEntry name value rest

/-- The value first bound to a name. -/
def findIn? (name : String) : List (String × α) → Option α
  | [] => none
  | (other, value) :: rest => if other = name then some value else findIn? name rest

def get? (m : NameMap α) (name : String) : Option α := findIn? name m.entries

def contains (m : NameMap α) (name : String) : Bool := (m.get? name).isSome

def insert (m : NameMap α) (name : String) (value : α) : NameMap α :=
  ⟨insertEntry name value m.entries⟩

def erase (m : NameMap α) (name : String) : NameMap α :=
  ⟨m.entries.filter fun entry => entry.1 ≠ name⟩

def size (m : NameMap α) : Nat := m.entries.length

def names (m : NameMap α) : List String := m.entries.map (·.1)

/-- A map with the given entries, the later of two for one name prevailing. -/
def ofList (entries : List (String × α)) : NameMap α :=
  entries.foldl (fun m entry => m.insert entry.1 entry.2) ∅

/-! ## Look-ups -/

@[simp] theorem get?_empty (name : String) : (∅ : NameMap α).get? name = none := rfl

theorem findIn?_insertEntry (name other : String) (value : α) (entries : List (String × α)) :
    findIn? other (insertEntry name value entries)
      = if name = other then some value else findIn? other entries := by
  induction entries with
  | nil => simp [insertEntry, findIn?]
  | cons entry rest ih =>
    obtain ⟨key, old⟩ := entry
    by_cases hk : key = name
    · subst hk
      by_cases ho : key = other <;> simp [insertEntry, findIn?, ho]
    · by_cases hp : precedes name key
      · simp [insertEntry, findIn?, hk, hp]
      · by_cases ho : key = other
        · subst ho
          simp [insertEntry, findIn?, hk, hp, Ne.symm hk]
        · simp [insertEntry, findIn?, hk, hp, ho, ih]

/-- An insertion is seen at its own name and nowhere else. -/
theorem get?_insert (m : NameMap α) (name other : String) (value : α) :
    (m.insert name value).get? other = if name = other then some value else m.get? other :=
  findIn?_insertEntry name other value m.entries

@[simp] theorem get?_insert_self (m : NameMap α) (name : String) (value : α) :
    (m.insert name value).get? name = some value := by
  simp [get?_insert]

theorem findIn?_filter_ne (name other : String) (entries : List (String × α)) :
    findIn? other (entries.filter fun entry => entry.1 ≠ name)
      = if name = other then none else findIn? other entries := by
  induction entries with
  | nil => simp [findIn?]
  | cons entry rest ih =>
    obtain ⟨key, old⟩ := entry
    by_cases hk : key = name
    · subst hk
      by_cases ho : key = other <;> simp_all [findIn?]
    · by_cases ho : key = other
      · subst ho
        simp [findIn?, hk, Ne.symm hk]
      · simp_all [findIn?]

/-- An erased name is bound to nothing, and the other names are as before. -/
theorem get?_erase (m : NameMap α) (name other : String) :
    (m.erase name).get? other = if name = other then none else m.get? other :=
  findIn?_filter_ne name other m.entries

end NameMap

end PlotLisp
