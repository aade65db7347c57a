import Mathlib.Data.List.Induction
import Mathlib.Data.List.Nodup
import PlotLisp.NameMap

/-!
# Maps in the order of their names

The names of a map stand in the order of their bytes, and none of them twice. An insertion keeps
them so, and with them every map that is made of insertions.

In such a map the entries are what look-ups find, whereas in any list of entries a look-up sees the
first of a name only. Two maps in order in which look-ups find the same are one map.
-/

namespace PlotLisp

/-! ## The order of names -/

theorem precedes_irrefl (a : String) : precedes a a = false := by
  simp [precedes, List.lt_irrefl]

theorem precedes_trans {a b c : String} (h_first : precedes a b) (h_second : precedes b c) :
    precedes a c := by
  simp only [precedes, decide_eq_true_eq] at h_first h_second ⊢
  exact List.lt_trans h_first h_second

theorem precedes_asymm {a b : String} (h_before : precedes a b) : precedes b a = false := by
  simp only [precedes, decide_eq_true_eq, decide_eq_false_iff_not] at h_before ⊢
  exact List.lt_asymm h_before

/-- Of two names one stands before the other, for no two have the same bytes. -/
theorem precedes_of_ne {a b : String} (h_ne : a ≠ b) (h_after : precedes a b = false) :
    precedes b a := by
  simp only [precedes, decide_eq_true_eq, decide_eq_false_iff_not, List.not_lt] at h_after ⊢
  by_contra h_before
  have h_bytes := List.le_antisymm (List.not_lt.mp h_before) h_after
  exact h_ne (String.toByteArray_inj.mp (ByteArray.ext (Array.toList_inj.mp h_bytes)))

namespace NameMap

variable {α : Type}

/-! ## Entries -/

theorem mem_entries_of_get? {m : NameMap α} {name : String} {value : α}
    (h_found : m.get? name = some value) : (name, value) ∈ m.entries := by
  obtain ⟨entries⟩ := m
  unfold get? at h_found
  induction entries with
  | nil => cases h_found
  | cons entry rest ih =>
    obtain ⟨other, old⟩ := entry
    by_cases h_name : other = name
    · simp only [findIn?, if_pos h_name, Option.some.injEq] at h_found
      rw [h_name, h_found]
      exact List.mem_cons_self
    · rw [findIn?, if_neg h_name] at h_found
      exact List.mem_cons_of_mem _ (ih h_found)

theorem mem_insertEntry {name : String} {value : α} {entries : List (String × α)}
    {entry : String × α} (h_entry : entry ∈ insertEntry name value entries) :
    entry = (name, value) ∨ entry ∈ entries := by
  induction entries with
  | nil => exact .inl (List.mem_singleton.mp h_entry)
  | cons first rest ih =>
    rw [insertEntry] at h_entry
    split at h_entry
    · rcases List.mem_cons.mp h_entry with h_new | h_rest
      · exact .inl h_new
      · exact .inr (List.mem_cons_of_mem _ h_rest)
    split at h_entry
    · exact List.mem_cons.mp h_entry
    · rcases List.mem_cons.mp h_entry with h_first | h_rest
      · exact .inr (List.mem_cons.mpr (.inl h_first))
      · exact (ih h_rest).imp_right (List.mem_cons_of_mem _)

theorem forall_mem_empty {p : String × α → Prop} : ∀ entry ∈ (∅ : NameMap α).entries, p entry := nofun

/-- What holds of all values of a map and of a new one holds of all values with the new one. -/
theorem forall_mem_insert {p : α → Prop} {m : NameMap α} {name : String} {value : α}
    (h_all : ∀ entry ∈ m.entries, p entry.2) (h_value : p value) :
    ∀ entry ∈ (m.insert name value).entries, p entry.2 := by
  intro entry h_entry
  rcases mem_insertEntry h_entry with rfl | h_old
  · exact h_value
  · exact h_all entry h_old

theorem mem_of_mem_ofList {entries : List (String × α)} {entry : String × α}
    (h_entry : entry ∈ (ofList entries).entries) : entry ∈ entries := by
  induction entries using List.reverseRecOn with
  | nil => exact h_entry
  | append_singleton entries last ih =>
    rw [ofList, List.foldl_append] at h_entry
    rcases mem_insertEntry h_entry with rfl | h_old
    · exact List.mem_append_right _ (List.mem_singleton_self last)
    · exact List.mem_append_left _ (ih h_old)

theorem forall_mem_ofList {p : α → Prop} {entries : List (String × α)}
    (h_all : ∀ entry ∈ entries, p entry.2) : ∀ entry ∈ (ofList entries).entries, p entry.2 :=
  fun entry h_entry => h_all entry (mem_of_mem_ofList h_entry)

/-! ## Maps of given entries -/

theorem get?_ofList_eq_none {entries : List (String × α)} {name : String}
    (h_name : name ∉ entries.map Prod.fst) : (ofList entries).get? name = none := by
  induction entries using List.reverseRecOn with
  | nil => rfl
  | append_singleton entries last ih =>
    rw [List.map_append, List.mem_append, not_or] at h_name
    have h_ne : last.1 ≠ name := fun h_same => h_name.2 (h_same ▸ List.mem_singleton_self _)
    rw [ofList, List.foldl_append]
    exact (get?_insert _ _ _ _).trans ((if_neg h_ne).trans (ih h_name.1))

/-- Where no name stands twice, each has the value that it stands with. -/
theorem get?_ofList_of_mem {entries : List (String × α)} {name : String} {value : α}
    (h_names : (entries.map Prod.fst).Nodup) (h_entry : (name, value) ∈ entries) :
    (ofList entries).get? name = some value := by
  induction entries using List.reverseRecOn with
  | nil => cases h_entry
  | append_singleton entries last ih =>
    rw [List.map_append, List.nodup_append] at h_names
    obtain ⟨h_before, -, h_distinct⟩ := h_names
    rw [ofList, List.foldl_append]
    refine (get?_insert _ _ _ _).trans ?_
    rcases List.mem_append.mp h_entry with h_old | h_last
    · have h_ne : last.1 ≠ name := Ne.symm
        (h_distinct name (List.mem_map_of_mem h_old) last.1 (List.mem_singleton_self _))
      rw [if_neg h_ne]
      exact ih h_before h_old
    · cases List.mem_singleton.mp h_last
      rw [if_pos rfl]

/-! ## Maps in order -/

/-- The names stand in their order. -/
def IsOrdered (m : NameMap α) : Prop :=
  m.entries.Pairwise fun first second => precedes first.1 second.1

theorem isOrdered_empty : (∅ : NameMap α).IsOrdered := List.Pairwise.nil

theorem IsOrdered.insert {m : NameMap α} (h_ordered : m.IsOrdered) (name : String) (value : α) :
    (m.insert name value).IsOrdered := by
  obtain ⟨entries⟩ := m
  unfold IsOrdered NameMap.insert at *
  induction entries with
  | nil => exact List.pairwise_singleton _ _
  | cons first rest ih =>
    obtain ⟨h_first, h_rest⟩ := List.pairwise_cons.mp h_ordered
    rw [insertEntry]
    split
    case isTrue h_name =>
      subst h_name
      exact List.pairwise_cons.mpr ⟨h_first, h_rest⟩
    case isFalse h_name =>
    split
    case isTrue h_before =>
      refine List.pairwise_cons.mpr ⟨fun entry h_entry => ?_, h_ordered⟩
      rcases List.mem_cons.mp h_entry with rfl | h_entry
      · exact h_before
      · exact precedes_trans h_before (h_first entry h_entry)
    case isFalse h_before =>
      refine List.pairwise_cons.mpr ⟨fun entry h_entry => ?_, ih h_rest⟩
      rcases mem_insertEntry h_entry with rfl | h_entry
      · exact precedes_of_ne (Ne.symm h_name) (Bool.eq_false_iff.mpr h_before)
      · exact h_first entry h_entry

theorem IsOrdered.erase {m : NameMap α} (h_ordered : m.IsOrdered) (name : String) :
    (m.erase name).IsOrdered := List.Pairwise.filter _ h_ordered

theorem isOrdered_ofList (entries : List (String × α)) : (ofList entries).IsOrdered := by
  induction entries using List.reverseRecOn with
  | nil => exact isOrdered_empty
  | append_singleton entries last ih =>
    rw [ofList, List.foldl_append]
    exact ih.insert last.1 last.2

/-- The entries of a map in order are what look-ups find. -/
theorem IsOrdered.mem_entries_iff {m : NameMap α} (h_ordered : m.IsOrdered) {name : String}
    {value : α} : (name, value) ∈ m.entries ↔ m.get? name = some value := by
  refine ⟨fun h_entry => ?_, mem_entries_of_get?⟩
  obtain ⟨entries⟩ := m
  unfold get?
  unfold IsOrdered at h_ordered
  induction entries with
  | nil => cases h_entry
  | cons first rest ih =>
    obtain ⟨h_first, h_rest⟩ := List.pairwise_cons.mp h_ordered
    rcases List.mem_cons.mp h_entry with rfl | h_entry
    · rw [findIn?, if_pos rfl]
    · -- the first entry has another name, which stands before this one
      have h_name : first.1 ≠ name := by
        intro h_same
        have h_before := h_first _ h_entry
        rw [h_same, precedes_irrefl] at h_before
        cases h_before
      rw [findIn?, if_neg h_name]
      exact ih h_rest h_entry

/-- Maps in order in which look-ups find the same are the same. -/
theorem IsOrdered.ext {m other : NameMap α} (h_ordered : m.IsOrdered) (h_other : other.IsOrdered)
    (h_same : ∀ name, m.get? name = other.get? name) : m = other := by
  have h_nodup {m : NameMap α} (h_ordered : m.IsOrdered) : m.entries.Nodup := by
    refine h_ordered.imp fun {first second} h_before => ?_
    rintro rfl
    rw [precedes_irrefl] at h_before
    cases h_before
  have h_perm : m.entries.Perm other.entries := by
    refine (List.perm_ext_iff_of_nodup (h_nodup h_ordered) (h_nodup h_other)).mpr ?_
    rintro ⟨name, value⟩
    rw [h_ordered.mem_entries_iff, h_other.mem_entries_iff, h_same]
  have h_entries := h_perm.eq_of_pairwise (fun first second _ _ h_before h_after => by
    rw [precedes_asymm h_before] at h_after
    cases h_after) h_ordered h_other
  cases m
  cases other
  exact congrArg NameMap.mk h_entries

end NameMap

end PlotLisp
