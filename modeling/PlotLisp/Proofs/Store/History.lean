import Mathlib.Data.Bool.Basic
import PlotLisp.Proofs.NameMap.Order
import PlotLisp.Store

/-!
# Histories of a store

Any number of clients use a store, each operation in one indivisible step. What is under a key is told
by the history of these steps alone: the last value written under it, unless the key was removed since.
A value is written by an insertion, or by an emplacement that found the key free.

* `Step` has a constructor for each operation, and an `Event` says what it did and found.
* `Run` is any interleaving of operations, with the history of what each client did.
* `Stands` reads off a history which value is under a key, and `Event.Finds` says what an operation
  finds where these are the values that stand.
* `histories_determine_stores` is the conclusion.
-/

namespace PlotLisp

namespace Store

/-! ## Events -/

/-- What an operation did, and what it answered. -/
inductive Event (α : Type) where
  | emplaced (key : String) (value : α) (succeeded : Bool)
  | inserted (key : String) (value : α) (previous : Option α)
  | erased (key : String) (previous : Option α)
  | found (key : String) (value? : Option α)
  | sized (size : Nat)
  | listed (keys : List String)
  | cleared

namespace Event

variable {α : Type}

/-- It put the value under the key: by an insertion, or by an emplacement that succeeded. -/
def Writes (key : String) (value : α) : Event α → Prop
  | emplaced other new succeeded => succeeded = true ∧ other = key ∧ new = value
  | inserted other new _ => other = key ∧ new = value
  | _ => False

/-- There is nothing under the key behind it: the key was erased while it had a value, or all were. -/
def Removes (key : String) : Event α → Prop
  | erased other previous => previous.isSome ∧ other = key
  | cleared => True
  | _ => False

/-- It settled what is under the key, whatever was there before. -/
def Settles (key : String) (event : Event α) : Prop := (∃ value, event.Writes key value) ∨ event.Removes key

/-- It was an operation on the key, or on all of them. -/
def Concerns (key : String) : Event α → Prop
  | emplaced other _ _ | inserted other _ _ | erased other _ | found other _ => other = key
  | cleared => True
  | sized _ | listed _ => False

/-- It was an emplacement under the key that succeeded. -/
def isEmplacement (key : String) : Event α → Bool
  | emplaced other _ succeeded => succeeded && other == key
  | _ => false

/-- The keys in their order, each once: those that have a value. -/
def AreKeys (stands : String → α → Prop) (keys : List String) : Prop :=
  (keys.Pairwise fun first second => precedes first second) ∧
    ∀ key, key ∈ keys ↔ ∃ value, stands key value

/-- What an operation answers where certain values stand under the keys. -/
def Finds (stands : String → α → Prop) : Event α → Prop
  | emplaced key _ succeeded => succeeded = true ↔ ∀ value, ¬ stands key value
  | inserted key _ previous => ∀ value, previous = some value ↔ stands key value
  | erased key previous => ∀ value, previous = some value ↔ stands key value
  | found key value? => ∀ value, value? = some value ↔ stands key value
  | sized size => ∃ keys, AreKeys stands keys ∧ keys.length = size
  | listed keys => AreKeys stands keys
  | cleared => True

end Event

/-! ## Steps -/

variable {α ι : Type}

/-- One operation on a store. -/
inductive Step (store : Store α) : Event α → Store α → Prop where
  | emplace (key value) :
      Step store (.emplaced key value (store.emplace key value).1) (store.emplace key value).2
  | insert (key value) :
      Step store (.inserted key value (store.insert key value).1) (store.insert key value).2
  | erase (key) : Step store (.erased key (store.erase key).1) (store.erase key).2
  | find (key) : Step store (.found key (store.find? key)) store
  | size : Step store (.sized store.size) store
  | keys : Step store (.listed store.keys) store
  | clear : Step store .cleared store.clear

/-- Operations of clients in any order, with the history of what each client did. -/
inductive Run (start : Store α) : List (ι × Event α) → Store α → Prop where
  | refl : Run start [] start
  | snoc {history store event next} (client : ι) (h_run : Run start history store)
      (h_step : Step store event next) : Run start (history ++ [(client, event)]) next

/-- The store after the first part of a history is there for the rest of it. -/
theorem Run.exists_middle {start last : Store α} {history before after : List (ι × Event α)}
    (h_run : Run start history last) (h_history : history = before ++ after) :
    ∃ middle, Run start before middle ∧ Run middle after last := by
  induction h_run generalizing after with
  | refl =>
    obtain ⟨rfl, rfl⟩ := List.nil_eq_append_iff.mp h_history
    exact ⟨start, .refl, .refl⟩
  | @snoc history store event next client h_run h_step ih =>
    rcases List.eq_nil_or_concat after with rfl | ⟨after, last, rfl⟩
    · rw [List.append_nil] at h_history
      exact ⟨next, h_history ▸ h_run.snoc client h_step, .refl⟩
    · rw [List.concat_eq_append, ← List.append_assoc] at h_history
      obtain ⟨h_initial, h_last⟩ := List.append_inj' h_history rfl
      obtain ⟨middle, h_before, h_after⟩ := ih h_initial
      cases h_last
      rw [List.concat_eq_append]
      exact ⟨middle, h_before, h_after.snoc client h_step⟩

/-- Each event of a history is that of a step, with a run before it. -/
theorem Run.exists_step {start last : Store α} {history before after : List (ι × Event α)} {client : ι}
    {event : Event α} (h_run : Run start history last)
    (h_history : history = before ++ (client, event) :: after) :
    ∃ store next, Run start before store ∧ Step store event next := by
  obtain ⟨next, h_first, -⟩ := h_run.exists_middle (h_history.trans (List.append_cons ..))
  generalize h_events : before ++ [(client, event)] = events at h_first
  cases h_first with
  | refl => exact absurd h_events (List.append_ne_nil_of_right_ne_nil before (List.cons_ne_nil _ []))
  | @snoc _ store _ _ _ h_before h_step =>
    obtain ⟨rfl, h_last⟩ := List.append_inj' h_events rfl
    cases h_last
    exact ⟨store, next, h_before, h_step⟩

/-! ## The order of keys -/

/-- The keys stand in their order, and none of them twice. -/
def IsOrdered (store : Store α) : Prop := store.entries.IsOrdered

theorem Step.isOrdered {store next : Store α} {event : Event α} (h_step : Step store event next)
    (h_ordered : store.IsOrdered) : next.IsOrdered := by
  cases h_step with
  | emplace key value =>
    rw [Store.emplace]
    split
    · exact h_ordered
    · exact NameMap.IsOrdered.insert h_ordered key value
  | insert key value => exact NameMap.IsOrdered.insert h_ordered key value
  | erase key => exact NameMap.IsOrdered.erase h_ordered key
  | clear => exact NameMap.isOrdered_empty
  | find | size | keys => exact h_ordered

theorem Run.isOrdered {history : List (ι × Event α)} {store : Store α} (h_run : Run ∅ history store) :
    store.IsOrdered := by
  induction h_run with
  | refl => exact NameMap.isOrdered_empty
  | snoc _ _ h_step ih => exact h_step.isOrdered ih

/-- The keys of a store in order are those under which look-ups find something. -/
theorem IsOrdered.areKeys {store : Store α} (h_ordered : store.IsOrdered) :
    Event.AreKeys (fun key value => store.find? key = some value) store.keys := by
  constructor
  · exact List.pairwise_map.mpr h_ordered
  · intro key
    rw [keys, NameMap.names, List.mem_map]
    constructor
    · rintro ⟨⟨other, value⟩, h_entry, rfl⟩
      exact ⟨value, (NameMap.IsOrdered.mem_entries_iff h_ordered).mp h_entry⟩
    · rintro ⟨value, h_found⟩
      exact ⟨(key, value), NameMap.mem_entries_of_get? h_found, rfl⟩

theorem length_keys (store : Store α) : store.keys.length = store.size := List.length_map _

/-! ## What a step does to look-ups -/

theorem emplace_fst (store : Store α) (key : String) (value : α) :
    (store.emplace key value).1 = (store.find? key).isNone := by
  rw [emplace]
  split
  case isTrue h_taken => rw [Option.isNone_eq_false_iff.mpr h_taken]
  case isFalse h_free => rw [Option.not_isSome_iff_eq_none.mp h_free]; rfl

section Steps

variable {store next : Store α} {event : Event α}

/-- A value is under a key behind a step if the step wrote it, or left what was there. -/
theorem Step.find?_eq_some_iff (h_step : Step store event next) {key : String} {value : α} :
    next.find? key = some value
      ↔ event.Writes key value ∨ ¬ event.Settles key ∧ store.find? key = some value := by
  cases h_step with
  | emplace other new =>
    rw [find?_emplace, emplace_fst]
    by_cases h_key : other = key
    · subst h_key
      rcases h_found : store.find? other with _ | old <;>
        simp [Event.Writes, Event.Settles, Event.Removes, eq_comm]
    · simp [Event.Writes, Event.Settles, Event.Removes, h_key]
  | insert other new =>
    rw [find?_insert]
    by_cases h_key : other = key <;> simp [Event.Writes, Event.Settles, Event.Removes, h_key]
  | erase other =>
    rw [find?_erase]
    by_cases h_key : other = key
    · subst h_key
      rcases h_found : store.find? other with _ | old <;>
        simp [Event.Writes, Event.Settles, Event.Removes, Store.erase, h_found]
    · simp [Event.Writes, Event.Settles, Event.Removes, h_key]
  | clear => simp [Event.Writes, Event.Settles, Event.Removes]
  | find | size | keys => simp [Event.Writes, Event.Settles, Event.Removes]

/-- An operation on other keys leaves what is under a key. -/
theorem Step.find?_of_not_concerns (h_step : Step store event next) {key : String}
    (h_other : ¬ event.Concerns key) : next.find? key = store.find? key := by
  cases h_step with
  | emplace other new => exact (find?_emplace ..).trans (if_neg h_other)
  | insert other new => exact (find?_insert ..).trans (if_neg h_other)
  | erase other => exact (find?_erase ..).trans (if_neg h_other)
  | clear => exact absurd trivial h_other
  | find | size | keys => rfl

/-- Each operation answers with what look-ups find. -/
theorem Step.finds (h_step : Step store event next) (h_ordered : store.IsOrdered) :
    event.Finds fun key value => store.find? key = some value := by
  cases h_step with
  | emplace key value =>
    rw [Event.Finds, emplace_fst, Option.isNone_iff_eq_none, Option.eq_none_iff_forall_ne_some]
  | insert | erase | find => exact fun _ => Iff.rfl
  | size => exact ⟨store.keys, h_ordered.areKeys, store.length_keys⟩
  | keys => exact h_ordered.areKeys
  | clear => trivial

end Steps

/-! ## What histories say -/

/-- The history writes the value under the key, and nothing later settles what is there. -/
def Stands (history : List (ι × Event α)) (key : String) (value : α) : Prop :=
  ∃ before client event after, history = before ++ (client, event) :: after ∧
    event.Writes key value ∧ ∀ later ∈ after, ¬ later.2.Settles key

theorem not_stands_nil {key : String} {value : α} : ¬ Stands ([] : List (ι × Event α)) key value := by
  rintro ⟨before, client, event, after, h_history, -⟩
  exact List.append_ne_nil_of_right_ne_nil before (List.cons_ne_nil _ after) h_history.symm

theorem stands_snoc {history : List (ι × Event α)} {client : ι} {event : Event α} {key : String}
    {value : α} :
    Stands (history ++ [(client, event)]) key value
      ↔ event.Writes key value ∨ ¬ event.Settles key ∧ Stands history key value := by
  constructor
  · rintro ⟨before, writer, written, after, h_history, h_writes, h_after⟩
    rcases List.eq_nil_or_concat after with rfl | ⟨after, last, rfl⟩
    · obtain ⟨-, h_last⟩ := List.append_inj' h_history rfl
      cases h_last
      exact .inl h_writes
    · rw [List.concat_eq_append, ← List.cons_append, ← List.append_assoc] at h_history
      rw [List.concat_eq_append] at h_after
      obtain ⟨rfl, h_last⟩ := List.append_inj' h_history rfl
      cases h_last
      rw [List.forall_mem_append, List.forall_mem_singleton] at h_after
      exact .inr ⟨h_after.2, before, writer, written, after, rfl, h_writes, h_after.1⟩
  · rintro (h_writes | ⟨h_kept, before, writer, written, after, rfl, h_writes, h_after⟩)
    · exact ⟨history, client, event, [], rfl, h_writes, nofun⟩
    · refine ⟨before, writer, written, after ++ [(client, event)], ?_, h_writes, ?_⟩
      · rw [List.append_assoc, List.cons_append]
      · rw [List.forall_mem_append, List.forall_mem_singleton]
        exact ⟨h_after, h_kept⟩

/-- Look-ups find what stands in the history. -/
theorem Run.find?_eq_some_iff {history : List (ι × Event α)} {store : Store α}
    (h_run : Run ∅ history store) {key : String} {value : α} :
    store.find? key = some value ↔ Stands history key value := by
  induction h_run with
  | refl => exact iff_of_false nofun not_stands_nil
  | snoc _ _ h_step ih => rw [h_step.find?_eq_some_iff, ih, stands_snoc]

/-- Each operation answers with what stands in the history before it. -/
theorem Run.finds {history before after : List (ι × Event α)} {store : Store α} {client : ι}
    {event : Event α} (h_run : Run ∅ history store)
    (h_history : history = before ++ (client, event) :: after) : event.Finds (Stands before) := by
  obtain ⟨middle, next, h_before, h_step⟩ := h_run.exists_step h_history
  have h_stands : (fun key value => middle.find? key = some value) = Stands before := by
    funext key value
    exact propext h_before.find?_eq_some_iff
  exact h_stands ▸ h_step.finds h_before.isOrdered

/-! ## First come, first served -/

section Steps

variable {store next : Store α} {event : Event α} {key : String}

/-- An emplacement that succeeded found the key free, and left a value under it. -/
theorem Step.of_isEmplacement (h_step : Step store event next)
    (h_event : event.isEmplacement key = true) :
    store.find? key = none ∧ (next.find? key).isSome := by
  cases h_step with
  | emplace other new =>
    rw [Event.isEmplacement, emplace_fst, Bool.and_eq_true, Option.isNone_iff_eq_none,
      beq_iff_eq] at h_event
    obtain ⟨h_free, rfl⟩ := h_event
    rw [find?_emplace, if_pos rfl]
    exact ⟨h_free, rfl⟩
  | insert | erase | find | size | keys | clear => cases h_event

/-- A key that has a value keeps one, as long as it is not removed. -/
theorem Step.isSome_find? (h_step : Step store event next) (h_kept : ¬ event.Removes key)
    (h_taken : (store.find? key).isSome) : (next.find? key).isSome := by
  obtain ⟨value, h_found⟩ := Option.isSome_iff_exists.mp h_taken
  by_cases h_settles : event.Settles key
  · obtain ⟨new, h_writes⟩ := h_settles.resolve_right h_kept
    exact Option.isSome_of_eq_some (h_step.find?_eq_some_iff.mpr (.inl h_writes))
  · exact Option.isSome_of_eq_some (h_step.find?_eq_some_iff.mpr (.inr ⟨h_settles, h_found⟩))

end Steps

/-- As long as nothing is removed from under a key, no more than one emplacement under it succeeds, and
none if the key is free in the end. -/
theorem Run.countP_isEmplacement_le {start last : Store α} {history : List (ι × Event α)} {key : String}
    (h_run : Run start history last) (h_kept : ∀ step ∈ history, ¬ step.2.Removes key) :
    history.countP (·.2.isEmplacement key) ≤ (last.find? key).isSome.toNat := by
  induction h_run with
  | refl => exact Nat.zero_le _
  | @snoc history store event next client _ h_step ih =>
    rw [List.forall_mem_append, List.forall_mem_singleton] at h_kept
    have h_before := ih h_kept.1
    rw [List.countP_append, List.countP_singleton]
    by_cases h_event : event.isEmplacement key = true
    · obtain ⟨h_free, h_taken⟩ := h_step.of_isEmplacement h_event
      rw [h_free] at h_before
      rw [h_taken, if_pos h_event]
      exact Nat.add_le_add_right h_before 1
    · rw [if_neg h_event]
      exact Nat.le_trans h_before (Bool.toNat_le_toNat (h_step.isSome_find? h_kept.2))

/-! ## Stores and their histories -/

/-- What has happened to a store tells what is in it, however the operations of its clients fall
together: a look-up finds the last value that was written under the key and not removed, every operation
answers accordingly, and of emplacements under one key a second one succeeds only after a removal. An
operation leaves what is under other keys. The keys are listed in the order of their bytes, just those
that have a value, and the size is their number. -/
theorem histories_determine_stores {history : List (ι × Event α)} {store : Store α}
    (h_run : Run ∅ history store) :
    (∀ key value, store.find? key = some value ↔ Stands history key value) ∧
    (∀ before client event after, history = before ++ (client, event) :: after →
      event.Finds (Stands before)) ∧
    (∀ key before middle after, history = before ++ middle ++ after →
      (∀ step ∈ middle, ¬ step.2.Removes key) → middle.countP (·.2.isEmplacement key) ≤ 1) ∧
    (∀ key event next, Step store event next → ¬ event.Concerns key →
      next.find? key = store.find? key) ∧
    (store.keys.Pairwise fun first second => precedes first second) ∧
    (∀ key, key ∈ store.keys ↔ (store.find? key).isSome) ∧
    store.keys.length = store.size := by
  have h_keys := h_run.isOrdered.areKeys
  refine ⟨?_, ?_, ?_, ?_, h_keys.1, ?_, store.length_keys⟩
  · intro key value
    exact h_run.find?_eq_some_iff
  · intro before client event after h_history
    exact h_run.finds h_history
  · intro key before middle after h_history h_kept
    rw [List.append_assoc] at h_history
    obtain ⟨first, -, h_rest⟩ := h_run.exists_middle h_history
    obtain ⟨last, h_middle, -⟩ := h_rest.exists_middle rfl
    exact Nat.le_trans (h_middle.countP_isEmplacement_le h_kept) (Bool.toNat_le _)
  · intro key event next h_step h_other
    exact h_step.find?_of_not_concerns h_other
  · intro key
    rw [h_keys.2, Option.isSome_iff_exists]

/-- Of two clients that emplace under one key the first succeeds, and the second when the first has
erased the key again. -/
theorem key_taken_again :
    ∃ store : Store Nat,
      Run ∅ [(false, .emplaced "a" 1 true), (true, .emplaced "a" 2 false),
        (false, .erased "a" (some 1)), (true, .emplaced "a" 2 true)] store ∧
      store.find? "a" = some 2 ∧ "a" ∈ store.keys ∧ store.keys.length = store.size := by
  have h_run : Run (∅ : Store Nat) [(false, .emplaced "a" 1 true), (true, .emplaced "a" 2 false),
      (false, .erased "a" (some 1)), (true, .emplaced "a" 2 true)] _ :=
    (((Run.refl.snoc false (.emplace "a" 1)).snoc true (.emplace "a" 2)).snoc false
      (.erase "a")).snoc true (.emplace "a" 2)
  obtain ⟨h_find, -, -, -, -, h_keys, h_size⟩ := histories_determine_stores h_run
  have h_found := (h_find "a" 2).mpr
    ⟨[(false, .emplaced "a" 1 true), (true, .emplaced "a" 2 false), (false, .erased "a" (some 1))],
      true, .emplaced "a" 2 true, [], rfl, ⟨rfl, rfl, rfl⟩, nofun⟩
  exact ⟨_, h_run, h_found, (h_keys "a").mpr (Option.isSome_of_eq_some h_found), h_size⟩

end Store

end PlotLisp
