import Mathlib.Data.Set.Defs
import PlotLisp.Proofs.Evaluation.Lockstep
import PlotLisp.Proofs.NameMap.Order

/-!
# Expressions that are alike

Two runs of a program may begin with expressions that are not the same, as long as no evaluation can
tell them apart. A `Likeness` says when two expressions are alike, and what an evaluation can get at
inside of one. Beside it stands a set of names, those that the runs may look up: `NamedIn` says that
a program mentions no others, and `Confined` that no lambda inside of a value does.

Values that are alike and confined are treated alike by every built-in procedure
(`Likeness.call_corresponds`): both calls give such values again, or the same error. The one
procedure that reads properties is an exception where these are not part of the likeness.
-/

namespace PlotLisp

theorem rel_refl {α : Type} {R : α → α → Prop} (h_refl : ∀ a, R a a) (found : Option α) :
    Option.Rel R found found := by
  cases found with
  | none => exact .none
  | some a => exact .some (h_refl a)

theorem rel_imp {α β : Type} {R S : α → β → Prop} {first : Option α} {second : Option β}
    (h_related : Option.Rel R first second) (h_sub : ∀ a b, R a b → S a b) :
    Option.Rel S first second := by
  cases h_related with
  | none => exact .none
  | some h_values => exact .some (h_sub _ _ h_values)

/-- What is known of the first of two related values beside that they are related. -/
theorem rel_and_left {α β : Type} {R : α → β → Prop} {p : α → Prop} {first : Option α}
    {second : Option β} :
    Option.Rel (fun a b => p a ∧ R a b) first second
      ↔ (∀ a ∈ first, p a) ∧ Option.Rel R first second := by
  constructor
  · rintro (⟨h_p, h_related⟩ | _)
    · exact ⟨fun _ h_a => Option.some.inj h_a ▸ h_p, .some h_related⟩
    · exact ⟨nofun, .none⟩
  · rintro ⟨h_p, h_related | _⟩
    · exact .some ⟨h_p _ rfl, h_related⟩
    · exact .none

/-! ## Names in expressions -/

/-- The symbol stands somewhere in the expression, outside of properties. -/
inductive Expression.Mentions (name : String) : Expression → Prop where
  | head {tail properties} : Mentions name ⟨.symbol name, tail, properties⟩
  | child {head tail properties child} (h_child : child ∈ tail) (h_mentions : Mentions name child) :
      Mentions name ⟨head, tail, properties⟩

theorem Expression.mentions_iff {name : String} {e : Expression} :
    e.Mentions name ↔ e.head = .symbol name ∨ ∃ child ∈ e.tail, child.Mentions name := by
  constructor
  · intro h_mentions
    cases h_mentions with
    | head => exact .inl rfl
    | child h_child h_mentions => exact .inr ⟨_, h_child, h_mentions⟩
  · obtain ⟨head, tail, properties⟩ := e
    rintro (rfl | ⟨child, h_child, h_mentions⟩)
    · exact .head
    · exact .child h_child h_mentions

/-- All symbols in the expression are among the names. -/
def Expression.NamedIn (names : Set String) (e : Expression) : Prop :=
  ∀ name, e.Mentions name → name ∈ names

theorem Expression.namedIn_iff {names : Set String} {e : Expression} :
    e.NamedIn names
      ↔ (∀ name, e.head = .symbol name → name ∈ names) ∧ ∀ child ∈ e.tail, child.NamedIn names := by
  constructor
  · intro h_named
    exact ⟨fun name h_head => h_named name (mentions_iff.mpr (.inl h_head)),
      fun child h_child name h_mentions =>
        h_named name (mentions_iff.mpr (.inr ⟨child, h_child, h_mentions⟩))⟩
  · rintro ⟨h_head, h_tail⟩ name h_mentions
    rcases mentions_iff.mp h_mentions with h_name | ⟨child, h_child, h_inside⟩
    · exact h_head name h_name
    · exact h_tail child h_child name h_inside

/-! ## Likenesses -/

/-- When two expressions are alike for an evaluation, and what it can get at inside of one. -/
structure Likeness where
  /-- The two are alike. -/
  same : Expression → Expression → Prop
  /-- The second is the first, or is somewhere inside of it. -/
  inside : Expression → Expression → Prop
  /-- Properties take part, both in the likeness and in what is inside. -/
  reads : Prop
  inside_iff : ∀ {e part}, inside e part ↔ part = e ∨ (∃ child ∈ e.tail, inside child part) ∨
    reads ∧ ∃ entry ∈ e.properties.entries, inside entry.2 part
  same_head : ∀ {e e'}, same e e' → e.head = e'.head
  same_tail : ∀ {e e'}, same e e' → List.Forall₂ same e.tail e'.tail
  same_node : ∀ {head tail tail'}, List.Forall₂ same tail tail' →
    same ⟨head, tail, ∅⟩ ⟨head, tail', ∅⟩
  same_append : ∀ {e e' item item'}, same e e' → same item item' →
    same (e.append item) (e'.append item')
  same_addProperty : ∀ {e e' key key' value value'}, same e e' → key.head = key'.head →
    same value value' → same (e.addProperty key value) (e'.addProperty key' value')
  same_property? : ∀ {e e'} name, reads → same e e' →
    Option.Rel same (e.property? name) (e'.property? name)

namespace Likeness

variable (L : Likeness) (names : Set String)

/-- Every lambda inside of the expression mentions only the names. -/
def Confined (e : Expression) : Prop :=
  ∀ part, L.inside e part → part.kind = .lambda → part.NamedIn names

/-- Values on the two sides. -/
def Values (e e' : Expression) : Prop := L.Confined names e ∧ L.same e e'

/-- Program text on the two sides. -/
def Texts (e e' : Expression) : Prop := (e.NamedIn names ∧ L.Confined names e) ∧ L.same e e'

variable {L names}

theorem confined_iff {e : Expression} :
    L.Confined names e ↔ (e.kind = .lambda → e.NamedIn names) ∧
      (∀ child ∈ e.tail, L.Confined names child) ∧
      (L.reads → ∀ entry ∈ e.properties.entries, L.Confined names entry.2) := by
  constructor
  · intro h_e
    refine ⟨h_e e (L.inside_iff.mpr (.inl rfl)), fun child h_child part h_part => ?_,
      fun h_reads entry h_entry part h_part => ?_⟩
    · exact h_e part (L.inside_iff.mpr (.inr (.inl ⟨child, h_child, h_part⟩)))
    · exact h_e part (L.inside_iff.mpr (.inr (.inr ⟨h_reads, entry, h_entry, h_part⟩)))
  · rintro ⟨h_self, h_tail, h_properties⟩ part h_part
    rcases L.inside_iff.mp h_part with
      rfl | ⟨child, h_child, h_inside⟩ | ⟨h_reads, entry, h_entry, h_inside⟩
    · exact h_self
    · exact h_tail child h_child part h_inside
    · exact h_properties h_reads entry h_entry part h_inside

/-! ## Program text -/

namespace Texts

variable {e e' : Expression}

theorem head_eq (h_texts : L.Texts names e e') : e.head = e'.head := L.same_head h_texts.2

theorem name_mem (h_texts : L.Texts names e e') {name : String} (h_head : e.head = .symbol name) :
    name ∈ names :=
  (Expression.namedIn_iff.mp h_texts.1.1).1 name h_head

theorem tails (h_texts : L.Texts names e e') : List.Forall₂ (L.Texts names) e.tail e'.tail := by
  have h_named := (Expression.namedIn_iff.mp h_texts.1.1).2
  have h_confined := (confined_iff.mp h_texts.1.2).2.1
  refine (List.forall₂_and_left _ _).mpr ⟨fun child h_child => ?_, L.same_tail h_texts.2⟩
  exact ⟨h_named child h_child, h_confined child h_child⟩

theorem isEmpty_tail_eq (h_texts : L.Texts names e e') : e.tail.isEmpty = e'.tail.isEmpty := by
  have h_tails := h_texts.tails
  generalize e.tail = tail at h_tails
  generalize e'.tail = tail' at h_tails
  cases h_tails with
  | nil => rfl
  | cons => rfl

theorem values (h_texts : L.Texts names e e') : L.Values names e e' := ⟨h_texts.1.2, h_texts.2⟩

/-- Text is made of text. -/
theorem node {head : Atom} {tail tail' : List Expression}
    (h_head : ∀ name, head = .symbol name → name ∈ names)
    (h_tails : List.Forall₂ (L.Texts names) tail tail') :
    L.Texts names ⟨head, tail, ∅⟩ ⟨head, tail', ∅⟩ := by
  obtain ⟨h_tail, h_same⟩ := (List.forall₂_and_left _ _).mp h_tails
  have h_named : (⟨head, tail, ∅⟩ : Expression).NamedIn names :=
    Expression.namedIn_iff.mpr ⟨h_head, fun child h_child => (h_tail child h_child).1⟩
  have h_confined : L.Confined names ⟨head, tail, ∅⟩ :=
    confined_iff.mpr
      ⟨fun _ => h_named, fun child h_child => (h_tail child h_child).2, fun _ => nofun⟩
  exact ⟨⟨h_named, h_confined⟩, L.same_node h_same⟩

theorem symbol {name : String} (h_name : name ∈ names) {tail tail' : List Expression}
    (h_tails : List.Forall₂ (L.Texts names) tail tail') :
    L.Texts names ⟨.symbol name, tail, ∅⟩ ⟨.symbol name, tail', ∅⟩ := by
  refine node (fun other h_other => ?_) h_tails
  cases h_other
  exact h_name

/-- The head of a text, as an expression of its own. -/
theorem ofAtom (h_texts : L.Texts names e e') :
    L.Texts names (.ofAtom e.head) (.ofAtom e'.head) := by
  rw [← h_texts.head_eq]
  exact node (fun name h_name => h_texts.name_mem h_name) .nil

end Texts

/-! ## Values -/

namespace Values

variable {e e' item item' key key' value value' : Expression}

theorem head_eq (h_values : L.Values names e e') : e.head = e'.head := L.same_head h_values.2

theorem kind_eq (h_values : L.Values names e e') : e.kind = e'.kind :=
  congrArg Atom.kind h_values.head_eq

theorem tails (h_values : L.Values names e e') : List.Forall₂ (L.Values names) e.tail e'.tail :=
  (List.forall₂_and_left _ _).mpr ⟨(confined_iff.mp h_values.1).2.1, L.same_tail h_values.2⟩

/-- What is inside of a lambda is program text. -/
theorem texts_of_lambda (h_values : L.Values names e e') (h_kind : e.kind = .lambda) :
    List.Forall₂ (L.Texts names) e.tail e'.tail :=
  Texts.tails ⟨⟨(confined_iff.mp h_values.1).1 h_kind, h_values.1⟩, h_values.2⟩

/-- A node of values, which is no lambda, is a value. -/
theorem node {head : Atom} {tail tail' : List Expression} (h_head : head.kind ≠ .lambda)
    (h_tails : List.Forall₂ (L.Values names) tail tail') :
    L.Values names ⟨head, tail, ∅⟩ ⟨head, tail', ∅⟩ := by
  obtain ⟨h_tail, h_same⟩ := (List.forall₂_and_left _ _).mp h_tails
  refine ⟨confined_iff.mpr ⟨fun h_kind => absurd h_kind h_head, h_tail, fun _ => nofun⟩, ?_⟩
  exact L.same_node h_same

theorem list {items items' : List Expression}
    (h_items : List.Forall₂ (L.Values names) items items') :
    L.Values names (.list items) (.list items') := node nofun h_items

theorem number (x : Float) : L.Values names (.number x) (.number x) := node nofun .nil

theorem nothing : L.Values names .nothing .nothing := node nofun .nil

theorem scalar (s : Scalar) : L.Values names s.expression s.expression := by
  cases s with
  | real x => exact node nofun .nil
  | complex z => exact node nofun .nil

/-- A lambda of program text is a value. -/
theorem lambda {parameters parameters' : List Expression} {body body' : Expression}
    (h_parameters : List.Forall₂ (L.Texts names) parameters parameters')
    (h_body : L.Texts names body body') :
    L.Values names (.lambda (.list parameters) body) (.lambda (.list parameters') body') := by
  have h_list : L.Texts names (.list parameters) (.list parameters') := .node nofun h_parameters
  have h_lambda : L.Texts names (.lambda (.list parameters) body)
      (.lambda (.list parameters') body') :=
    .node nofun (.cons h_list (.cons h_body .nil))
  exact h_lambda.values

theorem append (h_values : L.Values names e e') (h_head : e.head = .list)
    (h_item : L.Values names item item') : L.Values names (e.append item) (e'.append item') := by
  obtain ⟨-, h_tail, h_properties⟩ := confined_iff.mp h_values.1
  have h_kind : (e.append item).kind ≠ .lambda := by
    change e.head.kind ≠ .lambda
    rw [h_head]
    exact nofun
  refine ⟨confined_iff.mpr ⟨fun h_lambda => absurd h_lambda h_kind, ?_, h_properties⟩, ?_⟩
  · exact List.forall_mem_append.mpr ⟨h_tail, List.forall_mem_singleton.mpr h_item.1⟩
  · exact L.same_append h_values.2 h_item.2

/-- A property does not change what an expression mentions. -/
theorem addProperty (h_values : L.Values names e e') (h_key : key.head = key'.head)
    (h_value : L.Values names value value') :
    L.Values names (e.addProperty key value) (e'.addProperty key' value') := by
  obtain ⟨h_lambda, h_tail, h_properties⟩ := confined_iff.mp h_values.1
  have h_mentions : e.kind = .lambda → (e.addProperty key value).NamedIn names := fun h_kind =>
    Expression.namedIn_iff.mpr ((Expression.namedIn_iff (e := e)).mp (h_lambda h_kind))
  refine ⟨confined_iff.mpr ⟨h_mentions, h_tail, fun h_reads => ?_⟩, ?_⟩
  · exact NameMap.forall_mem_insert (h_properties h_reads) h_value.1
  · exact L.same_addProperty h_values.2 h_key h_value.2

theorem property? (h_values : L.Values names e e') (h_reads : L.reads) (name : String) :
    Option.Rel (L.Values names) (e.property? name) (e'.property? name) := by
  have h_properties := (confined_iff.mp h_values.1).2.2 h_reads
  refine rel_and_left.mpr ⟨fun property h_found => ?_, L.same_property? name h_reads h_values.2⟩
  exact h_properties _ (NameMap.mem_entries_of_get? h_found)

end Values

end Likeness

end PlotLisp
