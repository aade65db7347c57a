import Mathlib.Data.List.Forall2
import PlotLisp.Expression.Agreement
import PlotLisp.Proofs.Number.Distance

/-!
# How far agreement is mutual

Agreement compares two trees node by node, and at each node the right side decides how. Two trees
agree in both directions exactly if they have one shape and their heads are alike: of one kind, with
the same letters or with near values. In one direction alone there are two more ways to agree at a
node, both for lack of a value of the kind that is asked for: what is no complex number counts as zero
beside one, and the string `list` has the letters of the list marker.

* `Atom.IsLike` and `Atom.IsTakenFor` are the ways in which one head agrees with another.
* `Expression.NodeByNode R` holds of two trees of one shape with heads related by `R`.
* `Expression.IsMade` are the trees that can be made. None has a symbol spelled like a marker.
* `agreement_is_likeness` is the conclusion.
-/

namespace PlotLisp

/-! ## Heads -/

namespace Atom

/-- Two atoms of one kind, with the same letters or with values that are near in both directions. -/
inductive IsLike : Atom → Atom → Prop where
  | nothing : IsLike .nothing .nothing
  | number {x y} (h_near : near x y) (h_back : near y x) : IsLike (.number x) (.number y)
  | complex {z w} (h_near : nearComplex z w) (h_back : nearComplex w z) :
      IsLike (.complex z) (.complex w)
  | symbol (name : String) : IsLike (.symbol name) (.symbol name)
  | list : IsLike .list .list
  | lambda : IsLike .lambda .lambda
  | string (text : String) : IsLike (.string text) (.string text)

/-- The first is taken for the second, which is of another kind: for a complex number near zero,
or for the list marker. -/
inductive IsTakenFor : Atom → Atom → Prop where
  | zero {x w} (h_kind : x.kind ≠ .complex) (h_re : near 0.0 w.re) (h_im : near 0.0 w.im) :
      IsTakenFor x (.complex w)
  | list : IsTakenFor (.string "list") .list

theorem nearComplex_comm (z w : ComplexNumber) : nearComplex z w = nearComplex w z := by
  unfold nearComplex
  rw [near_comm z.re, near_comm z.im]

/-- Agreement of atoms asks for nearness in one direction, which is as good as in both. -/
theorem isLike_iff {x y : Atom} : x.IsLike y ↔ x.agrees y = true := by
  constructor
  · intro h_like
    cases h_like with
    | number h_near | complex h_near => exact h_near
    | symbol name | string name => exact beq_self_eq_true name
    | nothing | list | lambda => rfl
  · intro h_agrees
    unfold agrees at h_agrees
    split at h_agrees
    · exact .nothing
    · exact .number h_agrees ((near_comm _ _).trans h_agrees)
    · exact .complex h_agrees ((nearComplex_comm _ _).trans h_agrees)
    · rw [beq_iff_eq.mp h_agrees]
      exact .symbol _
    · rw [beq_iff_eq.mp h_agrees]
      exact .string _
    · exact .list
    · exact .lambda
    · cases h_agrees

theorem IsLike.kind_eq {x y : Atom} (h_like : x.IsLike y) : x.kind = y.kind := by
  cases h_like <;> rfl

theorem IsLike.symm {x y : Atom} (h_like : x.IsLike y) : y.IsLike x := by
  cases h_like with
  | number h_near h_back => exact .number h_back h_near
  | complex h_near h_back => exact .complex h_back h_near
  | nothing => exact .nothing
  | symbol name => exact .symbol name
  | list => exact .list
  | lambda => exact .lambda
  | string text => exact .string text

theorem IsTakenFor.kind_ne {x y : Atom} (h_taken : x.IsTakenFor y) : x.kind ≠ y.kind := by
  cases h_taken with
  | zero h_kind => exact h_kind
  | list => exact nofun

theorem IsTakenFor.asymm {x y : Atom} (h_taken : x.IsTakenFor y) : ¬ y.IsTakenFor x := by
  intro h_back
  cases h_taken with
  | zero h_kind =>
    cases h_back with
    | zero => exact h_kind rfl
  | list => cases h_back

end Atom

/-- What an atom counts for beside a complex number. -/
theorem headAgrees_complex_iff {x : Atom} {w : ComplexNumber} :
    Expression.headAgrees x (.complex w) = true
      ↔ x.IsLike (.complex w) ∨ x.IsTakenFor (.complex w) := by
  by_cases h_kind : x.kind = .complex
  · have h_taken : ¬ x.IsTakenFor (.complex w) := fun h_taken => h_taken.kind_ne h_kind
    rw [Atom.isLike_iff, or_iff_left h_taken]
    cases x with
    | complex z => rfl
    | _ => cases h_kind
  · have h_like : ¬ x.IsLike (.complex w) := fun h_like => h_kind h_like.kind_eq
    have h_value : x.complexValue = ⟨0.0, 0.0⟩ := by
      cases x with
      | complex z => exact absurd rfl h_kind
      | _ => rfl
    rw [or_iff_right h_like, Expression.headAgrees, h_value, Atom.nearComplex, Bool.and_eq_true]
    constructor
    · intro h_near
      exact .zero h_kind h_near.1 h_near.2
    · intro h_taken
      cases h_taken with
      | zero _ h_re h_im => exact ⟨h_re, h_im⟩

/-- What an atom counts for beside a list marker. A symbol of that spelling would agree with it. -/
theorem headAgrees_list_iff {x : Atom} (h_symbol : x ≠ .symbol "list") :
    Expression.headAgrees x .list = true ↔ x.IsLike .list ∨ x.IsTakenFor .list := by
  rw [Expression.headAgrees, beq_iff_eq]
  constructor
  · intro h_label
    cases x with
    | list => exact .inl .list
    | string text =>
      have h_text : text = "list" := h_label
      rw [h_text]
      exact .inr .list
    | symbol name => exact absurd (congrArg Atom.symbol h_label) h_symbol
    | lambda | nothing | number | complex =>
      simp only [Atom.label] at h_label
      exact absurd h_label (by decide)
  · intro h_agrees
    cases h_agrees with
    | inl h_like => cases h_like; rfl
    | inr h_taken => cases h_taken; rfl

theorem headAgrees_iff {x y : Atom} (h_symbol : x ≠ .symbol "list") :
    Expression.headAgrees x y = true ↔ x.IsLike y ∨ x.IsTakenFor y := by
  cases y with
  | complex w => exact headAgrees_complex_iff
  | list => exact headAgrees_list_iff h_symbol
  | _ =>
    rw [Atom.isLike_iff, or_iff_left (by rintro ⟨⟩)]
    rfl

/-- Of two heads that agree in both directions none is taken for the other. -/
theorem headAgrees_both_iff {x y : Atom} (h_x : x ≠ .symbol "list") (h_y : y ≠ .symbol "list") :
    Expression.headAgrees x y = true ∧ Expression.headAgrees y x = true ↔ x.IsLike y := by
  rw [headAgrees_iff h_x, headAgrees_iff h_y]
  constructor
  · intro h_both
    rcases h_both with ⟨h_like | h_taken, h_back⟩
    · exact h_like
    · rcases h_back with h_like | h_taken'
      · exact h_like.symm
      · exact absurd h_taken' h_taken.asymm
  · intro h_like
    exact ⟨.inl h_like, .inl h_like.symm⟩

/-! ## Trees that can be made -/

/-- An atom that can be made: a name makes a marker if it is spelled like one. -/
inductive Atom.IsMade : Atom → Prop where
  | nothing : IsMade .nothing
  | number (value : Float) : IsMade (.number value)
  | complex (value : ComplexNumber) : IsMade (.complex value)
  | name (name : String) : IsMade (.ofName name)
  | list : IsMade .list
  | lambda : IsMade .lambda
  | string (text : String) : IsMade (.string text)

theorem Atom.IsMade.ne_list {atom : Atom} (h_made : atom.IsMade) : atom ≠ .symbol "list" := by
  cases h_made with
  | name name =>
    unfold ofName
    split
    · exact nofun
    · rename_i h_list
      split
      · exact nofun
      · intro h_symbol
        exact h_list (Atom.symbol.inj h_symbol)
  | _ => exact nofun

namespace Expression

/-- A tree that can be made: from an atom, by putting trees behind it, by changing its head and by
setting properties. -/
inductive IsMade : Expression → Prop where
  | ofAtom {head} (h_head : head.IsMade) : IsMade (.ofAtom head)
  | append {e child} (h_e : IsMade e) (h_child : IsMade child) : IsMade (e.append child)
  | withHead {e head} (h_e : IsMade e) (h_head : head.IsMade) : IsMade { e with head := head }
  | addProperty {e key value} (h_e : IsMade e) (h_key : IsMade key) (h_value : IsMade value) :
      IsMade (e.addProperty key value)

namespace IsMade

variable {e : Expression}

theorem head (h_e : e.IsMade) : e.head.IsMade := by
  induction h_e with
  | ofAtom h_head | withHead _ h_head => exact h_head
  | append _ _ ih | addProperty _ _ _ ih => exact ih

theorem tail (h_e : e.IsMade) : ∀ child ∈ e.tail, child.IsMade := by
  induction h_e with
  | ofAtom => exact nofun
  | append _ h_child ih =>
    exact List.forall_mem_append.mpr ⟨ih, List.forall_mem_singleton.mpr h_child⟩
  | withHead _ _ ih | addProperty _ _ _ ih => exact ih

end IsMade

/-! ## Trees of one shape -/

/-- The two trees have one shape, and at each node the heads are so related. Properties take no
part. -/
inductive NodeByNode (R : Atom → Atom → Prop) : Expression → Expression → Prop where
  | node {head other tail others properties properties'} (h_head : R head other)
      (h_tail : List.Forall₂ (NodeByNode R) tail others) :
      NodeByNode R ⟨head, tail, properties⟩ ⟨other, others, properties'⟩

variable {R S : Atom → Atom → Prop} {a b : Expression}

theorem nodeByNode_iff :
    NodeByNode R a b ↔ R a.head b.head ∧ List.Forall₂ (NodeByNode R) a.tail b.tail := by
  constructor
  · intro h_nodes
    cases h_nodes with
    | node h_head h_tail => exact ⟨h_head, h_tail⟩
  · intro h_parts
    obtain ⟨head, tail, properties⟩ := a
    obtain ⟨other, others, properties'⟩ := b
    exact .node h_parts.1 h_parts.2

/-- What holds of a tree if it holds of its children holds of every tree. -/
theorem induction {p : Expression → Prop} (node : ∀ e, (∀ child ∈ e.tail, p child) → p e) :
    ∀ e, p e
  | ⟨head, tail, properties⟩ => node _ fun child h_child =>
      have : sizeOf child < sizeOf tail := List.sizeOf_lt_of_mem h_child
      induction node child
  termination_by e => sizeOf e

theorem forall₂_congr_of_mem {P Q : Expression → Expression → Prop}
    {tail others : List Expression}
    (h_each : ∀ child ∈ tail, ∀ other ∈ others, P child other ↔ Q child other) :
    List.Forall₂ P tail others ↔ List.Forall₂ Q tail others := by
  induction tail generalizing others with
  | nil => rw [List.forall₂_nil_left_iff, List.forall₂_nil_left_iff]
  | cons child rest ih =>
    cases others with
    | nil => simp only [List.forall₂_nil_right_iff]
    | cons other others =>
      obtain ⟨h_first, h_rest⟩ := List.forall_mem_cons.mp h_each
      rw [List.forall₂_cons, List.forall₂_cons, h_first other List.mem_cons_self,
        ih fun child h_child other h_other =>
          h_rest child h_child other (List.mem_cons_of_mem _ h_other)]

theorem forall₂_and_flip {P Q : Expression → Expression → Prop} {tail others : List Expression} :
    List.Forall₂ P tail others ∧ List.Forall₂ Q others tail
      ↔ List.Forall₂ (fun a b => P a b ∧ Q b a) tail others := by
  induction tail generalizing others with
  | nil => cases others <;> simp
  | cons child rest ih =>
    cases others with
    | nil => simp
    | cons other others => rw [List.forall₂_cons, List.forall₂_cons, List.forall₂_cons,
        and_and_and_comm, ih]

/-- The heads that come up are of the trees, and only those count. -/
theorem nodeByNode_congr (h_a : a.IsMade) (h_b : b.IsMade)
    (h_heads : ∀ x y : Atom, x.IsMade → y.IsMade → (R x y ↔ S x y)) :
    NodeByNode R a b ↔ NodeByNode S a b := by
  induction a using Expression.induction generalizing b with
  | node a ih =>
    rw [nodeByNode_iff, nodeByNode_iff, h_heads _ _ h_a.head h_b.head,
      forall₂_congr_of_mem fun child h_child other h_other =>
        ih child h_child (h_a.tail child h_child) (h_b.tail other h_other)]

theorem nodeByNode_and_flip :
    NodeByNode R a b ∧ NodeByNode S b a ↔ NodeByNode (fun x y => R x y ∧ S y x) a b := by
  induction a using Expression.induction generalizing b with
  | node a ih =>
    rw [nodeByNode_iff, nodeByNode_iff, nodeByNode_iff, and_and_and_comm, forall₂_and_flip,
      forall₂_congr_of_mem fun child h_child other _ => ih child h_child]

/-! ## Agreement -/

theorem agreesAll_iff {tail others : List Expression} :
    agreesAll tail others = true ↔ List.Forall₂ (fun a b => a.agrees b = true) tail others := by
  induction tail generalizing others with
  | nil => cases others <;> simp [agreesAll]
  | cons child rest ih =>
    cases others with
    | nil => simp [agreesAll]
    | cons other others => rw [agreesAll, Bool.and_eq_true, ih, List.forall₂_cons]

theorem agrees_iff :
    a.agrees b = true ↔ NodeByNode (fun x y => headAgrees x y = true) a b := by
  induction a using Expression.induction generalizing b with
  | node a ih =>
    obtain ⟨head, tail, properties⟩ := a
    obtain ⟨other, others, properties'⟩ := b
    rw [nodeByNode_iff, agrees, Bool.and_eq_true, agreesAll_iff,
      forall₂_congr_of_mem fun child h_child other _ => ih child h_child]

end Expression

/-- Two trees agree in both directions exactly if they have one shape and at each node the heads are
alike, whatever the properties are. One agrees with the other exactly if they have one shape and at
each node the heads are alike, or else the right one is a complex number near zero and the left one is
none, or the right one is the list marker and the left one the string of that spelling. -/
theorem agreement_is_likeness {a b : Expression} (h_a : a.IsMade) (h_b : b.IsMade) :
    (a.agrees b = true ∧ b.agrees a = true ↔ Expression.NodeByNode Atom.IsLike a b) ∧
      (a.agrees b = true
        ↔ Expression.NodeByNode (fun x y => x.IsLike y ∨ x.IsTakenFor y) a b) := by
  constructor
  · rw [Expression.agrees_iff, Expression.agrees_iff, Expression.nodeByNode_and_flip]
    apply Expression.nodeByNode_congr h_a h_b
    intro x y h_x h_y
    exact headAgrees_both_iff h_x.ne_list h_y.ne_list
  · rw [Expression.agrees_iff]
    apply Expression.nodeByNode_congr h_a h_b
    intro x y h_x _
    exact headAgrees_iff h_x.ne_list

/-- A list of a string that is spelled like the marker, and of a number. -/
def wordAndNumber : Expression := .list [.ofAtom (.string "list"), .number 2.0]

/-- A list of an empty list, which has a property, and of a complex number near zero. -/
def listAndComplex : Expression :=
  .list [(Expression.list []).addProperty (.ofAtom (.string "size")) (.number 1.0),
    .complex ⟨1e-20, -0.0⟩]

/-- The first agrees with the second at both items because it is taken for it, and not the other way
round. -/
theorem word_agrees_with_list_one_way :
    wordAndNumber.IsMade ∧ listAndComplex.IsMade ∧
      Expression.NodeByNode (fun x y => x.IsLike y ∨ x.IsTakenFor y) wordAndNumber listAndComplex ∧
      ¬ Expression.NodeByNode Atom.IsLike wordAndNumber listAndComplex := by
  have h_word : wordAndNumber.IsMade :=
    ((Expression.IsMade.ofAtom .list).append (.ofAtom (.string "list"))).append
      (.ofAtom (.number 2.0))
  have h_list : listAndComplex.IsMade :=
    ((Expression.IsMade.ofAtom .list).append
      ((Expression.IsMade.ofAtom .list).addProperty (.ofAtom (.string "size"))
        (.ofAtom (.number 1.0)))).append (.ofAtom (.complex ⟨1e-20, -0.0⟩))
  obtain ⟨h_both, h_one⟩ := agreement_is_likeness h_word h_list
  refine ⟨h_word, h_list, h_one.mp (by decide +kernel), fun h_like => ?_⟩
  exact absurd (h_both.mpr h_like).2 (by decide +kernel)

end PlotLisp

