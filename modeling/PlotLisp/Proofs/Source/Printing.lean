import Mathlib.Data.Bool.AllAny
import PlotLisp.Expression.Display
import PlotLisp.Proofs.Evaluation.Soundness
import PlotLisp.Proofs.Source.Parsing
import PlotLisp.Proofs.Source.Token

/-!
# Parsing what has been printed

The text of an expression is a program again, and its tree is the expression: a node is shown as a form,
a node without children as one of a single word. That holds of trees of numbers, strings and symbols, and
of no others. Lists and lambdas are shown without their markers, and a string with a quote in it ends
too early.

* `Expression.IsWritten` are the trees that can be read again.
* `Expression.form` is the form that an expression is shown as, and `scans_display` says that its lexemes
  are read from the text.
* `ReadsBack` is what has to be known of numbers.
-/

namespace PlotLisp

/-! ## Words for numbers -/

/-- The text of the number has none but the characters of a plain decimal, and reads as the number. -/
def ReadsBack (x : Float) : Prop :=
  (∀ c ∈ (NumberFormat.shortest.text x).toList, c.isDigit = true ∨ c = '-' ∨ c = '.') ∧
    readNumber? (NumberFormat.shortest.text x).toList = some x

section PlainDecimals

variable {text : List Char} (h_text : ∀ c ∈ text, c.isDigit = true ∨ c = '-' ∨ c = '.')

include h_text

theorem isNumeric_of_plain : ∀ c ∈ text, isNumeric c = true := by
  intro c h_c
  rcases h_text c h_c with h_digit | rfl | rfl
  · simp [isNumeric, h_digit]
  · rfl
  · rfl

/-- A number that is written with digits, signs and points has a digit. -/
theorem exists_digit_of_readNumber? {x : Float} (h_read : readNumber? text = some x) :
    ∃ c ∈ text, c.isDigit = true := by
  rw [readNumber?_eq_readDecimal? (isNumeric_of_plain h_text), readDecimal?,
    Option.map_eq_some_iff] at h_read
  obtain ⟨numeral, h_numeral, -⟩ := h_read
  exact Numeral.exists_isDigit_of_mem_grammar
    (Numeral.isSome_ofChars?_iff.mp (Option.isSome_of_eq_some h_numeral))

end PlainDecimals

namespace ReadsBack

variable {x : Float}

theorem endsWord_eq_false (h_x : ReadsBack x) :
    ∀ c ∈ (NumberFormat.shortest.text x).toList, endsWord c = false := by
  intro c h_c
  rw [Bool.eq_false_iff]
  intro h_end
  simp only [endsWord, isBlank, Bool.or_eq_true, beq_iff_eq] at h_end
  have h_plain := h_x.1 c h_c
  rcases h_end with ((((((rfl | rfl) | rfl) | rfl) | rfl) | rfl) | rfl) | rfl <;>
    exact absurd h_plain (by decide)

theorem ne_nil (h_x : ReadsBack x) : (NumberFormat.shortest.text x).toList ≠ [] := by
  obtain ⟨c, h_c, -⟩ := exists_digit_of_readNumber? h_x.1 h_x.2
  exact List.ne_nil_of_mem h_c

/-- The text is a word for the number. -/
theorem numberOfWord?_eq (h_x : ReadsBack x) :
    numberOfWord? (NumberFormat.shortest.text x) = some x := by
  obtain ⟨c, h_c, h_digit⟩ := exists_digit_of_readNumber? h_x.1 h_x.2
  have h_numeric : (NumberFormat.shortest.text x).toList.all isNumeric = true :=
    List.all_eq_true.mpr (isNumeric_of_plain h_x.1)
  have h_any : (NumberFormat.shortest.text x).toList.any Char.isDigit = true :=
    List.any_eq_true.mpr ⟨c, h_c, h_digit⟩
  rw [numberOfWord?, h_numeric, h_any]
  exact h_x.2

end ReadsBack

/-! ## Atoms -/

/-- The atom is a finite number, a string without quotes, or a symbol that a word of a program is. -/
inductive Atom.IsWritten : Atom → Prop where
  | number {x} (h_finite : x.isFinite = true) : IsWritten (.number x)
  | string {text} (h_letters : ∀ c ∈ text.toList, c ≠ '"') : IsWritten (.string text)
  | symbol {name} (h_some : name ≠ "") (h_letters : ∀ c ∈ name.toList, endsWord c = false)
      (h_read : Atom.ofToken (.bare name) = .symbol name) : IsWritten (.symbol name)

/-- The token that an atom is shown as. -/
def Atom.token : Atom → Token
  | .string text => .quoted text
  | atom => .bare atom.text

section Atoms

variable {atom : Atom} (h_atom : atom.IsWritten)
  (h_number : ∀ x, atom = .number x → x.isFinite = true → ReadsBack x)

include h_atom h_number

/-- The token is read from the text of the atom, if something follows that ends a word. -/
theorem scans_text {rest : List Char} (h_rest : ∀ c ∈ rest.head?, endsWord c = true) :
    Scans (atom.text.toList ++ rest) [.token atom.token] rest := by
  have h_bare (word : String) (h_some : word.toList ≠ [])
      (h_letters : ∀ c ∈ word.toList, endsWord c = false) :
      Scans (word.toList ++ rest) [.token (.bare word)] rest := by
    have h_scans := Scans.bare h_some h_letters h_rest .done
    rwa [String.ofList_toList] at h_scans
  cases h_atom with
  | @number x h_finite =>
    have h_x := h_number x rfl h_finite
    exact h_bare _ h_x.ne_nil h_x.endsWord_eq_false
  | @string text h_letters =>
    have h_rest : Scans rest [] rest := .done
    have h_scans := Scans.quoted h_letters h_rest
    rw [String.ofList_toList] at h_scans
    simpa [Atom.text, Atom.token] using h_scans
  | symbol h_some h_letters => exact h_bare _ (String.toList_eq_nil_iff.not.mpr h_some) h_letters

/-- The token is the atom. -/
theorem token_atom : atom.token.atom = .ok atom := by
  unfold Token.atom
  cases h_atom with
  | @number x h_finite =>
    have h_word := (h_number x rfl h_finite).numberOfWord?_eq
    simp only [Atom.token, Atom.text, Atom.ofToken, h_word]
  | string => rfl
  | @symbol name h_some h_letters h_read =>
    simp only [Atom.token, Atom.text, h_read]

end Atoms

/-! ## Trees -/

namespace Expression

/-- A tree that can be read again: all atoms are shown as words that are read as the atoms, and there are
no properties. -/
inductive IsWritten : Expression → Prop where
  | node {head tail} (h_head : head.IsWritten) (h_tail : ∀ child ∈ tail, IsWritten child) :
      IsWritten ⟨head, tail, ∅⟩

mutual

/-- The form that an expression is shown as. A node without children is a form, too. -/
def form : Expression → Form
  | ⟨head, tail, _⟩ => .node head.token (forms tail)

def forms : List Expression → List Form
  | [] => []
  | e :: rest => e.form :: forms rest

end

/-! ### Texts -/

/-- Every child is written behind a space. -/
theorem toList_displayAfter (before : String) (tail : List Expression) :
    (displayAfter before tail).toList
      = before.toList ++ tail.flatMap fun child => ' ' :: child.display.toList := by
  induction tail generalizing before with
  | nil => rw [displayAfter, List.flatMap_nil, List.append_nil]
  | cons child rest ih =>
    rw [displayAfter, ih, List.flatMap_cons, String.toList_append, String.toList_append,
      List.append_assoc, List.append_assoc]
    rfl

theorem toList_display {head : Atom} (h_head : head.IsWritten) (tail : List Expression)
    (properties : NameMap Expression) :
    (display ⟨head, tail, properties⟩).toList
      = '(' :: (head.text.toList
        ++ ((tail.flatMap fun child => ' ' :: child.display.toList) ++ [')'])) := by
  have h_display : display ⟨head, tail, properties⟩ = displayAfter ("(" ++ head.text) tail ++ ")" := by
    cases h_head with
    | number | string | symbol => simp only [display]
  rw [h_display, String.toList_append, toList_displayAfter, String.toList_append, List.append_assoc,
    List.append_assoc]
  rfl

/-- The children are read one after another, and the text behind them ends the last word before. -/
theorem scans_children {tail : List Expression}
    (h_tail : ∀ child ∈ tail, ∀ rest, Scans (child.display.toList ++ rest) child.form.lexemes rest)
    (rest : List Char) :
    Scans ((tail.flatMap fun child => ' ' :: child.display.toList) ++ rest)
      (Form.lexemesOf (forms tail)) rest := by
  induction tail with
  | nil => exact .done
  | cons child others ih =>
    obtain ⟨h_child, h_others⟩ := List.forall_mem_cons.mp h_tail
    rw [List.flatMap_cons, List.append_assoc, forms, Form.lexemesOf]
    exact .blank rfl ((h_child _).append (ih h_others))

/-- The trees of the children, as they are read. -/
theorem expressions_forms {tail : List Expression}
    (h_tail : ∀ child ∈ tail, child.form.expression = .ok child) :
    Form.expressions (forms tail) = .ok tail := by
  induction tail with
  | nil => rfl
  | cons child others ih =>
    obtain ⟨h_child, h_others⟩ := List.forall_mem_cons.mp h_tail
    rw [forms, Form.expressions, h_child, ih h_others]
    rfl

section Written

variable {e : Expression} (h_e : e.IsWritten)
  (h_numbers : ∀ part x, IsPart e part → part.head = .number x → x.isFinite = true → ReadsBack x)

include h_e h_numbers

theorem scans_display (rest : List Char) : Scans (e.display.toList ++ rest) e.form.lexemes rest := by
  induction h_e generalizing rest with
  | @node head tail h_head h_tail ih =>
    have h_children := scans_children fun child h_child rest =>
      ih child h_child (fun part x h_part => h_numbers part x (h_part.of_child h_child)) rest
    have h_closing : Scans (')' :: rest) [.closing] rest := .closing .done
    have h_end : ∀ c ∈ ((tail.flatMap fun child => ' ' :: child.display.toList) ++ ')' :: rest).head?,
        endsWord c = true := by
      intro c h_c
      cases tail with
      | nil =>
        cases h_c
        rfl
      | cons =>
        cases h_c
        rfl
    have h_word := scans_text h_head (fun x => h_numbers _ x .whole) h_end
    rw [toList_display h_head, List.cons_append, List.append_assoc, List.append_assoc,
      List.singleton_append]
    exact .opening (h_word.append ((h_children _).append h_closing))

theorem form_expression : e.form.expression = .ok e := by
  induction h_e with
  | @node head tail h_head h_tail ih =>
    have h_children := expressions_forms fun child h_child =>
      ih child h_child fun part x h_part => h_numbers part x (h_part.of_child h_child)
    rw [form, Form.expression, token_atom h_head fun x => h_numbers _ x .whole, h_children]
    rfl

end Written

end Expression

/-- The text of a tree of finite numbers, strings without quotes and symbols is a program, and the tree
of the program is that tree, if numbers are written as plain decimals that read back. -/
theorem parseProgram_display {e : Expression} (h_e : e.IsWritten)
    (h_numbers : ∀ part x, IsPart e part → part.head = .number x → x.isFinite = true → ReadsBack x) :
    parseProgram e.display = .ok e := by
  have h_scans := Expression.scans_display h_e h_numbers []
  rw [List.append_nil] at h_scans
  refine parseProgram_eq_ok_iff.mpr ⟨e.form, ?_, h_scans, Expression.form_expression h_e h_numbers⟩
  obtain ⟨head, tail, properties⟩ := e
  exact ⟨head.token, Expression.forms tail, rfl⟩

/-! ## Words that are almost numbers -/

/-- Numbers, a string of characters that mean something outside of strings, and symbols that begin like
numbers. -/
def almostNumbers : Expression where
  head := .symbol "-1.5e"
  tail := [.number (-1.5), .ofAtom (.string "(;\n)"), { head := .symbol ".", tail := [.number (-0.0)] }]

theorem almostNumbers_isWritten : almostNumbers.IsWritten := by
  have h_number (x : Float) (h_finite : x.isFinite = true) : (Expression.number x).IsWritten :=
    .node (.number h_finite) nofun
  have h_string : (Expression.ofAtom (.string "(;\n)")).IsWritten :=
    .node (.string (List.all_iff_forall_prop.mp (by decide))) nofun
  have h_point : Atom.IsWritten (.symbol ".") :=
    .symbol (by decide) (List.all_iff_forall_prop.mp (by decide)) (by decide)
  have h_word : Atom.IsWritten (.symbol "-1.5e") :=
    .symbol (by decide) (List.all_iff_forall_prop.mp (by decide)) (by decide)
  have h_last : Expression.IsWritten ⟨.symbol ".", [.number (-0.0)], ∅⟩ :=
    .node h_point (List.forall_mem_singleton.mpr (h_number (-0.0) (by decide +kernel)))
  refine .node h_word (List.forall_mem_cons.mpr ⟨h_number (-1.5) (by decide +kernel), ?_⟩)
  exact List.forall_mem_cons.mpr ⟨h_string, List.forall_mem_singleton.mpr h_last⟩

theorem numbers_of_almostNumbers {part : Expression} {x : Float} (h_part : IsPart almostNumbers part)
    (h_head : part.head = .number x) : x = -1.5 ∨ x = -0.0 := by
  have h_leaf {head : Atom} {part : Expression} (h_part : IsPart (.ofAtom head) part) :
      part.head = head := by
    rcases isPart_iff.mp h_part with rfl | ⟨child, h_child, -⟩
    · rfl
    · cases h_child
  rcases isPart_iff.mp h_part with rfl | ⟨child, h_child, h_part⟩
  · cases h_head
  simp only [almostNumbers, List.mem_cons, List.not_mem_nil, or_false] at h_child
  rcases h_child with rfl | rfl | rfl
  · cases (h_leaf h_part).symm.trans h_head
    exact .inl rfl
  · cases (h_leaf h_part).symm.trans h_head
  · rcases isPart_iff.mp h_part with rfl | ⟨child, h_child, h_part⟩
    · cases h_head
    · cases List.mem_singleton.mp h_child
      cases (h_leaf h_part).symm.trans h_head
      exact .inr rfl

theorem parseProgram_display_almostNumbers :
    almostNumbers.display = "(-1.5e (-1.5) (\"(;\n)\") (. (-0)))" ∧
      parseProgram almostNumbers.display = .ok almostNumbers := by
  refine ⟨by decide +kernel, parseProgram_display almostNumbers_isWritten ?_⟩
  intro part x h_part h_head _
  rcases numbers_of_almostNumbers h_part h_head with rfl | rfl
  · exact ⟨List.all_iff_forall_prop.mp (by decide +kernel), by decide +kernel⟩
  · exact ⟨List.all_iff_forall_prop.mp (by decide +kernel), by decide +kernel⟩

end PlotLisp
